import SearchClient.Proofs.ServerError.Parts

/-!
# What becomes of the members of an error

Every member of an error that says something is still there when the cause that was read is written,
and says the same but for the normal form of causes (`Kept`): a shard is a text, the ids of a
resource are a list, a reason that was only a text is a cause with that reason, and members are in
order. The members for which a cause has no slot are kept with their values. Those for which a shard
failure or a script position has none are passed over, and nothing else is.
-/

set_option autoImplicit false
set_option relaxedAutoImplicit false

namespace SearchClient.ErrorCause

open Json

/-! ### Roles -/

/-- What a value of an error is, by where it stands. -/
inductive Role where
  | plain
  | shard
  | ids
  | cause
  | causes
  | failure
  | failures
  | reason
  | position
  deriving DecidableEq

/-- The places of a record, in the order of its slots. -/
def Role.parts : Role → List (String × Role)
  | .cause =>
    [("type", .plain), ("reason", .plain), ("stack_trace", .plain), ("caused_by", .cause),
      ("root_cause", .causes), ("failed_shards", .failures), ("index", .plain),
      ("index_uuid", .plain), ("shard", .shard), ("resource.id", .ids), ("resource.type", .plain),
      ("script", .plain), ("script_stack", .plain), ("lang", .plain), ("position", .position),
      ("phase", .plain), ("grouped", .plain), ("header", .plain)]
  | .failure =>
    [("index", .plain), ("node", .plain), ("shard", .shard), ("status", .plain),
      ("reason", .reason)]
  | .position => [("offset", .plain), ("start", .plain), ("end", .plain)]
  | _ => []

/-- Only causes keep members without a place. -/
def Role.keepsRest : Role → Bool
  | .cause => true
  | _ => false

/-- The role of a member, if records of its role keep it: that of its place, or else a plain one. -/
def Role.part? (keeps : Role → Bool) (role : Role) (name : String) : Option Role :=
  match role.parts.find? (·.1 == name) with
  | some (_, part) => some part
  | none => if keeps role then some .plain else none

theorem Role.nodup_names (role : Role) : (role.parts.map Prod.fst).Nodup := by
  cases role <;> decide

theorem Role.part?_of_mem {keeps : Role → Bool} {role part : Role} {name : String}
    (h : (name, part) ∈ role.parts) : role.part? keeps name = some part := by
  have hfind : role.parts.find? (·.1 == name) = some (name, part) :=
    (find?_eq_some_iff_of_nodup role.nodup_names fun _ _ ↦ beq_iff_eq).mpr ⟨h, rfl⟩
  rw [Role.part?, hfind]

theorem Role.part?_of_not_mem {keeps : Role → Bool} {role : Role} {name : String}
    (h : name ∉ role.parts.map Prod.fst) :
    role.part? keeps name = if keeps role then some .plain else none := by
  have hfind : role.parts.find? (·.1 == name) = none := by
    refine List.find?_eq_none.mpr fun entry hmem hname ↦ h ?_
    exact (by simpa using hname : entry.1 = name) ▸ List.mem_map_of_mem hmem
  rw [Role.part?, hfind]

/-- A value that says nothing. -/
def Blank (v : Json) : Prop :=
  v = .null ∨ v = .array [] ∨ v = .object []

mutual

/-- A value of an error says the same after it was read and written, where records of some roles
keep their members without a place. -/
inductive Kept (keeps : Role → Bool) : Role → Json → Json → Prop
  | plain (v : Json) : Kept keeps .plain v v.sorted
  | text (s : String) : Kept keeps .shard (.string s) (.string s)
  | printed {v : Json} (h : ∀ s, v ≠ .string s) : Kept keeps .shard v (.string v.sorted.compact)
  | single (s : String) : Kept keeps .ids (.string s) (.array [.string s])
  | list (items : List Json) : Kept keeps .ids (.array items) (.array items)
  | mereText (s : String) : Kept keeps .reason (.string s) (.object [("reason", .string s)])
  | reason {v v' : Json} (h : Kept keeps .cause v v') : Kept keeps .reason v v'
  | causes {items items' : List Json} (h : List.Forall₂ (Kept keeps .cause) items items') :
      Kept keeps .causes (.array items) (.array items')
  | failures {items items' : List Json} (h : List.Forall₂ (Kept keeps .failure) items items') :
      Kept keeps .failures (.array items) (.array items')
  | object {role : Role} {members members' : List (String × Json)} (hrole : role.parts ≠ [])
      (h : ∀ m ∈ sortMembers members, PartKept keeps role m.1 m.2 members') :
      Kept keeps role (.object members) (.object members')
  | array {role : Role} {items : List Json} {members' : List (String × Json)}
      (hrole : role = .failure ∨ role = .position) (hlength : items.length ≤ role.parts.length)
      (h : ∀ (i : Nat) (name : String) (part : Role) (v : Json),
        role.parts[i]? = some (name, part) → items[i]? = some v →
          PartKept keeps role name v members') :
      Kept keeps role (.array items) (.object members')

/-- A member of a record of an error is among those that were written, unless it says nothing or
records of its role pass it over. -/
inductive PartKept (keeps : Role → Bool) : Role → String → Json → List (String × Json) → Prop
  | blank {role : Role} {name : String} {v : Json} {members' : List (String × Json)}
      (h : Blank v) : PartKept keeps role name v members'
  | passed {role : Role} {name : String} {v : Json} {members' : List (String × Json)}
      (hpart : role.part? keeps name = none) (habsent : ∀ v', (name, v') ∉ members') :
      PartKept keeps role name v members'
  | kept {role part : Role} {name : String} {v v' : Json} {members' : List (String × Json)}
      (hpart : role.part? keeps name = some part) (hmem : (name, v') ∈ members')
      (h : Kept keeps part v v') : PartKept keeps role name v members'

end

/-- A member that says something and is not passed over was written. -/
theorem PartKept.exists_written {keeps : Role → Bool} {role part : Role} {name : String} {v : Json}
    {members' : List (String × Json)} (h : PartKept keeps role name v members')
    (hblank : ¬ Blank v) (hpart : role.part? keeps name = some part) :
    ∃ v', (name, v') ∈ members' ∧ Kept keeps part v v' := by
  cases h with
  | blank h => exact absurd h hblank
  | passed hnone _ => cases hpart.symm.trans hnone
  | kept hsome hmem hkept =>
    obtain rfl := Option.some.inj (hpart.symm.trans hsome)
    exact ⟨_, hmem, hkept⟩

/-! ### Places of records -/

variable {keeps : Role → Bool} {role part : Role} {j : Json} {i : Nat} {name : String}
  {β : Type} {read : Tree → Except Fault β}

/-- What stands at a place of a document and says something is written. -/
def Retains (keeps : Role → Bool) (j : Json) (i : Nat) (name : String) (part : Role)
    (written : Option Json) : Prop :=
  ∀ v, j.Part i name v → ¬ Blank v → ∃ v', written = some v' ∧ Kept keeps part v v'

theorem retains_optional {value : Option β} {write : β → Json}
    (h : Stands j.toTree i name (Tree.readOptional read) none value)
    (hkept : ∀ v x, read v.toTree = .ok x → Kept keeps part v (write x)) :
    Retains keeps j i name part (value.map write) := by
  intro v hv hblank
  obtain ⟨hnull, -⟩ | ⟨-, x, hx, rfl⟩ := readOptional_eq_ok.mp (h.found _ (part_toTree hv))
  · exact absurd (.inl (toTree_eq_null.mp hnull)) hblank
  · exact ⟨write x, rfl, hkept v x hx⟩

theorem retains_text {value : Option String} (h : Stands j.toTree i name optionalText none value) :
    Retains keeps j i name .plain (value.map .string) := by
  refine retains_optional h fun v s hs ↦ ?_
  obtain rfl := readText_toTree.mp hs
  exact .plain (.string s)

theorem retains_list {room : Nat} {read : Nat → Tree → Except Fault β} {values : List β}
    {write : β → Json} (h : Stands j.toTree i name (Tree.readList room read) [] values)
    (hkept : ∀ items inner,
      List.Forall₂ (fun item x ↦ read inner item.toTree = .ok x) items values →
        Kept keeps part (.array items) (.array (values.map write))) :
    Retains keeps j i name part (listed (fun values ↦ .array (values.map write)) values) := by
  intro v hv hblank
  obtain ⟨items, inner, rfl, -, hitems⟩ := readList_toTree.mp (h.found _ (part_toTree hv))
  cases values with
  | nil =>
    cases hitems
    exact absurd (.inr (.inl rfl)) hblank
  | cons value values => exact ⟨_, rfl, hkept items inner hitems⟩

theorem eq_texts {items : List Json} {values : List String}
    (h : List.Forall₂ (fun item s ↦ item.toTree.readText = .ok s) items values) :
    Json.array items = texts values := by
  have hitems : items = values.map .string := by
    induction h with
    | nil => rfl
    | cons hitem _ ih => rw [readText_toTree.mp hitem, ih, List.map_cons]
  rw [hitems, texts]

theorem sorted_texts (values : List String) : (texts values).sorted = texts values := by
  refine congrArg Json.array (sortedItems_of_forall fun item hmem ↦ ?_)
  obtain ⟨s, -, rfl⟩ := List.mem_map.mp hmem
  rfl

theorem retains_texts {room : Nat} {values : List String}
    (h : Stands j.toTree i name (Tree.readList room fun _ ↦ Tree.readText) [] values) :
    Retains keeps j i name .plain (listed texts values) := by
  refine retains_list h fun items _ hitems ↦ ?_
  have hkept : Kept keeps .plain (texts values) (texts values).sorted := .plain _
  rw [sorted_texts] at hkept
  exact eq_texts hitems ▸ hkept

theorem retains_shard {room : Nat} {value : Option String}
    (h : Stands j.toTree i name (readShard room) none value) :
    Retains keeps j i name .shard (value.map .string) := by
  intro v hv hblank
  obtain ⟨read, hread, hshard⟩ := bind_eq_ok.mp (h.found _ (part_toTree hv))
  obtain rfl := eq_sorted_of_toJson hread
  cases v with
  | null => exact absurd (.inl rfl) hblank
  | string s =>
    obtain rfl := Except.ok.inj hshard
    exact ⟨_, rfl, .text s⟩
  | bool | number | array | object =>
    obtain rfl := Except.ok.inj hshard
    exact ⟨_, rfl, .printed nofun⟩

theorem retains_ids {room : Nat} {values : List String}
    (h : Stands j.toTree i name (readOneOrMany room) [] values) :
    Retains keeps j i name .ids (listed texts values) := by
  intro v hv hblank
  obtain ⟨read, hread, hids⟩ := bind_eq_ok.mp (h.found _ (part_toTree hv))
  obtain rfl := eq_sorted_of_toJson hread
  cases v with
  | null => exact absurd (.inl rfl) hblank
  | string s =>
    obtain rfl := Except.ok.inj hids
    exact ⟨_, rfl, .single s⟩
  | array items =>
    obtain ⟨_, _, hsame, -, hitems⟩ := readList_toTree.mp hids
    obtain rfl := Json.array.inj hsame
    cases values with
    | nil =>
      cases hitems
      exact absurd (.inr (.inl rfl)) hblank
    | cons value values => exact ⟨_, rfl, eq_texts hitems ▸ .list items⟩
  | bool | number | object =>
    obtain ⟨_, _, hitems, -⟩ := readList_toTree.mp hids
    cases hitems

theorem retains_header {room : Nat} {header : List (String × Json)}
    (h : Stands j.toTree i name (Tree.readMap room fun room t ↦ t.toJson room) [] header) :
    Retains keeps j i name .plain (listed .object header) := by
  intro v hv hblank
  obtain ⟨members, _, rfl, -, -, rfl⟩ := readMap_toTree.mp (h.found _ (part_toTree hv))
  have hmembers : members ≠ [] := by
    rintro rfl
    exact hblank (.inr (.inr rfl))
  have hsorted : sortMembers (sortedMembers members) ≠ [] := by
    apply sortMembers_ne_nil
    rwa [sortedMembers_eq_map, ne_eq, List.map_eq_nil_iff]
  exact ⟨(Json.object members).sorted, listed_of_ne_nil hsorted, .plain _⟩

/-- The places of a record, from one of them on, are written with all that stands there. -/
inductive Retained (keeps : Role → Bool) (j : Json) :
    Nat → List (String × Role) → List (String × Option Json) → Prop
  | nil (i : Nat) : Retained keeps j i [] []
  | cons {i : Nat} {name : String} {part : Role} {written : Option Json}
      {parts : List (String × Role)} {places : List (String × Option Json)}
      (hpart : Retains keeps j i name part written)
      (hrest : Retained keeps j (i + 1) parts places) :
      Retained keeps j i ((name, part) :: parts) ((name, written) :: places)

variable {parts : List (String × Role)} {places : List (String × Option Json)}
  {rest : List (String × Json)} {members : List (String × Json)} {items : List Json}

namespace Retained

theorem names_eq (h : Retained keeps j i parts places) :
    places.map Prod.fst = parts.map Prod.fst := by
  induction h with
  | nil => rfl
  | cons _ _ ih => rw [List.map_cons, List.map_cons, ih]

theorem exists_written (h : Retained keeps j i parts places) {k : Nat}
    (hpart : parts[k]? = some (name, part)) :
    ∃ written, (name, written) ∈ places ∧ Retains keeps j (i + k) name part written := by
  induction h generalizing k with
  | nil => cases hpart
  | cons hretains _ ih =>
    cases k with
    | zero =>
      obtain ⟨rfl, rfl⟩ := Prod.mk.inj (Option.some.inj hpart)
      exact ⟨_, List.mem_cons_self, hretains⟩
    | succ k =>
      obtain ⟨written, hmem, hretains⟩ := ih hpart
      rw [Nat.add_right_comm] at hretains
      exact ⟨written, List.mem_cons_of_mem _ hmem, hretains⟩

theorem partKept (h : Retained keeps j 0 role.parts places) {k : Nat} {v : Json}
    (hpart : role.parts[k]? = some (name, part)) (hv : j.Part k name v) :
    PartKept keeps role name v (filled places ++ rest) := by
  by_cases hblank : Blank v
  · exact .blank hblank
  · obtain ⟨written, hplace, hretains⟩ := h.exists_written hpart
    rw [Nat.zero_add] at hretains
    obtain ⟨v', rfl, hkept⟩ := hretains v hv hblank
    exact .kept (Role.part?_of_mem (List.mem_of_getElem? hpart))
      (List.mem_append_left rest (mem_filled hplace)) hkept

/-- An object is kept if its places are, and the members that have none. -/
theorem kept_object (h : Retained keeps (.object members) 0 role.parts places)
    (hrole : role.parts ≠ [])
    (hrest : ∀ m ∈ sortMembers members, m.1 ∉ role.parts.map Prod.fst →
      PartKept keeps role m.1 m.2 (filled places ++ rest)) :
    Kept keeps role (.object members) (.object (filled places ++ rest)) := by
  refine .object hrole fun m hm ↦ ?_
  by_cases hname : m.1 ∈ role.parts.map Prod.fst
  · obtain ⟨⟨name, part⟩, hmem, hsame⟩ := List.mem_map.mp hname
    obtain ⟨k, hk⟩ := List.getElem?_of_mem hmem
    obtain rfl : name = m.1 := hsame
    exact h.partKept hk (.member (mem_of_mem_sortMembers hm))
  · exact hrest m hm hname

/-- A record that passes other members over is kept but for these. -/
theorem kept_closed {room : Nat} {slots : Nat → List (Slot β)} {keepsRest : Bool}
    {read : List β × List (String × Json)} (h : Retained keeps j 0 role.parts places)
    (hrole : role = .failure ∨ role = .position) (hkeeps : keeps role = false)
    (hread : readRecord room slots keepsRest j.toTree = .ok read)
    (hslots : ∀ room, (slots room).length = role.parts.length) :
    Kept keeps role j (.object (filled places)) := by
  rw [← List.append_nil (filled places)]
  obtain ⟨members, rfl⟩ | ⟨items, inner, rfl, hlength⟩ := object_or_array_of_readRecord hread
  · have hparts : role.parts ≠ [] := by
      rcases hrole with rfl | rfl <;> exact nofun
    refine h.kept_object hparts fun m _ hname ↦ .passed ?_ fun v' hmem ↦ ?_
    · rw [Role.part?_of_not_mem hname, hkeeps]
      rfl
    · rw [List.append_nil] at hmem
      exact hname (h.names_eq ▸ mem_of_mem_filled hmem)
  · rw [hslots inner] at hlength
    exact .array hrole hlength fun i name part v hpart hv ↦ h.partKept hpart (.item hv)

end Retained

theorem retained_cause {fuel room : Nat} {c : ErrorCause} (h : CauseRead fuel room j.toTree c)
    (hcause : ∀ v c room, readUpTo fuel room v.toTree = .ok c → Kept keeps .cause v c.toJson)
    (hfailure : ∀ v f room, failureUpTo fuel room v.toTree = .ok f →
      Kept keeps .failure v (failureToJson f))
    (hposition : ∀ v p room, readPosition room v.toTree = .ok p →
      Kept keeps .position v (positionToJson p)) :
    Retained keeps j 0 Role.cause.parts c.places := by
  have hcausedBy : Retains keeps j 3 "caused_by" .cause (c.causedBy.map toJson) :=
    retains_optional h.causedBy fun v cause hv ↦ hcause v cause room hv
  have hrootCause : Retains keeps j 4 "root_cause" .causes
      (listed (fun causes ↦ .array (causes.map toJson)) c.rootCause) :=
    retains_list h.rootCause fun items inner hitems ↦
      .causes (List.forall₂_map_right_iff.mpr (hitems.imp fun v c hv ↦ hcause v c inner hv))
  have hfailedShards : Retains keeps j 5 "failed_shards" .failures
      (listed (fun failures ↦ .array (failures.map failureToJson)) c.failedShards) :=
    retains_list h.failedShards fun items inner hitems ↦
      .failures (List.forall₂_map_right_iff.mpr (hitems.imp fun v f hv ↦ hfailure v f inner hv))
  have hposition : Retains keeps j 14 "position" .position (c.position.map positionToJson) :=
    retains_optional h.position fun v p hv ↦ hposition v p room hv
  have hgrouped : Retains keeps j 16 "grouped" .plain (c.grouped.map .bool) :=
    retains_optional h.grouped fun v b hv ↦ by
      obtain rfl := readBool_toTree.mp hv
      exact .plain (.bool b)
  exact .cons (retains_text h.kind) <| .cons (retains_text h.reason) <|
    .cons (retains_text h.stackTrace) <| .cons hcausedBy <| .cons hrootCause <|
    .cons hfailedShards <| .cons (retains_text h.index) <| .cons (retains_text h.indexUuid) <|
    .cons (retains_shard h.shard) <| .cons (retains_ids h.resourceId) <|
    .cons (retains_text h.resourceType) <| .cons (retains_text h.script) <|
    .cons (retains_texts h.scriptStack) <| .cons (retains_text h.lang) <| .cons hposition <|
    .cons (retains_text h.phase) <| .cons hgrouped <| .cons (retains_header h.header) <| .nil _

theorem retains_integer {value : Int} (h : IntegerRead j.toTree i name value) :
    Retains keeps j i name .plain (some (.integer value)) := by
  intro v hv _
  obtain ⟨rfl, -⟩ := readInteger_toTree.mp (h.found _ (part_toTree hv))
  exact ⟨_, rfl, .plain (.integer value)⟩

theorem kept_position {room : Nat} {p : ScriptPosition} (h : readPosition room j.toTree = .ok p)
    (hkeeps : keeps .position = false) : Kept keeps .position j (positionToJson p) := by
  obtain ⟨hoffset, hstart, hstop⟩ := positionRead_of_readPosition h
  have hretained : Retained keeps j 0 Role.position.parts (positionPlaces p) :=
    .cons (retains_integer hoffset) <| .cons (retains_integer hstart) <|
      .cons (retains_integer hstop) <| .nil _
  obtain ⟨_, hrecord, -⟩ := bind_eq_ok.mp h
  exact hretained.kept_closed (.inr rfl) hkeeps hrecord fun _ ↦ rfl

theorem toJson_mereText (s : String) :
    toJson { reason := some s } = .object [("reason", .string s)] := by
  rw [toJson_eq]
  rfl

theorem retains_reason {readCause : Tree → Except Fault ErrorCause} {room : Nat} {c : ErrorCause}
    (h : Stands j.toTree i name (readTextOr readCause room) {} c)
    (hcause : ∀ v, readCause v.toTree = .ok c → Kept keeps .cause v c.toJson) :
    Retains keeps j i name .reason (some c.toJson) := by
  intro v hv _
  obtain ⟨read, hread, hreason⟩ := bind_eq_ok.mp (h.found _ (part_toTree hv))
  obtain rfl := eq_sorted_of_toJson hread
  cases v with
  | string s =>
    obtain rfl := Except.ok.inj hreason
    exact ⟨_, rfl, toJson_mereText s ▸ .mereText s⟩
  | null | bool | number | array | object => exact ⟨_, rfl, .reason (hcause _ hreason)⟩

theorem kept_failure {readReason : Nat → Tree → Except Fault ErrorCause} {room : Nat}
    {f : ShardFailure}
    (h : readFailure (fun room t ↦ readTextOr (readReason room) room t) room j.toTree = .ok f)
    (hkeeps : keeps .failure = false)
    (hcause : ∀ v c room, readReason room v.toTree = .ok c → Kept keeps .cause v c.toJson) :
    Kept keeps .failure j (failureToJson f) := by
  obtain ⟨inner, -, hindex, hnode, hshard, hstatus, hreason⟩ := failureRead_of_readFailure h
  have hretained : Retained keeps j 0 Role.failure.parts (failurePlaces f) :=
    .cons (retains_text hindex) <| .cons (retains_text hnode) <| .cons (retains_shard hshard) <|
      .cons (retains_text hstatus) <|
      .cons (retains_reason hreason fun v hv ↦ hcause v _ inner hv) <| .nil _
  obtain ⟨_, hrecord, -⟩ := bind_eq_ok.mp h
  rw [failureToJson_eq]
  exact hretained.kept_closed (.inl rfl) hkeeps hrecord fun _ ↦ rfl

/-- A cause is kept with all causes in it. The induction is on how many may stand one inside the
other. -/
theorem kept_of_readUpTo {fuel room : Nat} {c : ErrorCause}
    (h : readUpTo fuel room j.toTree = .ok c) :
    Kept Role.keepsRest .cause j c.toJson := by
  induction fuel generalizing room j c with
  | zero => cases h
  | succ fuel ih =>
    obtain ⟨inner, changes, -, hread, hrecord⟩ := causeRead_of_readUpTo h
    have hretained := retained_cause hread (fun v c room hv ↦ ih hv)
      (fun v f room hv ↦ kept_failure hv rfl fun v c room hv ↦ ih hv)
      (fun v p room hv ↦ kept_position hv rfl)
    obtain ⟨members, rfl⟩ : ∃ members, j = .object members := by
      obtain ⟨_, _, _, _, _, -, hobject, -, -⟩ := object_of_readRecord hrecord
      cases j with
      | object members => exact ⟨members, rfl⟩
      | null | bool | number | string | array => cases hobject
    rw [toJson_eq]
    refine hretained.kept_object nofun fun m hm hname ↦ ?_
    have hmem := mem_rest_of_readRecord (apart_slots _ _) hrecord hm fun _ ↦ hname
    exact .kept (Role.part?_of_not_mem hname) (List.mem_append_right _ hmem) (.plain m.2)

/-- Every member of an error that says something is still there after the cause was read and
written, at every depth, but for those that a shard failure or a script position has no place for.
-/
theorem kept_of_ofJson {c : ErrorCause} (h : ofJson j = .ok c) :
    Kept Role.keepsRest .cause j c.toJson :=
  kept_of_readUpTo h

/-- A failed script: its position in an array, a shard with a number, a mere text for its reason and
a member without a place, one resource for a list, and a cause that a plugin has added to. -/
def failedScript : Json :=
  .object [("type", .string "script_exception"), ("resource.id", .string "logs"),
    ("position", .array [.integer 4, .integer 0, .integer 9]),
    ("failed_shards", .array [.object [("shard", .integer 0), ("reason", .string "gone"),
      ("primary", .bool true)]]),
    ("caused_by", .object [("reason", .string "no field"), ("bytes_wanted", .integer 1024)])]

/-- What is read of the failed script. -/
def failedScriptRead : ErrorCause where
  kind := some "script_exception"
  causedBy := some { reason := some "no field", metadata := [("bytes_wanted", .integer 1024)] }
  failedShards := [{ shard := some "0", reason := { reason := some "gone" } }]
  resourceId := ["logs"]
  position := some ⟨4, 0, 9⟩

theorem kept_of_ofJson_of_failedScript : ofJson failedScript = .ok failedScriptRead ∧
    Kept Role.keepsRest .cause failedScript failedScriptRead.toJson := by
  have hread : ofJson failedScript = .ok failedScriptRead := rfl
  exact ⟨hread, kept_of_ofJson hread⟩

/-- If all records kept their members without a place, then a shard failure would keep whether its
shard was a primary one. -/
theorem shard_member_is_lost :
    ∃ c, ofJson (.object [("failed_shards",
        .array [.object [("index", .string "a"), ("primary", .bool true)]])]) = .ok c ∧
      c.toJson = .object [("failed_shards",
        .array [.object [("index", .string "a"), ("reason", .object [])]])] ∧
      ¬ Kept (fun _ ↦ true) .cause (.object [("failed_shards",
        .array [.object [("index", .string "a"), ("primary", .bool true)]])]) c.toJson := by
  have hwritten : toJson { failedShards := [{ index := some "a", reason := {} }] } =
      .object [("failed_shards",
        .array [.object [("index", .string "a"), ("reason", .object [])]])] := by
    rw [toJson_eq]
    rfl
  refine ⟨{ failedShards := [{ index := some "a", reason := {} }] }, rfl, hwritten, fun h ↦ ?_⟩
  rw [hwritten] at h
  cases h with
  | object _ hmembers =>
    have hshards := hmembers _ List.mem_cons_self
    obtain ⟨_, hmem, hkept⟩ := hshards.exists_written (by simp [Blank]) rfl
    obtain rfl := (Prod.mk.inj (List.mem_singleton.mp hmem)).2
    cases hkept with
    | failures hfailures =>
      cases hfailures with
      | cons hfailure _ =>
        cases hfailure with
        | object _ hmembers =>
          have hprimary := hmembers ("primary", .bool true)
            (List.mem_cons_of_mem _ List.mem_cons_self)
          obtain ⟨_, hmem, -⟩ := hprimary.exists_written (by simp [Blank]) rfl
          simp at hmem

end SearchClient.ErrorCause

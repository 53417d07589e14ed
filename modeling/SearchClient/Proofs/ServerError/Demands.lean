import SearchClient.Proofs.Json.RecordShapes
import SearchClient.Proofs.ServerError.Parts

/-!
# What a cause has to look like

The members of a cause that have a place of their own are read strictly: each place demands a kind
of value (`Demand`), and one value of another kind, however deep, keeps the whole cause from being
read. `Meets` says without any reading what a place demands of a tree. A tree that is sound is read
as a cause exactly if it meets the demands of one (`answers_readUpTo`).
-/

set_option autoImplicit false
set_option relaxedAutoImplicit false

namespace SearchClient.ErrorCause

open Json

/-! ### Demands -/

/-- The records that a cause is made of. -/
inductive RecordKind where
  | cause
  | failure
  | position
  deriving DecidableEq, Repr

/-- What a place demands of the value that stands there. -/
inductive Demand where
  | anything
  | text
  | flag
  | integer (least greatest : Int)
  | map
  /-- Null is as good. -/
  | optional (demand : Demand)
  | either (first second : Demand)
  | list (item : Demand)
  | record (kind : RecordKind)
  deriving DecidableEq, Repr

namespace RecordKind

/-- The names that have a place in a record, with what is demanded there. -/
def places : RecordKind → List (String × Demand)
  | cause =>
    [("type", .optional .text), ("reason", .optional .text), ("stack_trace", .optional .text),
      ("caused_by", .optional (.record .cause)), ("root_cause", .list (.record .cause)),
      ("failed_shards", .list (.record .failure)), ("index", .optional .text),
      ("index_uuid", .optional .text), ("shard", .anything),
      ("resource.id", .optional (.either .text (.list .text))), ("resource.type", .optional .text),
      ("script", .optional .text), ("script_stack", .list .text), ("lang", .optional .text),
      ("position", .optional (.record .position)), ("phase", .optional .text),
      ("grouped", .optional .flag), ("header", .map)]
  | failure =>
    [("index", .optional .text), ("node", .optional .text), ("shard", .anything),
      ("status", .optional .text), ("reason", .either .text (.record .cause))]
  | position =>
    [("offset", .integer leastSigned greatestSigned),
      ("start", .integer leastSigned greatestSigned), ("end", .integer leastSigned greatestSigned)]

/-- Whether other members are kept. Such a record is read from an object only. -/
def keepsRest : RecordKind → Bool
  | cause => true
  | _ => false

/-- Whether every place of the record has to be filled. -/
def isComplete : RecordKind → Bool
  | position => true
  | _ => false

end RecordKind

/-- The tree is what the demand asks for. -/
inductive Meets : Demand → Tree → Prop
  | anything (t : Tree) : Meets .anything t
  | text (s : Quoted) : Meets .text (.string s)
  | flag (b : Bool) : Meets .flag (.bool b)
  | integer {least greatest i : Int} {spelling : List Char} (hleast : least ≤ i)
      (hgreatest : i ≤ greatest) :
      Meets (.integer least greatest) (.number spelling (.ok (.integer i)))
  | map (spelling : List Text.Glyph) (members : List (Quoted × Tree)) (ending : Ending) :
      Meets .map (.object spelling members ending)
  | null (demand : Demand) : Meets (.optional demand) .null
  | present {demand : Demand} {t : Tree} (h : Meets demand t) : Meets (.optional demand) t
  | first {first second : Demand} {t : Tree} (h : Meets first t) : Meets (.either first second) t
  | second {first second : Demand} {t : Tree} (h : Meets second t) : Meets (.either first second) t
  | list {item : Demand} {spelling : List Text.Glyph} {items : List Tree} {ending : Ending}
      (h : ∀ t ∈ items, Meets item t) : Meets (.list item) (.array spelling items ending)
  /-- No name of a place comes twice, and each value meets the demand of its place. -/
  | members {kind : RecordKind} {spelling : List Text.Glyph} {members : List (Quoted × Tree)}
      {ending : Ending}
      (honce : ∀ name demand, (name, demand) ∈ kind.places → OnlyOnce members name)
      (hmeets : ∀ name demand, (name, demand) ∈ kind.places →
        ∀ t, Named members name t → Meets demand t)
      (hthere : kind.isComplete = true → ∀ name demand, (name, demand) ∈ kind.places →
        ∃ t, Named members name t) :
      Meets (.record kind) (.object spelling members ending)
  /-- The items of an array stand at the places in their order. -/
  | items {kind : RecordKind} {spelling : List Text.Glyph} {items : List Tree} {ending : Ending}
      (hkeeps : kind.keepsRest = false) (hlength : items.length ≤ kind.places.length)
      (hmeets : ∀ (i : ℕ) name demand t, kind.places[i]? = some (name, demand) →
        items[i]? = some t → Meets demand t)
      (hthere : kind.isComplete = true → items.length = kind.places.length) :
      Meets (.record kind) (.array spelling items ending)

variable {α β σ : Type} {room : Nat} {t : Tree} {demand : Demand} {name : String}

theorem meets_optional : Meets (.optional demand) t ↔ t = .null ∨ Meets demand t := by
  constructor
  · intro h
    cases h with
    | null => exact .inl rfl
    | present h => exact .inr h
  · rintro (rfl | h)
    · exact .null demand
    · exact .present h

theorem meets_either {first second : Demand} :
    Meets (.either first second) t ↔ Meets first t ∨ Meets second t := by
  constructor
  · intro h
    cases h with
    | first h => exact .inl h
    | second h => exact .inr h
  · rintro (h | h)
    · exact .first h
    · exact .second h

/-- A tree is null or a text if its document is. -/
theorem null_or_text_of_toJson {j : Json} (h : t.toJson room = .ok j) :
    (j = .null ↔ t = .null) ∧ ((∃ s, j = .string s) ↔ Meets .text t) := by
  cases t with
  | null =>
    cases h
    exact ⟨iff_of_true rfl rfl, iff_of_false nofun nofun⟩
  | string s =>
    obtain ⟨content, -, rfl⟩ := map_eq_ok.mp h
    exact ⟨iff_of_false nofun nofun, iff_of_true ⟨content, rfl⟩ (.text s)⟩
  | bool =>
    cases h
    exact ⟨iff_of_false nofun nofun, iff_of_false nofun nofun⟩
  | number =>
    obtain ⟨n, -, rfl⟩ := map_eq_ok.mp h
    exact ⟨iff_of_false nofun nofun, iff_of_false nofun nofun⟩
  | array =>
    cases room with
    | zero => cases h
    | succ room =>
      obtain ⟨js, -, h⟩ := bind_eq_ok.mp h
      obtain ⟨_, -, h⟩ := bind_eq_ok.mp h
      cases h
      exact ⟨iff_of_false nofun nofun, iff_of_false nofun nofun⟩
  | object =>
    cases room with
    | zero => cases h
    | succ room =>
      obtain ⟨js, -, h⟩ := bind_eq_ok.mp h
      obtain ⟨_, -, h⟩ := bind_eq_ok.mp h
      cases h
      exact ⟨iff_of_false nofun nofun, iff_of_false nofun nofun⟩
  | broken => cases h

/-! ### Answers -/

/-- A reader reads the sound trees that meet a demand, and no other sound trees. -/
def Answers (room : Nat) (read : Tree → Except Fault β) (demand : Demand) : Prop :=
  ∀ t : Tree, t.Sound room → ((∃ value, read t = .ok value) ↔ Meets demand t)

theorem exists_map_eq_ok {read : Except Fault α} {f : α → β} :
    (∃ value, read.map f = .ok value) ↔ ∃ value, read = .ok value := by
  simp only [map_eq_ok]
  constructor
  · rintro ⟨_, value, hvalue, -⟩
    exact ⟨value, hvalue⟩
  · rintro ⟨value, hvalue⟩
    exact ⟨_, value, hvalue, rfl⟩

theorem Answers.map {read : Tree → Except Fault α} (h : Answers room read demand) (f : α → β) :
    Answers room (fun t ↦ (read t).map f) demand :=
  fun t ht ↦ exists_map_eq_ok.trans (h t ht)

theorem answers_text : Answers room Tree.readText .text := by
  rintro t ⟨j, hj⟩
  cases t with
  | string s =>
    obtain ⟨content, hcontent, -⟩ := map_eq_ok.mp hj
    exact iff_of_true ⟨content, hcontent⟩ (.text s)
  | _ => exact iff_of_false nofun nofun

theorem answers_flag : Answers room Tree.readBool .flag := by
  rintro t -
  cases t with
  | bool b => exact iff_of_true ⟨b, rfl⟩ (.flag b)
  | _ => exact iff_of_false nofun nofun

theorem readInteger_eq_ok {least greatest i : Int} : t.readInteger least greatest = .ok i ↔
    (∃ spelling, t = .number spelling (.ok (.integer i))) ∧ least ≤ i ∧ i ≤ greatest := by
  constructor
  · intro h
    unfold Tree.readInteger at h
    split at h
    · rename_i spelling k
      split_ifs at h with hbounds
      obtain rfl := Except.ok.inj h
      exact ⟨⟨spelling, rfl⟩, hbounds⟩
    · cases h
  · rintro ⟨⟨spelling, rfl⟩, hbounds⟩
    exact if_pos hbounds

theorem exists_readInteger_iff {least greatest : Int} :
    (∃ value, t.readInteger least greatest = .ok value) ↔ Meets (.integer least greatest) t := by
  simp only [readInteger_eq_ok]
  constructor
  · rintro ⟨i, ⟨spelling, rfl⟩, hleast, hgreatest⟩
    exact .integer hleast hgreatest
  · intro h
    cases h with
    | integer hleast hgreatest => exact ⟨_, ⟨_, rfl⟩, hleast, hgreatest⟩

theorem answers_integer (least greatest : Int) :
    Answers room (Tree.readInteger least greatest) (.integer least greatest) :=
  fun _ _ ↦ exists_readInteger_iff

theorem exists_readOptional_iff {read : Tree → Except Fault β} :
    (∃ value, t.readOptional read = .ok value) ↔ t = .null ∨ ∃ value, read t = .ok value := by
  simp only [readOptional_eq_ok]
  constructor
  · rintro ⟨_, ⟨hnull, -⟩ | ⟨-, v, hv, -⟩⟩
    · exact .inl hnull
    · exact .inr ⟨v, hv⟩
  · intro hmeets
    by_cases hnull : t = .null
    · exact ⟨none, .inl ⟨hnull, rfl⟩⟩
    · obtain ⟨v, hv⟩ := hmeets.resolve_left hnull
      exact ⟨some v, .inr ⟨hnull, v, hv, rfl⟩⟩

theorem Answers.optional {read : Tree → Except Fault β} (h : Answers room read demand) :
    Answers room (Tree.readOptional read) (.optional demand) := by
  intro t ht
  rw [meets_optional, ← h t ht, exists_readOptional_iff]

/-- Items are read if each of them is. -/
theorem exists_readItems_iff {read : Tree → Except Fault α} (items : List Tree) :
    (∃ values, readItems read items = .ok values) ↔ ∀ t ∈ items, ∃ value, read t = .ok value := by
  induction items with
  | nil => simp [readItems]
  | cons t items ih =>
    rw [List.forall_mem_cons, ← ih]
    simp only [readItems, bind_eq_ok, Except.ok.injEq]
    constructor
    · rintro ⟨_, value, hvalue, later, hlater, -⟩
      exact ⟨⟨value, hvalue⟩, later, hlater⟩
    · rintro ⟨⟨value, hvalue⟩, later, hlater⟩
      exact ⟨_, value, hvalue, later, hlater, rfl⟩

/-- A list is read if each of its items is. -/
theorem Answers.list {read : Nat → Tree → Except Fault β}
    (h : ∀ inner, room = inner + 1 → Answers inner (read inner) demand) :
    Answers room (Tree.readList room read) (.list demand) := by
  intro t ht
  cases t with
  | array spelling items ending =>
    obtain ⟨inner, rfl, rfl, hsound⟩ := ht.of_array
    have hread :
        (∃ values, (Tree.array spelling items .closed).readList (inner + 1) read = .ok values) ↔
          ∃ values, readItems (read inner) items = .ok values := by
      simp only [Tree.readList, bind_eq_ok, Ending.check, Except.ok.injEq, exists_const, true_and,
        exists_eq_right]
    rw [hread, exists_readItems_iff]
    constructor
    · exact fun hall ↦ .list fun t ht ↦ (h inner rfl t (hsound t ht)).mp (hall t ht)
    · intro hmeets t ht
      cases hmeets with
      | list hall => exact (h inner rfl t (hsound t ht)).mpr (hall t ht)
  | _ =>
    constructor
    · rintro ⟨_, hread⟩
      cases hread
    · intro hmeets
      cases hmeets

/-- A map of any documents is read from every object. -/
theorem answers_map :
    Answers room (Tree.readMap room fun room t ↦ t.toJson room) .map := by
  intro t ht
  cases t with
  | object spelling members ending =>
    refine iff_of_true ?_ (.map spelling members ending)
    obtain ⟨j, hj⟩ := ht
    cases room with
    | zero => cases hj
    | succ inner =>
      obtain ⟨ms, hms, hj⟩ := bind_eq_ok.mp hj
      obtain ⟨_, hending, -⟩ := bind_eq_ok.mp hj
      rw [← readValues_eq_membersToJson] at hms
      exact ⟨_, bind_eq_ok.mpr ⟨ms, hms, bind_eq_ok.mpr ⟨_, hending, rfl⟩⟩⟩
  | _ => exact iff_of_false nofun nofun

theorem answers_shard : Answers room (readShard room) .anything := by
  rintro t ⟨j, hj⟩
  refine iff_of_true ?_ (.anything t)
  unfold readShard
  rw [hj]
  cases j <;> exact ⟨_, rfl⟩

theorem answers_oneOrMany :
    Answers room (readOneOrMany room) (.optional (.either .text (.list .text))) := by
  intro t ht
  obtain ⟨j, hj⟩ := id ht
  obtain ⟨hnull, htext⟩ := null_or_text_of_toJson hj
  have hlist : Answers room (Tree.readList room fun _ ↦ Tree.readText) (.list .text) :=
    Answers.list fun _ _ ↦ answers_text
  rw [meets_optional, meets_either, ← hnull, ← htext, ← hlist t ht]
  unfold readOneOrMany
  rw [hj]
  cases j <;> simp [bind_eq_ok]

/-- A text is read, and any other tree as the cause that it is. -/
theorem Answers.textOr {readCause : Tree → Except Fault ErrorCause}
    (h : Answers room readCause (.record .cause)) :
    Answers room (readTextOr readCause room) (.either .text (.record .cause)) := by
  intro t ht
  obtain ⟨j, hj⟩ := id ht
  rw [meets_either, ← h t ht, ← (null_or_text_of_toJson hj).2]
  unfold readTextOr
  rw [hj]
  cases j <;> simp [bind_eq_ok]

/-! ### Records -/

/-- A slot goes by the name of a place and answers what is demanded there. -/
structure Suits (room : Nat) (isComplete : Bool) (slot : Slot α) (place : String × Demand) :
    Prop where
  name_eq : slot.name = place.1
  answers : Answers room slot.read place.2
  missing : if isComplete then slot.missing = .required else ∃ value, slot.missing = .always value

/-- What two lists have at one place is related if the lists are related place by place. -/
theorem exists_getElem?_of_forall₂ {R : α → β → Prop} {xs : List α} {ys : List β}
    (h : List.Forall₂ R xs ys) (i : ℕ) :
    (∀ x, xs[i]? = some x → ∃ y, ys[i]? = some y ∧ R x y) ∧
      ∀ y, ys[i]? = some y → ∃ x, xs[i]? = some x ∧ R x y := by
  induction h generalizing i with
  | nil => exact ⟨nofun, nofun⟩
  | cons hR _ ih =>
    cases i with
    | zero => simp [hR]
    | succ i => simpa using ih i

theorem exists_mem_of_forall₂ {R : α → β → Prop} {xs : List α} {ys : List β}
    (h : List.Forall₂ R xs ys) :
    (∀ x ∈ xs, ∃ y ∈ ys, R x y) ∧ ∀ y ∈ ys, ∃ x ∈ xs, R x y := by
  constructor
  · intro x hx
    obtain ⟨i, hi⟩ := List.mem_iff_getElem?.mp hx
    obtain ⟨y, hy, hR⟩ := (exists_getElem?_of_forall₂ h i).1 x hi
    exact ⟨y, List.mem_iff_getElem?.mpr ⟨i, hy⟩, hR⟩
  · intro y hy
    obtain ⟨i, hi⟩ := List.mem_iff_getElem?.mp hy
    obtain ⟨x, hx, hR⟩ := (exists_getElem?_of_forall₂ h i).2 y hi
    exact ⟨x, List.mem_iff_getElem?.mpr ⟨i, hx⟩, hR⟩

section Record

variable {kind : RecordKind} {slots : List (Slot α)} {spelling : List Text.Glyph}
  {members : List (Quoted × Tree)} {items : List Tree} {ending : Ending}

theorem Suits.required_iff {slot : Slot α} {place : String × Demand} {isComplete : Bool}
    (h : Suits room isComplete slot place) : slot.missing = .required ↔ isComplete = true := by
  have hmissing := h.missing
  cases isComplete with
  | true => exact iff_of_true hmissing rfl
  | false =>
    obtain ⟨value, hvalue⟩ := hmissing
    exact iff_of_false (by rw [hvalue]; exact nofun) nofun

/-- Members fit the slots of a record, and none is missing that has to be there, if the object meets
the demand. -/
theorem membersFit_iff (hsuits : List.Forall₂ (Suits room kind.isComplete) slots kind.places)
    (hsound : ∀ m ∈ members, (∃ name, m.1.content = .ok name) ∧ m.2.Sound room) :
    (MembersFit room slots kind.keepsRest members ∧
      ∀ slot ∈ slots, slot.missing = .required → ∃ p, Named members slot.name p) ↔
      Meets (.record kind) (.object spelling members ending) := by
  obtain ⟨hplaces, hslots⟩ := exists_mem_of_forall₂ hsuits
  have hvalue {name : String} {p : Tree} (hp : Named members name p) : p.Sound room := by
    obtain ⟨key, hmem, -⟩ := hp
    exact (hsound _ hmem).2
  constructor
  · rintro ⟨hfit, hthere⟩
    refine .members (fun name demand hplace ↦ ?_) (fun name demand hplace p hp ↦ ?_)
      fun hcomplete name demand hplace ↦ ?_
    all_goals
      obtain ⟨slot, hslot, hsuit⟩ := hslots _ hplace
      obtain rfl : slot.name = name := hsuit.name_eq
    · exact hfit.once slot hslot
    · exact (hsuit.answers p (hvalue hp)).mp (hfit.placed slot hslot p hp)
    · exact hthere slot hslot (hsuit.required_iff.mpr hcomplete)
  · intro hmeets
    cases hmeets with
    | members honce hmeets hthere =>
      refine ⟨⟨fun m hm ↦ (hsound m hm).1, fun slot hslot ↦ ?_, fun slot hslot p hp ↦ ?_,
        fun _ _ hp _ ↦ (hvalue hp).leftAlone _⟩, fun slot hslot hrequired ↦ ?_⟩
      all_goals
        obtain ⟨⟨name, demand⟩, hplace, hsuit⟩ := hplaces slot hslot
        obtain rfl : slot.name = name := hsuit.name_eq
      · exact honce _ demand hplace
      · exact (hsuit.answers p (hvalue hp)).mpr (hmeets _ demand hplace p hp)
      · exact hthere (hsuit.required_iff.mp hrequired) _ demand hplace

/-- Items fit the slots of a record if the array meets the demand. -/
theorem itemsFit_iff (hsuits : List.Forall₂ (Suits room kind.isComplete) slots kind.places)
    (hkeeps : kind.keepsRest = false) (hsound : ∀ t ∈ items, t.Sound room) :
    ItemsFit slots items ↔ Meets (.record kind) (.array spelling items ending) := by
  have hlength := hsuits.length_eq
  have hvalue {i : ℕ} {p : Tree} (hp : items[i]? = some p) : p.Sound room :=
    hsound p (List.mem_iff_getElem?.mpr ⟨i, hp⟩)
  constructor
  · intro hfit
    refine .items hkeeps (hlength ▸ hfit.length) (fun i name demand p hplace hp ↦ ?_)
      fun hcomplete ↦ ?_
    · obtain ⟨slot, hslot, hsuit⟩ := (exists_getElem?_of_forall₂ hsuits i).2 _ hplace
      exact (hsuit.answers p (hvalue hp)).mp (hfit.placed i slot p hslot hp)
    · -- the first slot behind the last item would be empty, and none may be
      by_contra hne
      have hshort : items.length < slots.length :=
        lt_of_le_of_ne hfit.length fun heq ↦ hne (heq.trans hlength)
      have hslot := List.getElem?_eq_getElem hshort
      obtain ⟨value, hvalue⟩ := hfit.missing _ _ hslot (List.getElem?_eq_none (Nat.le_refl _))
      obtain ⟨place, -, hsuit⟩ := (exists_getElem?_of_forall₂ hsuits _).1 _ hslot
      have hrequired := hsuit.required_iff.mpr hcomplete
      rw [hvalue] at hrequired
      cases hrequired
  · intro hmeets
    cases hmeets with
    | items _ hshort hmeets hthere =>
      refine ⟨hlength ▸ hshort, fun i slot p hslot hp ↦ ?_, fun i slot hslot hnone ↦ ?_⟩
      all_goals obtain ⟨⟨name, demand⟩, hplace, hsuit⟩ :=
        (exists_getElem?_of_forall₂ hsuits i).1 slot hslot
      · exact (hsuit.answers p (hvalue hp)).mpr (hmeets i name demand p hplace hp)
      · have hincomplete : kind.isComplete = false := by
          by_contra hcomplete
          have hall := hthere (by simpa using hcomplete)
          have hi : i < items.length := by
            rw [hall]
            exact (List.getElem?_eq_some_iff.mp hplace).1
          rw [List.getElem?_eq_getElem hi] at hnone
          cases hnone
        have hmissing := hsuit.missing
        rwa [hincomplete] at hmissing

/-- A record whose slots suit the places of its kind is read from the sound trees that meet its
demand. -/
theorem answers_record {slots : Nat → List (Slot α)} (hapart : ∀ room, Apart (slots room))
    (hsuits : ∀ inner, room = inner + 1 →
      List.Forall₂ (Suits inner kind.isComplete) (slots inner) kind.places) :
    Answers room (readRecord room slots kind.keepsRest) (.record kind) := by
  intro t ht
  cases t with
  | object spelling members ending =>
    obtain ⟨inner, rfl, rfl, hsound⟩ := ht.of_object
    rw [exists_readRecord_object_iff hapart, ← membersFit_iff (hsuits inner rfl) hsound]
    simp only [Nat.add_right_cancel_iff, exists_eq_left', true_and]
  | array spelling items ending =>
    obtain ⟨inner, rfl, rfl, hsound⟩ := ht.of_array
    cases hkeeps : kind.keepsRest with
    | true =>
      refine iff_of_false nofun fun hmeets ↦ ?_
      cases hmeets with
      | items hnot =>
        rw [hkeeps] at hnot
        cases hnot
    | false =>
      rw [exists_readRecord_array_iff, ← itemsFit_iff (hsuits inner rfl) hkeeps hsound]
      simp only [Nat.add_right_cancel_iff, exists_eq_left']
  | _ => exact iff_of_false nofun nofun

end Record

/-! ### Causes -/

theorem suits_change {read : Tree → Except Fault β} (h : Answers room read demand)
    (set : β → σ → σ) : Suits room false (change name read set) (name, demand) :=
  ⟨rfl, h.map set, id, rfl⟩

theorem answers_position : Answers room (readPosition room) (.record .position) := by
  have hinteger (room : Nat) (name : String) : Suits room true (integerSlot name)
      (name, .integer leastSigned greatestSigned) :=
    ⟨rfl, answers_integer _ _, rfl⟩
  have hsuits (inner : Nat) : List.Forall₂ (Suits inner RecordKind.position.isComplete)
      positionSlots RecordKind.position.places :=
    .cons (hinteger inner _) (.cons (hinteger inner _) (.cons (hinteger inner _) .nil))
  have hrecord : Answers room
      (readRecord room (fun _ ↦ positionSlots) RecordKind.position.keepsRest) (.record .position) :=
    answers_record (fun _ ↦ apart_positionSlots) fun inner _ ↦ hsuits inner
  intro t ht
  rw [← hrecord t ht]
  constructor
  · rintro ⟨p, h⟩
    obtain ⟨read, hread, -⟩ := bind_eq_ok.mp h
    exact ⟨read, hread⟩
  · rintro ⟨⟨values, rest⟩, hread⟩
    obtain ⟨-, hlength, -⟩ := gives_of_readRecord hread
    match values, hlength with
    | [offset, start, stop], _ => exact ⟨_, bind_eq_ok.mpr ⟨_, hread, rfl⟩⟩

theorem answers_failure {readReason : Nat → Tree → Except Fault ErrorCause}
    (h : ∀ inner, room = inner + 1 →
      Answers inner (readReason inner) (.either .text (.record .cause))) :
    Answers room (readFailure readReason room) (.record .failure) := by
  have hsuits (inner : Nat) (hroom : room = inner + 1) :
      List.Forall₂ (Suits inner false) (shardSlots readReason inner) RecordKind.failure.places :=
    .cons (suits_change answers_text.optional _) <|
    .cons (suits_change answers_text.optional _) <|
    .cons (suits_change answers_shard _) <|
    .cons (suits_change answers_text.optional _) <|
    .cons (suits_change (h inner hroom) _) .nil
  intro t ht
  rw [← answers_record (apart_shardSlots _) hsuits t ht]
  constructor
  · rintro ⟨f, h⟩
    obtain ⟨read, hread, -⟩ := bind_eq_ok.mp h
    exact ⟨read, hread⟩
  · rintro ⟨read, hread⟩
    exact ⟨_, bind_eq_ok.mpr ⟨read, hread, rfl⟩⟩

/-- A sound tree is read as a cause exactly if it meets the demands of one, by induction on the
causes that may stand one inside the other. There are always enough of them, since every cause
stands in a container of its own. -/
theorem answers_readUpTo {fuel : Nat} (h : room < fuel) :
    Answers room (readUpTo fuel room) (.record .cause) := by
  induction fuel generalizing room with
  | zero => exact absurd h (Nat.not_lt_zero _)
  | succ fuel ih =>
    have hlist (inner : Nat) (hinner : inner < fuel) :
        Answers inner (Tree.readList inner (readUpTo fuel)) (.list (.record .cause)) :=
      .list fun deeper hdeeper ↦ ih (by omega)
    have hfailures (inner : Nat) (hinner : inner < fuel) :
        Answers inner (Tree.readList inner (failureUpTo fuel)) (.list (.record .failure)) :=
      .list fun deeper hdeeper ↦ answers_failure fun deepest hdeepest ↦
        Answers.textOr (ih (by omega))
    have hsuits (inner : Nat) (hroom : room = inner + 1) :
        List.Forall₂ (Suits inner false) (slots (readUpTo fuel) (failureUpTo fuel) inner)
          RecordKind.cause.places :=
      have hinner : inner < fuel := by omega
      .cons (suits_change answers_text.optional _) <|
      .cons (suits_change answers_text.optional _) <|
      .cons (suits_change answers_text.optional _) <|
      .cons (suits_change (ih hinner).optional _) <|
      .cons (suits_change (hlist inner hinner) _) <|
      .cons (suits_change (hfailures inner hinner) _) <|
      .cons (suits_change answers_text.optional _) <|
      .cons (suits_change answers_text.optional _) <|
      .cons (suits_change answers_shard _) <|
      .cons (suits_change answers_oneOrMany _) <|
      .cons (suits_change answers_text.optional _) <|
      .cons (suits_change answers_text.optional _) <|
      .cons (suits_change (.list fun _ _ ↦ answers_text) _) <|
      .cons (suits_change answers_text.optional _) <|
      .cons (suits_change answers_position.optional _) <|
      .cons (suits_change answers_text.optional _) <|
      .cons (suits_change answers_flag.optional _) <|
      .cons (suits_change answers_map _) .nil
    intro t ht
    rw [← answers_record (apart_slots _ _) hsuits t ht]
    constructor
    · rintro ⟨c, h⟩
      obtain ⟨read, hread, -⟩ := bind_eq_ok.mp h
      exact ⟨read, hread⟩
    · rintro ⟨read, hread⟩
      exact ⟨_, bind_eq_ok.mpr ⟨read, hread, rfl⟩⟩

/-- A tree is read as a text or a cause exactly if it is sound and meets that demand. -/
theorem exists_readCauseOrText_iff : (∃ c, readCauseOrText room t = .ok c) ↔
    t.Sound room ∧ Meets (.either .text (.record .cause)) t := by
  have hanswers : Answers room (readCauseOrText room) (.either .text (.record .cause)) :=
    (answers_readUpTo (Nat.lt_succ_self room)).textOr
  constructor
  · rintro ⟨c, h⟩
    obtain ⟨j, hj, -⟩ := bind_eq_ok.mp h
    exact ⟨⟨j, hj⟩, (hanswers t ⟨j, hj⟩).mp ⟨c, h⟩⟩
  · rintro ⟨hsound, hmeets⟩
    exact (hanswers t hsound).mpr hmeets

end SearchClient.ErrorCause

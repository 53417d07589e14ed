import SearchClient.Proofs.Json.Places

/-!
# When records are read

A record is read from an object exactly if each of its members may stand there (`MembersFit`) and
none that has to be there is missing (`exists_readRecord_object_iff`), and from an array exactly if
each item is read at its place (`exists_readRecord_array_iff`). A tree whose document can be read is
sound all through (`Tree.Sound`): so are its parts, and one may pass over it.
-/

set_option autoImplicit false
set_option relaxedAutoImplicit false

namespace SearchClient.Json

open Text

variable {α : Type} {room : Nat} {slot : Slot α} {slots : List (Slot α)} {keepsRest : Bool}
  {seen : List String} {key : Quoted} {name : String} {t : Tree} {spelling : List Glyph}
  {members : List (Quoted × Tree)} {items : List Tree} {ending : Ending}

/-! ### Sound trees -/

/-- The document of a tree can be read. -/
def Tree.Sound (room : Nat) (t : Tree) : Prop := ∃ j, t.toJson room = .ok j

theorem check_eq_ok : ending.check = .ok () ↔ ending = .closed := by
  cases ending <;> simp [Ending.check]

theorem sound_of_mem_items (h : ∃ js, itemsToJson room items = .ok js) (ht : t ∈ items) :
    t.Sound room := by
  induction items with
  | nil => cases ht
  | cons first items ih =>
    obtain ⟨js, hjs⟩ := h
    obtain ⟨j, hj, hjs⟩ := bind_eq_ok.mp hjs
    obtain ⟨js, hjs, -⟩ := bind_eq_ok.mp hjs
    obtain rfl | ht := List.mem_cons.mp ht
    · exact ⟨j, hj⟩
    · exact ih ⟨js, hjs⟩ ht

theorem sound_of_mem_members {m : Quoted × Tree} (h : ∃ js, membersToJson room members = .ok js)
    (hm : m ∈ members) : (∃ name, m.1.content = .ok name) ∧ m.2.Sound room := by
  induction members with
  | nil => cases hm
  | cons first members ih =>
    obtain ⟨js, hjs⟩ := h
    obtain ⟨name, hname, hjs⟩ := bind_eq_ok.mp hjs
    obtain ⟨j, hj, hjs⟩ := bind_eq_ok.mp hjs
    obtain ⟨js, hjs, -⟩ := bind_eq_ok.mp hjs
    obtain rfl | hm := List.mem_cons.mp hm
    · exact ⟨⟨name, hname⟩, j, hj⟩
    · exact ih ⟨js, hjs⟩ hm

/-- The items of a sound array are sound. -/
theorem Tree.Sound.of_array (h : (Tree.array spelling items ending).Sound room) :
    ∃ inner, room = inner + 1 ∧ ending = .closed ∧ ∀ t ∈ items, t.Sound inner := by
  obtain ⟨j, hj⟩ := h
  cases room with
  | zero => cases hj
  | succ inner =>
    obtain ⟨js, hjs, hj⟩ := bind_eq_ok.mp hj
    obtain ⟨_, hending, -⟩ := bind_eq_ok.mp hj
    exact ⟨inner, rfl, check_eq_ok.mp hending, fun _ ht ↦ sound_of_mem_items ⟨js, hjs⟩ ht⟩

/-- The members of a sound object have names, and their values are sound. -/
theorem Tree.Sound.of_object (h : (Tree.object spelling members ending).Sound room) :
    ∃ inner, room = inner + 1 ∧ ending = .closed ∧
      ∀ m ∈ members, (∃ name, m.1.content = .ok name) ∧ m.2.Sound inner := by
  obtain ⟨j, hj⟩ := h
  cases room with
  | zero => cases hj
  | succ inner =>
    obtain ⟨js, hjs, hj⟩ := bind_eq_ok.mp hj
    obtain ⟨_, hending, -⟩ := bind_eq_ok.mp hj
    exact ⟨inner, rfl, check_eq_ok.mp hending, fun _ hm ↦ sound_of_mem_members ⟨js, hjs⟩ hm⟩

mutual

/-- One who can read the document of a tree can pass over it. -/
theorem skip_of_toJson : (t : Tree) → {room : Nat} → {j : Json} → t.toJson room = .ok j →
    t.skip = .ok ()
  | .null, _, _, _ | .bool _, _, _, _ | .number .., _, _, _ | .string _, _, _, _ => rfl
  | .broken _, _, _, h => nomatch h
  | .array _ items ending, room + 1, _, h => by
    obtain ⟨js, hjs, h⟩ := bind_eq_ok.mp h
    obtain ⟨_, hending, -⟩ := bind_eq_ok.mp h
    obtain rfl := check_eq_ok.mp hending
    exact bind_eq_ok.mpr ⟨(), skipItems_of_itemsToJson items hjs, rfl⟩
  | .object _ members ending, room + 1, _, h => by
    obtain ⟨js, hjs, h⟩ := bind_eq_ok.mp h
    obtain ⟨_, hending, -⟩ := bind_eq_ok.mp h
    obtain rfl := check_eq_ok.mp hending
    exact bind_eq_ok.mpr ⟨(), skipMembers_of_membersToJson members hjs, rfl⟩

theorem skipItems_of_itemsToJson : (items : List Tree) → {room : Nat} → {js : List Json} →
    itemsToJson room items = .ok js → skipItems items = .ok ()
  | [], _, _, _ => rfl
  | t :: items, _, _, h => by
    obtain ⟨j, hj, h⟩ := bind_eq_ok.mp h
    obtain ⟨js, hjs, -⟩ := bind_eq_ok.mp h
    exact bind_eq_ok.mpr ⟨(), skip_of_toJson t hj, skipItems_of_itemsToJson items hjs⟩

theorem skipMembers_of_membersToJson : (members : List (Quoted × Tree)) → {room : Nat} →
    {js : List (String × Json)} → membersToJson room members = .ok js →
      skipMembers members = .ok ()
  | [], _, _, _ => rfl
  | (key, t) :: members, _, _, h => by
    obtain ⟨name, -, h⟩ := bind_eq_ok.mp h
    obtain ⟨j, hj, h⟩ := bind_eq_ok.mp h
    obtain ⟨js, hjs, -⟩ := bind_eq_ok.mp h
    exact bind_eq_ok.mpr ⟨(), skip_of_toJson t hj, skipMembers_of_membersToJson members hjs⟩

end

/-! ### Members -/

/-- No two members have the name. -/
def OnlyOnce (members : List (Quoted × Tree)) (name : String) : Prop :=
  members.Pairwise fun m m' ↦ m.1.content = .ok name → m'.1.content ≠ .ok name

/-- A value that no slot takes is kept or passed over. -/
def LeftAlone (room : Nat) (keepsRest : Bool) (t : Tree) : Prop :=
  if keepsRest then t.Sound room else t.skip = .ok ()

theorem Tree.Sound.leftAlone (h : t.Sound room) (keepsRest : Bool) :
    LeftAlone room keepsRest t := by
  unfold LeftAlone
  split
  · exact h
  · obtain ⟨j, hj⟩ := h
    exact skip_of_toJson t hj

/-- Each member of an object may stand there. -/
structure MembersFit (room : Nat) (slots : List (Slot α)) (keepsRest : Bool)
    (members : List (Quoted × Tree)) : Prop where
  named : ∀ m ∈ members, ∃ name, m.1.content = .ok name
  once : ∀ slot ∈ slots, OnlyOnce members slot.name
  placed : ∀ slot ∈ slots, ∀ p, Named members slot.name p → ∃ value, slot.read p = .ok value
  others : ∀ name p, Named members name p → (∀ slot ∈ slots, slot.name ≠ name) →
    LeftAlone room keepsRest p

/-- The first member may stand in front of others if its name is new and its value is read by the
slot of that name, or left alone where there is none. -/
theorem membersFit_cons (hkey : key.content = .ok name) :
    MembersFit room slots keepsRest ((key, t) :: members) ↔
      (∀ slot ∈ slots, slot.name = name → (∃ value, slot.read t = .ok value) ∧
        ∀ p, ¬ Named members name p) ∧
      ((∀ slot ∈ slots, slot.name ≠ name) → LeftAlone room keepsRest t) ∧
      MembersFit room slots keepsRest members := by
  have hfirst : Named ((key, t) :: members) name t := named_cons.mpr (.inl ⟨hkey, rfl⟩)
  constructor
  · intro h
    refine ⟨?_, fun hnone ↦ h.others name t hfirst hnone, ?_, ?_, ?_, ?_⟩
    · rintro slot hslot rfl
      refine ⟨h.placed slot hslot t hfirst, ?_⟩
      rintro p ⟨key', hmem, hkey'⟩
      exact (List.pairwise_cons.mp (h.once slot hslot)).1 _ hmem hkey hkey'
    · exact fun m hm ↦ h.named m (List.mem_cons_of_mem _ hm)
    · exact fun slot hslot ↦ (List.pairwise_cons.mp (h.once slot hslot)).2
    · exact fun slot hslot p hp ↦ h.placed slot hslot p (named_cons.mpr (.inr hp))
    · exact fun name p hp ↦ h.others name p (named_cons.mpr (.inr hp))
  · rintro ⟨hplaced, hother, h⟩
    refine ⟨List.forall_mem_cons.mpr ⟨⟨name, hkey⟩, h.named⟩, fun slot hslot ↦ ?_,
      fun slot hslot p hp ↦ ?_, fun name' p hp hnone ↦ ?_⟩
    · refine List.pairwise_cons.mpr ⟨fun m hm hsame hagain ↦ ?_, h.once slot hslot⟩
      obtain rfl : name = slot.name := Except.ok.inj (hkey.symm.trans hsame)
      exact (hplaced slot hslot rfl).2 m.2 ⟨m.1, hm, hagain⟩
    · obtain ⟨hsame, rfl⟩ | hp := named_cons.mp hp
      · exact (hplaced slot hslot (Except.ok.inj (hsame.symm.trans hkey))).1
      · exact h.placed slot hslot p hp
    · obtain ⟨hsame, rfl⟩ | hp := named_cons.mp hp
      · obtain rfl : name' = name := Except.ok.inj (hsame.symm.trans hkey)
        exact hother hnone
      · exact h.others name' p hp hnone

/-- The members of an object are read exactly if each of them may stand there and no slot is filled
that has been filled before. -/
theorem exists_readMembers_iff (hslots : Apart slots) :
    (∃ found, readMembers room slots keepsRest seen members = .ok found) ↔
      MembersFit room slots keepsRest members ∧
        ∀ slot ∈ slots, slot.name ∈ seen → ∀ p, ¬ Named members slot.name p := by
  induction members generalizing seen with
  | nil =>
    have hnone (name : String) (p : Tree) : ¬ Named [] name p := by
      rintro ⟨key, hmem, -⟩
      cases hmem
    refine iff_of_true ⟨_, rfl⟩ ⟨⟨nofun, fun _ _ ↦ .nil, ?_, ?_⟩, ?_⟩
    · exact fun _ _ p hp ↦ absurd hp (hnone _ p)
    · exact fun _ p hp ↦ absurd hp (hnone _ p)
    · exact fun _ _ _ p ↦ hnone _ p
  | cons first members ih =>
    obtain ⟨key, t⟩ := first
    constructor
    · rintro ⟨found, h⟩
      -- a member without a slot is left alone, whether it is kept or not
      have hside {name : String} {later : Members α} (hkey : key.content = .ok name)
          (hfind : slots.find? (·.hasName name) = none) (halone : LeftAlone room keepsRest t)
          (hlater : readMembers room slots keepsRest seen members = .ok later) :
          MembersFit room slots keepsRest ((key, t) :: members) ∧
            ∀ slot ∈ slots, slot.name ∈ seen → ∀ p, ¬ Named ((key, t) :: members) slot.name p := by
        have hnone := hslots.find?_eq_none.mp hfind
        obtain ⟨hfit, hunseen⟩ := ih.mp ⟨later, hlater⟩
        refine ⟨(membersFit_cons hkey).mpr ⟨fun other hother hname ↦ ?_, fun _ ↦ halone, hfit⟩, ?_⟩
        · exact absurd hname (hnone other hother)
        · intro other hother hseen p hp
          obtain ⟨hsame, -⟩ | hp := named_cons.mp hp
          · exact hnone other hother (Except.ok.inj (hsame.symm.trans hkey))
          · exact hunseen other hother hseen p hp
      cases readMembers_cons.mp h with
      | @placed name slot value later hkey hfind hfresh hvalue hlater =>
        obtain ⟨hslot, rfl⟩ := hslots.find?_eq_some.mp hfind
        obtain ⟨hfit, hunseen⟩ := ih.mp ⟨later, hlater⟩
        refine ⟨(membersFit_cons hkey).mpr ⟨fun other hother hname ↦ ?_, fun hnone ↦ ?_, hfit⟩, ?_⟩
        · obtain rfl := hslots.eq_of_name_eq hother hslot hname
          exact ⟨⟨value, hvalue⟩, hunseen other hslot List.mem_cons_self⟩
        · exact absurd rfl (hnone slot hslot)
        · intro other hother hseen p hp
          obtain ⟨hsame, -⟩ | hp := named_cons.mp hp
          · exact hfresh (Except.ok.inj (hkey.symm.trans hsame) ▸ hseen)
          · exact hunseen other hother (List.mem_cons_of_mem _ hseen) p hp
      | kept hkey hfind hkeeps hvalue hlater =>
        exact hside hkey hfind (by rw [LeftAlone, if_pos hkeeps]; exact ⟨_, hvalue⟩) hlater
      | passed hkey hfind hkeeps hskip hlater =>
        exact hside hkey hfind (by rwa [LeftAlone, hkeeps]) hlater
    · rintro ⟨hfit, hunseen⟩
      obtain ⟨name, hkey⟩ := hfit.named _ List.mem_cons_self
      obtain ⟨hplaced, hother, hlater⟩ := (membersFit_cons hkey).mp hfit
      have hunseen' (slot : Slot α) (hslot : slot ∈ slots) (hseen : slot.name ∈ seen) (p : Tree) :
          ¬ Named members slot.name p :=
        fun hp ↦ hunseen slot hslot hseen p (named_cons.mpr (.inr hp))
      cases hfind : slots.find? (·.hasName name) with
      | some slot =>
        obtain ⟨hslot, rfl⟩ := hslots.find?_eq_some.mp hfind
        obtain ⟨⟨value, hvalue⟩, hnew⟩ := hplaced slot hslot rfl
        have hfresh : slot.name ∉ seen := fun hseen ↦
          hunseen slot hslot hseen t (named_cons.mpr (.inl ⟨hkey, rfl⟩))
        have hagain (other : Slot α) (hother : other ∈ slots)
            (hseen : other.name ∈ slot.name :: seen) (p : Tree) : ¬ Named members other.name p := by
          obtain hsame | hseen := List.mem_cons.mp hseen
          · exact hsame ▸ hnew p
          · exact hunseen' other hother hseen p
        obtain ⟨later, hread⟩ := ih.mpr ⟨hlater, hagain⟩
        exact ⟨_, readMembers_cons.mpr (.placed hkey hfind hfresh hvalue hread)⟩
      | none =>
        obtain ⟨later, hread⟩ := ih.mpr ⟨hlater, hunseen'⟩
        have halone := hother (hslots.find?_eq_none.mp hfind)
        cases keepsRest with
        | true =>
          obtain ⟨j, hj⟩ := halone
          exact ⟨_, readMembers_cons.mpr (.kept hkey hfind rfl hj hread)⟩
        | false => exact ⟨_, readMembers_cons.mpr (.passed hkey hfind rfl halone hread)⟩

/-! ### Slots -/

variable {entries : List (String × α)}

/-- The slots of an object are filled exactly if none is empty that has to have a value. -/
theorem exists_fillSlots_iff (h : ∀ slot ∈ slots, Sought members entries slot) :
    (∃ values, fillSlots entries slots = .ok values) ↔
      ∀ slot ∈ slots, slot.missing = .required → ∃ p, Named members slot.name p := by
  induction slots with
  | nil => exact iff_of_true ⟨[], rfl⟩ nofun
  | cons slot slots ih =>
    obtain ⟨hslot, hslots⟩ := List.forall_mem_cons.mp h
    have hvalue : (∃ value, Fills entries slot value) ↔
        (slot.missing = .required → ∃ p, Named members slot.name p) := by
      by_cases hnamed : ∃ p, Named members slot.name p
      · obtain ⟨p, hp⟩ := hnamed
        obtain ⟨value, -, hfind⟩ := hslot.found p hp
        exact iff_of_true ⟨value, .inl hfind⟩ fun _ ↦ ⟨p, hp⟩
      · have hnone := hslot.absent (not_exists.mp hnamed)
        cases hmissing : slot.missing with
        | required => simp [Fills, hnone, hmissing, hnamed]
        | inObject value | always value => simp [Fills, hnone, hmissing]
    rw [List.forall_mem_cons, ← hvalue, ← ih hslots]
    constructor
    · rintro ⟨values, hvalues⟩
      obtain ⟨value, later, hvalue, hlater, -⟩ := fillSlots_cons.mp hvalues
      exact ⟨⟨value, hvalue⟩, later, hlater⟩
    · rintro ⟨⟨value, hvalue⟩, later, hlater⟩
      exact ⟨_, fillSlots_cons.mpr ⟨value, later, hvalue, hlater, rfl⟩⟩

/-- Each item of an array is read at its place, and what is missing behind them may be missing. -/
structure ItemsFit (slots : List (Slot α)) (items : List Tree) : Prop where
  length : items.length ≤ slots.length
  placed : ∀ (i : ℕ) slot p, slots[i]? = some slot → items[i]? = some p →
    ∃ value, slot.read p = .ok value
  missing : ∀ (i : ℕ) slot, slots[i]? = some slot → items[i]? = none →
    ∃ value, slot.missing = .always value

theorem itemsFit_nil : ItemsFit ([] : List (Slot α)) items ↔ items = [] := by
  constructor
  · exact fun h ↦ List.length_eq_zero_iff.mp (Nat.le_zero.mp h.length)
  · rintro rfl
    exact ⟨Nat.le_refl _, nofun, nofun⟩

theorem itemsFit_cons_nil : ItemsFit (slot :: slots) [] ↔
    (∃ value, slot.missing = .always value) ∧ ItemsFit slots [] := by
  constructor
  · intro h
    exact ⟨h.missing 0 slot rfl rfl, Nat.zero_le _, nofun, fun i slot hslot _ ↦
      h.missing (i + 1) slot hslot rfl⟩
  · rintro ⟨hvalue, h⟩
    refine ⟨Nat.zero_le _, nofun, fun i slot hslot _ ↦ ?_⟩
    cases i with
    | zero =>
      obtain rfl := Option.some.inj hslot
      exact hvalue
    | succ i => exact h.missing i slot hslot rfl

theorem itemsFit_cons_cons : ItemsFit (slot :: slots) (t :: items) ↔
    (∃ value, slot.read t = .ok value) ∧ ItemsFit slots items := by
  constructor
  · intro h
    exact ⟨h.placed 0 slot t rfl rfl, Nat.le_of_succ_le_succ h.length,
      fun i slot p hslot hp ↦ h.placed (i + 1) slot p hslot hp,
      fun i slot hslot hnone ↦ h.missing (i + 1) slot hslot hnone⟩
  · rintro ⟨hvalue, h⟩
    refine ⟨Nat.succ_le_succ h.length, fun i slot p hslot hp ↦ ?_, fun i slot hslot hnone ↦ ?_⟩
    · cases i with
      | zero =>
        obtain rfl := Option.some.inj hslot
        obtain rfl := Option.some.inj hp
        exact hvalue
      | succ i => exact h.placed i slot p hslot hp
    · cases i with
      | zero => cases hnone
      | succ i => exact h.missing i slot hslot hnone

theorem exists_fillItems_iff :
    (∃ values, fillItems .closed slots items = .ok values) ↔ ItemsFit slots items := by
  induction slots generalizing items with
  | nil =>
    rw [itemsFit_nil]
    cases items with
    | nil => exact iff_of_true ⟨[], rfl⟩ rfl
    | cons => exact iff_of_false nofun nofun
  | cons slot slots ih =>
    cases items with
    | nil =>
      rw [itemsFit_cons_nil, ← ih]
      cases hmissing : slot.missing with
      | always value => simp [fillItems, hmissing, Ending.check, bind_eq_ok]
      | required | inObject => simp [fillItems, hmissing, Ending.check, bind_eq_ok]
    | cons t items =>
      rw [itemsFit_cons_cons, ← ih]
      simp only [fillItems, bind_eq_ok, Except.ok.injEq]
      constructor
      · rintro ⟨_, value, hvalue, later, hlater, -⟩
        exact ⟨⟨value, hvalue⟩, later, hlater⟩
      · rintro ⟨⟨value, hvalue⟩, later, hlater⟩
        exact ⟨_, value, hvalue, later, hlater, rfl⟩

/-! ### Records -/

/-- A record is read from an object exactly if its members fit and none is missing that has to be
there. -/
theorem exists_readRecord_object_iff {slots : Nat → List (Slot α)}
    (hslots : ∀ room, Apart (slots room)) :
    (∃ read, readRecord room slots keepsRest (.object spelling members ending) = .ok read) ↔
      ∃ inner, room = inner + 1 ∧ ending = .closed ∧
        MembersFit inner (slots inner) keepsRest members ∧
        ∀ slot ∈ slots inner, slot.missing = .required → ∃ p, Named members slot.name p := by
  have hsought {inner : Nat} {found : Members α}
      (hfound : readMembers inner (slots inner) keepsRest [] members = .ok found) :
      ∀ slot ∈ slots inner, Sought members found.values slot :=
    fun _ hslot ↦ sought_of_readMembers (hslots inner) hfound hslot List.not_mem_nil
  constructor
  · rintro ⟨read, h⟩
    cases room with
    | zero => cases h
    | succ inner =>
      obtain ⟨found, hfound, h⟩ := bind_eq_ok.mp h
      obtain ⟨_, hending, h⟩ := bind_eq_ok.mp h
      obtain ⟨values, hvalues, -⟩ := bind_eq_ok.mp h
      exact ⟨inner, rfl, check_eq_ok.mp hending,
        ((exists_readMembers_iff (hslots inner)).mp ⟨found, hfound⟩).1,
        (exists_fillSlots_iff (hsought hfound)).mp ⟨values, hvalues⟩⟩
  · rintro ⟨inner, rfl, rfl, hfit, hthere⟩
    obtain ⟨found, hfound⟩ := (exists_readMembers_iff (hslots inner)).mpr
      ⟨hfit, fun _ _ hseen ↦ absurd hseen List.not_mem_nil⟩
    obtain ⟨values, hvalues⟩ := (exists_fillSlots_iff (hsought hfound)).mpr hthere
    exact ⟨_, readRecord_object.mpr ⟨inner, found, rfl, hfound, hvalues, rfl⟩⟩

/-- A record that keeps no other members is read from an array exactly if its items fit. -/
theorem exists_readRecord_array_iff {slots : Nat → List (Slot α)} :
    (∃ read, readRecord room slots false (.array spelling items .closed) = .ok read) ↔
      ∃ inner, room = inner + 1 ∧ ItemsFit (slots inner) items := by
  cases room with
  | zero => exact iff_of_false nofun nofun
  | succ inner =>
    simp only [readRecord, Bool.false_eq_true, if_false, Nat.add_right_cancel_iff, exists_eq_left',
      ← exists_fillItems_iff]
    constructor
    · rintro ⟨_, h⟩
      obtain ⟨values, hvalues, -⟩ := bind_eq_ok.mp h
      exact ⟨values, hvalues⟩
    · rintro ⟨values, hvalues⟩
      exact ⟨_, bind_eq_ok.mpr ⟨values, hvalues, rfl⟩⟩

end SearchClient.Json

import SearchClient.Proofs.Json.Records
import SearchClient.Proofs.Json.Values
import Mathlib.Data.List.Nodup

/-!
# Places of records

A record has a place for each of its slots. In an object the part of a place is the member of its
name, in an array the item of its number (`Tree.Part`). `placed_of_readRecord` turns a record that
was read into what was read at each place: whatever stands there was read by its slot, and where
nothing stands the slot supplied the value. A name that comes twice is a fault, so there is only one
part of a place in an object too.

What is kept of the other members is told by `mem_rest_of_readMembers`.
-/

set_option autoImplicit false
set_option relaxedAutoImplicit false

namespace SearchClient.Json

open Text

variable {α : Type} {room : Nat} {slot : Slot α} {slots : List (Slot α)} {keepsRest : Bool}
  {name : String}

/-! ### Slots that are told apart -/

/-- Slots that go by one name each, no two of them by the same. -/
structure Apart (slots : List (Slot α)) : Prop where
  nodup : (slots.map Slot.name).Nodup
  single : ∀ slot ∈ slots, slot.aliases = []

namespace Apart

theorem hasName_iff (h : Apart slots) (hslot : slot ∈ slots) :
    slot.hasName name = true ↔ slot.name = name := by
  simp [Slot.hasName, h.single slot hslot]

theorem find?_eq_none (h : Apart slots) :
    slots.find? (·.hasName name) = none ↔ ∀ slot ∈ slots, slot.name ≠ name := by
  rw [List.find?_eq_none]
  exact forall₂_congr fun slot hslot ↦ not_congr (h.hasName_iff hslot)

theorem eq_of_name_eq (h : Apart slots) {other : Slot α} (hslot : slot ∈ slots)
    (hother : other ∈ slots) (hname : slot.name = other.name) : slot = other :=
  List.inj_on_of_nodup_map h.nodup hslot hother hname

theorem find?_eq_some (h : Apart slots) :
    slots.find? (·.hasName name) = some slot ↔ slot ∈ slots ∧ slot.name = name :=
  find?_eq_some_iff_of_nodup h.nodup fun _ hslot ↦ h.hasName_iff hslot

end Apart

/-! ### Members -/

variable {seen : List String} {key : Quoted} {t : Tree} {members : List (Quoted × Tree)}
  {found : Members α}

/-- What becomes of the first of some members: it is read for a slot, it is kept, or it is passed
over. -/
inductive MemberRead (room : Nat) (slots : List (Slot α)) (keepsRest : Bool) (seen : List String)
    (key : Quoted) (t : Tree) (members : List (Quoted × Tree)) : Members α → Prop
  | placed {name : String} {slot : Slot α} {value : α} {later : Members α}
      (hkey : key.content = .ok name) (hslot : slots.find? (·.hasName name) = some slot)
      (hseen : slot.name ∉ seen) (hvalue : slot.read t = .ok value)
      (hlater : readMembers room slots keepsRest (slot.name :: seen) members = .ok later) :
      MemberRead room slots keepsRest seen key t members
        { later with values := (slot.name, value) :: later.values }
  | kept {name : String} {value : Json} {later : Members α} (hkey : key.content = .ok name)
      (hslot : slots.find? (·.hasName name) = none) (hkeeps : keepsRest = true)
      (hvalue : t.toJson room = .ok value)
      (hlater : readMembers room slots keepsRest seen members = .ok later) :
      MemberRead room slots keepsRest seen key t members
        { later with rest := (name, value) :: later.rest }
  | passed {name : String} {later : Members α} (hkey : key.content = .ok name)
      (hslot : slots.find? (·.hasName name) = none) (hkeeps : keepsRest = false)
      (hskip : t.skip = .ok ())
      (hlater : readMembers room slots keepsRest seen members = .ok later) :
      MemberRead room slots keepsRest seen key t members later

theorem readMembers_cons : readMembers room slots keepsRest seen ((key, t) :: members) = .ok found ↔
    MemberRead room slots keepsRest seen key t members found := by
  rw [readMembers, bind_eq_ok]
  constructor
  · rintro ⟨name, hkey, h⟩
    cases hslot : slots.find? (·.hasName name) with
    | some slot =>
      simp only [hslot] at h
      split at h
      · cases h
      · rename_i hseen
        obtain ⟨value, hvalue, h⟩ := bind_eq_ok.mp h
        obtain ⟨later, hlater, h⟩ := bind_eq_ok.mp h
        cases h
        exact .placed hkey hslot (by simpa using hseen) hvalue hlater
    | none =>
      simp only [hslot] at h
      split at h
      · rename_i hkeeps
        obtain ⟨value, hvalue, h⟩ := bind_eq_ok.mp h
        obtain ⟨later, hlater, h⟩ := bind_eq_ok.mp h
        cases h
        exact .kept hkey hslot hkeeps hvalue hlater
      · rename_i hkeeps
        obtain ⟨_, hskip, h⟩ := bind_eq_ok.mp h
        exact .passed hkey hslot (by simpa using hkeeps) hskip h
  · intro h
    cases h with
    | placed hkey hslot hseen hvalue hlater =>
      refine ⟨_, hkey, ?_⟩
      simp [hslot, hseen, hvalue, hlater, bind_eq_ok]
    | kept hkey hslot hkeeps hvalue hlater =>
      refine ⟨_, hkey, ?_⟩
      simp [hslot, hkeeps, hvalue, hkeeps ▸ hlater, bind_eq_ok]
    | passed hkey hslot hkeeps hskip hlater =>
      refine ⟨_, hkey, ?_⟩
      simp [hslot, hkeeps, hskip, hkeeps ▸ hlater, bind_eq_ok]

/-- A member has a name. -/
def Named (members : List (Quoted × Tree)) (name : String) (t : Tree) : Prop :=
  ∃ key, (key, t) ∈ members ∧ key.content = .ok name

theorem named_cons {first : Quoted × Tree} : Named (first :: members) name t ↔
    (first.1.content = .ok name ∧ first.2 = t) ∨ Named members name t := by
  constructor
  · rintro ⟨key, hmem, hkey⟩
    obtain rfl | hmem := List.mem_cons.mp hmem
    · exact .inl ⟨hkey, rfl⟩
    · exact .inr ⟨key, hmem, hkey⟩
  · rintro (⟨hkey, rfl⟩ | ⟨key, hmem, hkey⟩)
    · exact ⟨first.1, List.mem_cons_self, hkey⟩
    · exact ⟨key, List.mem_cons_of_mem _ hmem, hkey⟩

/-- Among the values that were read is that of the member with the name of a slot, if there is such
a member, and there is only one. -/
structure Sought (members : List (Quoted × Tree)) (values : List (String × α)) (slot : Slot α) :
    Prop where
  unique : ∀ p p', Named members slot.name p → Named members slot.name p' → p = p'
  found : ∀ p, Named members slot.name p → ∃ value, slot.read p = .ok value ∧
    values.find? (·.1 == slot.name) = some (slot.name, value)
  absent : (∀ p, ¬ Named members slot.name p) → values.find? (·.1 == slot.name) = none

/-- A member whose name is not that of a slot does not matter to it. -/
theorem Sought.skip {values : List (String × α)} (h : Sought members values slot)
    (hkey : key.content = .ok name) (hname : slot.name ≠ name) :
    Sought ((key, t) :: members) values slot := by
  have hnot : key.content ≠ .ok slot.name := by
    rw [hkey]
    exact fun heq ↦ hname (Except.ok.inj heq).symm
  have hlater (p : Tree) (hp : Named ((key, t) :: members) slot.name p) :
      Named members slot.name p :=
    (named_cons.mp hp).resolve_left fun hfirst ↦ hnot hfirst.1
  refine ⟨fun p p' hp hp' ↦ h.unique p p' (hlater p hp) (hlater p' hp'),
    fun p hp ↦ h.found p (hlater p hp), fun habsent ↦ h.absent fun p hp ↦ ?_⟩
  exact habsent p (named_cons.mpr (.inr hp))

/-- A name that was read before does not come again. -/
theorem not_named_of_seen (hslots : Apart slots)
    (h : readMembers room slots keepsRest seen members = .ok found) (hslot : slot ∈ slots)
    (hseen : slot.name ∈ seen) (p : Tree) : ¬ Named members slot.name p := by
  induction members generalizing seen found with
  | nil =>
    rintro ⟨key, hmem, -⟩
    cases hmem
  | cons first members ih =>
    rw [named_cons, not_or]
    have hother {name : String} (hkey : first.1.content = .ok name) (hname : slot.name ≠ name) :
        ¬ (first.1.content = .ok slot.name ∧ first.2 = p) := by
      rintro ⟨hsame, -⟩
      rw [hkey] at hsame
      exact hname (Except.ok.inj hsame).symm
    cases readMembers_cons.mp h with
    | placed hkey hfind hfresh _ hlater =>
      obtain ⟨_, hname⟩ := hslots.find?_eq_some.mp hfind
      refine ⟨hother hkey ?_, ih hlater (List.mem_cons_of_mem _ hseen)⟩
      rintro rfl
      exact hfresh (hname ▸ hseen)
    | kept hkey hfind _ _ hlater | passed hkey hfind _ _ hlater =>
      exact ⟨hother hkey (hslots.find?_eq_none.mp hfind slot hslot), ih hlater hseen⟩

theorem sought_of_readMembers (hslots : Apart slots)
    (h : readMembers room slots keepsRest seen members = .ok found) (hslot : slot ∈ slots)
    (hseen : slot.name ∉ seen) : Sought members found.values slot := by
  induction members generalizing seen found with
  | nil =>
    cases h
    have hnone (p : Tree) : ¬ Named [] slot.name p := by
      rintro ⟨key, hmem, -⟩
      cases hmem
    exact ⟨fun p _ hp ↦ absurd hp (hnone p), fun p hp ↦ absurd hp (hnone p), fun _ ↦ rfl⟩
  | cons first members ih =>
    obtain ⟨key, t⟩ := first
    cases readMembers_cons.mp h with
    | @placed name other value later hkey hfind hfresh hvalue hlater =>
      obtain ⟨hother, rfl⟩ := hslots.find?_eq_some.mp hfind
      by_cases hsame : slot.name = other.name
      · obtain rfl := hslots.eq_of_name_eq hslot hother hsame
        have honly (p : Tree) (hp : Named ((key, t) :: members) slot.name p) : t = p := by
          obtain ⟨-, hp⟩ | hp := named_cons.mp hp
          · exact hp
          · exact absurd hp (not_named_of_seen hslots hlater hslot List.mem_cons_self p)
        refine ⟨fun p p' hp hp' ↦ (honly p hp).symm.trans (honly p' hp'), fun p hp ↦ ?_, ?_⟩
        · obtain rfl := honly p hp
          exact ⟨value, hvalue, List.find?_cons_of_pos (by simp)⟩
        · intro habsent
          exact absurd (named_cons.mpr (.inl ⟨hkey, rfl⟩)) (habsent t)
      · have hrest : Sought members later.values slot := by
          refine ih hlater fun hmem ↦ ?_
          obtain hmem | hmem := List.mem_cons.mp hmem
          · exact hsame hmem
          · exact hseen hmem
        have hvalues : ((other.name, value) :: later.values).find? (·.1 == slot.name) =
            later.values.find? (·.1 == slot.name) :=
          List.find?_cons_of_neg (by simpa using Ne.symm hsame)
        obtain ⟨hunique, hfound, habsent⟩ := hrest.skip (t := t) hkey hsame
        refine ⟨hunique, fun p hp ↦ ?_, fun hnone ↦ hvalues.trans (habsent hnone)⟩
        obtain ⟨value', hread, hlookup⟩ := hfound p hp
        exact ⟨value', hread, hvalues.trans hlookup⟩
    | kept hkey hfind _ _ hlater | passed hkey hfind _ _ hlater =>
      exact (ih hlater hseen).skip hkey (hslots.find?_eq_none.mp hfind slot hslot)

/-- A member that is kept is one without a slot, with the document of its value. -/
theorem mem_rest_of_readMembers
    (h : readMembers room slots keepsRest seen members = .ok found) {value : Json}
    (hmem : (name, value) ∈ found.rest) : slots.find? (·.hasName name) = none ∧
      ∃ p, Named members name p ∧ p.toJson room = .ok value := by
  induction members generalizing seen found with
  | nil =>
    cases h
    cases hmem
  | cons first members ih =>
    have hcons {seen : List String} {later : Members α}
        (hlater : readMembers room slots keepsRest seen members = .ok later)
        (hmem : (name, value) ∈ later.rest) : slots.find? (·.hasName name) = none ∧
          ∃ p, Named (first :: members) name p ∧ p.toJson room = .ok value := by
      obtain ⟨hfind, p, hp, hvalue⟩ := ih hlater hmem
      exact ⟨hfind, p, named_cons.mpr (.inr hp), hvalue⟩
    cases readMembers_cons.mp h with
    | placed _ _ _ _ hlater | passed _ _ _ _ hlater => exact hcons hlater hmem
    | kept hkey hfind _ hvalue hlater =>
      obtain hfirst | hmem := List.mem_cons.mp hmem
      · obtain ⟨rfl, rfl⟩ := Prod.mk.inj hfirst
        exact ⟨hfind, first.2, named_cons.mpr (.inl ⟨hkey, rfl⟩), hvalue⟩
      · exact hcons hlater hmem

/-! ### Places -/

/-- The part of a tree that stands at a place, which has a number and a name. -/
inductive Tree.Part : Tree → Nat → String → Tree → Prop
  | member {spelling : List Glyph} {members : List (Quoted × Tree)} {ending : Ending} {i : Nat}
      {name : String} {p : Tree} (hp : Named members name p) :
      Part (.object spelling members ending) i name p
  | item {spelling : List Glyph} {items : List Tree} {ending : Ending} {i : Nat} {name : String}
      {p : Tree} (hp : items[i]? = some p) : Part (.array spelling items ending) i name p

/-- Each value was read from the part at its place, which is the only one there, or supplied by the
slot where there is none. -/
inductive Placed (t : Tree) : Nat → List (Slot α) → List α → Prop
  | nil (i : Nat) : Placed t i [] []
  | cons {i : Nat} {slot : Slot α} {slots : List (Slot α)} {value : α} {values : List α}
      (hunique : ∀ p p', t.Part i slot.name p → t.Part i slot.name p' → p = p')
      (hread : ∀ p, t.Part i slot.name p → slot.read p = .ok value)
      (hmissing : (∀ p, ¬ t.Part i slot.name p) →
        slot.missing = .inObject value ∨ slot.missing = .always value)
      (hrest : Placed t (i + 1) slots values) : Placed t i (slot :: slots) (value :: values)

variable {values : List α} {entries : List (String × α)} {spelling : List Glyph} {ending : Ending}
  {items : List Tree}

/-- The value that a slot gets in an object. -/
def Fills (entries : List (String × α)) (slot : Slot α) (value : α) : Prop :=
  entries.find? (·.1 == slot.name) = some (slot.name, value) ∨
    entries.find? (·.1 == slot.name) = none ∧
      (slot.missing = .inObject value ∨ slot.missing = .always value)

theorem fillSlots_cons : fillSlots entries (slot :: slots) = .ok values ↔
    ∃ value later, Fills entries slot value ∧ fillSlots entries slots = .ok later ∧
      values = value :: later := by
  have hlater (value : α) :
      (fillSlots entries slots >>= fun later ↦ .ok (value :: later)) = .ok values ↔
        ∃ later, fillSlots entries slots = .ok later ∧ values = value :: later := by
    refine bind_eq_ok.trans (exists_congr fun later ↦ and_congr_right fun _ ↦ ?_)
    rw [Except.ok.injEq, eq_comm]
  rw [fillSlots]
  cases hfind : entries.find? (·.1 == slot.name) with
  | some entry =>
    obtain ⟨name, value⟩ := entry
    have hname : name = slot.name := by simpa using List.find?_some hfind
    refine (hlater value).trans ?_
    simp [Fills, hfind, hname]
  | none =>
    cases hmissing : slot.missing with
    | required =>
      refine iff_of_false (fun h ↦ ?_) (by simp [Fills, hfind, hmissing])
      cases h
    | inObject value | always value =>
      refine (hlater value).trans ?_
      simp [Fills, hfind, hmissing]

theorem placed_of_fillSlots (hsought : ∀ slot ∈ slots, Sought members entries slot)
    (h : fillSlots entries slots = .ok values) (i : Nat) :
    Placed (.object spelling members ending) i slots values := by
  induction slots generalizing i values with
  | nil =>
    cases h
    exact .nil i
  | cons slot slots ih =>
    obtain ⟨hslot, hslots⟩ := List.forall_mem_cons.mp hsought
    obtain ⟨value, later, hvalue, hlater, rfl⟩ := fillSlots_cons.mp h
    refine .cons ?_ ?_ ?_ (ih hslots hlater (i + 1))
    · rintro p p' ⟨hp⟩ ⟨hp'⟩
      exact hslot.unique p p' hp hp'
    · rintro p ⟨hp⟩
      obtain ⟨value', hread, hfind⟩ := hslot.found p hp
      rcases hvalue with hvalue | ⟨hnone, -⟩
      · rw [hfind] at hvalue
        cases hvalue
        exact hread
      · rw [hfind] at hnone
        cases hnone
    · intro hnone
      have hfind := hslot.absent fun p hp ↦ hnone p (.member hp)
      rcases hvalue with hvalue | ⟨-, hmissing⟩
      · rw [hfind] at hvalue
        cases hvalue
      · exact hmissing

theorem part_array {i : Nat} {p : Tree} :
    (Tree.array spelling items ending).Part i name p ↔ items[i]? = some p := by
  refine ⟨fun h ↦ ?_, .item⟩
  cases h with
  | item hp => exact hp

theorem placed_of_fillItems {i : Nat} (h : fillItems ending slots (items.drop i) = .ok values) :
    Placed (.array spelling items ending) i slots values := by
  induction slots generalizing i values with
  | nil =>
    cases hdrop : items.drop i with
    | nil =>
      rw [hdrop, fillItems] at h
      obtain ⟨_, -, h⟩ := bind_eq_ok.mp h
      cases h
      exact .nil i
    | cons =>
      rw [hdrop] at h
      cases h
  | cons slot slots ih =>
    have hunique (p p' : Tree) (hp : (Tree.array spelling items ending).Part i slot.name p)
        (hp' : (Tree.array spelling items ending).Part i slot.name p') : p = p' :=
      Option.some.inj ((part_array.mp hp).symm.trans (part_array.mp hp'))
    have hitem : items[i]? = (items.drop i)[0]? := by rw [List.getElem?_drop, Nat.add_zero]
    have hlater : items.drop (i + 1) = (items.drop i).drop 1 := by rw [List.drop_drop]
    cases hdrop : items.drop i with
    | nil =>
      rw [hdrop] at hitem hlater
      rw [hdrop, fillItems] at h
      obtain ⟨_, -, h⟩ := bind_eq_ok.mp h
      split at h
      · rename_i value hmissing
        obtain ⟨later, hvalues, h⟩ := bind_eq_ok.mp h
        cases h
        refine .cons hunique (fun p hp ↦ ?_) (fun _ ↦ .inr hmissing) (ih (hlater ▸ hvalues))
        rw [part_array, hitem] at hp
        cases hp
      · cases h
    | cons first others =>
      rw [hdrop] at hitem hlater
      rw [hdrop, fillItems] at h
      obtain ⟨value, hvalue, h⟩ := bind_eq_ok.mp h
      obtain ⟨later, hvalues, h⟩ := bind_eq_ok.mp h
      cases h
      refine .cons hunique (fun p hp ↦ ?_) (fun hnone ↦ absurd (.item hitem) (hnone first))
        (ih (hlater ▸ hvalues))
      rw [part_array, hitem] at hp
      cases hp
      exact hvalue

/-- How a record is read from an object. -/
theorem readRecord_object {slots : Nat → List (Slot α)} {rest : List (String × Json)} :
    readRecord room slots keepsRest (.object spelling members .closed) = .ok (values, rest) ↔
      ∃ inner found, room = inner + 1 ∧
        readMembers inner (slots inner) keepsRest [] members = .ok found ∧
        fillSlots found.values (slots inner) = .ok values ∧ rest = sortMembers found.rest := by
  cases room with
  | zero =>
    constructor
    · intro h
      cases h
    · rintro ⟨_, _, hroom, -⟩
      cases hroom
  | succ inner =>
    rw [readRecord]
    simp only [bind_eq_ok, Ending.check, Except.ok.injEq, Prod.mk.injEq, Nat.add_right_cancel_iff]
    constructor
    · rintro ⟨found, hfound, _, -, _, hvalues, rfl, rfl⟩
      exact ⟨inner, found, rfl, hfound, hvalues, rfl⟩
    · rintro ⟨_, found, rfl, hfound, hvalues, rfl⟩
      exact ⟨found, hfound, (), trivial, values, hvalues, rfl, rfl⟩

/-- A record that keeps the rest was read from an object. -/
theorem object_of_readRecord {slots : Nat → List (Slot α)} {rest : List (String × Json)}
    (h : readRecord room slots true t = .ok (values, rest)) :
    ∃ inner spelling members ending found, room = inner + 1 ∧
      t = .object spelling members ending ∧
      readMembers inner (slots inner) true [] members = .ok found ∧
      rest = sortMembers found.rest := by
  unfold readRecord at h
  split at h
  · cases room with
    | zero => cases h
    | succ inner =>
      obtain ⟨found, hfound, h⟩ := bind_eq_ok.mp h
      obtain ⟨_, -, h⟩ := bind_eq_ok.mp h
      obtain ⟨_, -, h⟩ := bind_eq_ok.mp h
      cases h
      exact ⟨inner, _, _, _, found, rfl, rfl, hfound, rfl⟩
  · cases h
  · cases h

/-- The values of a record were read from the parts at its places. -/
theorem placed_of_readRecord {slots : Nat → List (Slot α)} {rest : List (String × Json)}
    (hslots : ∀ room, Apart (slots room))
    (h : readRecord room slots keepsRest t = .ok (values, rest)) :
    ∃ inner, room = inner + 1 ∧ Placed t 0 (slots inner) values := by
  unfold readRecord at h
  split at h
  · cases room with
    | zero => cases h
    | succ inner =>
      obtain ⟨found, hfound, h⟩ := bind_eq_ok.mp h
      obtain ⟨_, -, h⟩ := bind_eq_ok.mp h
      obtain ⟨filled, hfilled, h⟩ := bind_eq_ok.mp h
      cases h
      have hsought : ∀ slot ∈ slots inner, Sought _ found.values slot := fun _ hslot ↦
        sought_of_readMembers (hslots inner) hfound hslot List.not_mem_nil
      exact ⟨inner, rfl, placed_of_fillSlots hsought hfilled 0⟩
  · split at h
    · cases h
    · cases room with
      | zero => cases h
      | succ inner =>
        obtain ⟨filled, hfilled, h⟩ := bind_eq_ok.mp h
        cases h
        exact ⟨inner, rfl, placed_of_fillItems (i := 0) (by rwa [List.drop_zero])⟩
  · cases h

end SearchClient.Json

import SearchClient.Json.Record
import SearchClient.Proofs.Json.Members
import SearchClient.Proofs.Program.Steps

/-!
# Records and maps

What is read of a record has one value for each slot, and each value was read for a slot or stands
for the lack of one (`gives_of_readRecord`). What is read of a map is in the order of its keys
(`inOrder_of_readMap`).
-/

set_option autoImplicit false
set_option relaxedAutoImplicit false

namespace SearchClient.Json

variable {α : Type}

/-- A value that a slot may get: one that was read for it, or one that stands for its lack. -/
def Slot.Gives (slot : Slot α) (value : α) : Prop :=
  (∃ t, slot.read t = .ok value) ∨ slot.missing = .inObject value ∨ slot.missing = .always value

variable {room : Nat} {slots : List (Slot α)} {keepsRest : Bool}

/-- What is read of the members of an object was read for some slot. -/
theorem gives_of_readMembers {seen : List String} {members : List (Quoted × Tree)}
    {found : Members α} (h : readMembers room slots keepsRest seen members = .ok found) :
    ∀ entry ∈ found.values, ∃ slot ∈ slots, slot.Gives entry.2 := by
  induction members generalizing seen found with
  | nil =>
    rw [readMembers] at h
    cases h
    simp
  | cons member members ih =>
    obtain ⟨key, t⟩ := member
    rw [readMembers] at h
    obtain ⟨name, -, h⟩ := bind_eq_ok.mp h
    cases hslot : slots.find? (·.hasName name) with
    | some slot =>
      simp only [hslot] at h
      split at h
      · cases h
      · obtain ⟨value, hvalue, h⟩ := bind_eq_ok.mp h
        obtain ⟨rest, hrest, h⟩ := bind_eq_ok.mp h
        cases h
        exact List.forall_mem_cons.mpr
          ⟨⟨slot, List.mem_of_find?_eq_some hslot, .inl ⟨t, hvalue⟩⟩, ih hrest⟩
    | none =>
      simp only [hslot] at h
      split at h
      · obtain ⟨value, -, h⟩ := bind_eq_ok.mp h
        obtain ⟨rest, hrest, h⟩ := bind_eq_ok.mp h
        cases h
        intro entry hentry
        exact ih hrest entry hentry
      · obtain ⟨_, -, h⟩ := bind_eq_ok.mp h
        exact ih h

/-- The slots of an object are filled with what was read for some slot, or with what stands for its
lack. -/
theorem gives_of_fillSlots {entries : List (String × α)} {all slots : List (Slot α)}
    {values : List α} (hentries : ∀ entry ∈ entries, ∃ slot ∈ all, slot.Gives entry.2)
    (hslots : slots ⊆ all) (h : fillSlots entries slots = .ok values) :
    values.length = slots.length ∧ ∀ value ∈ values, ∃ slot ∈ all, slot.Gives value := by
  induction slots generalizing values with
  | nil =>
    rw [fillSlots] at h
    cases h
    simp
  | cons slot slots ih =>
    obtain ⟨hslot, hslots⟩ := List.cons_subset.mp hslots
    have hcons {value : α} (hgives : ∃ slot ∈ all, slot.Gives value)
        (h : (fillSlots entries slots >>= fun rest ↦ .ok (value :: rest)) = .ok values) :
        values.length = (slot :: slots).length ∧
          ∀ value ∈ values, ∃ slot ∈ all, slot.Gives value := by
      obtain ⟨rest, hrest, h⟩ := bind_eq_ok.mp h
      cases h
      obtain ⟨hlength, hall⟩ := ih hslots hrest
      exact ⟨by rw [List.length_cons, List.length_cons, hlength],
        List.forall_mem_cons.mpr ⟨hgives, hall⟩⟩
    rw [fillSlots] at h
    split at h
    · rename_i hfound
      exact hcons (hentries _ (List.mem_of_find?_eq_some hfound)) h
    · rename_i hmissing
      exact hcons ⟨slot, hslot, .inr (.inl hmissing)⟩ h
    · rename_i hmissing
      exact hcons ⟨slot, hslot, .inr (.inr hmissing)⟩ h
    · cases h

/-- So are those of an array. -/
theorem gives_of_fillItems {ending : Ending} {all slots : List (Slot α)} {items : List Tree}
    {values : List α} (hslots : slots ⊆ all) (h : fillItems ending slots items = .ok values) :
    values.length = slots.length ∧ ∀ value ∈ values, ∃ slot ∈ all, slot.Gives value := by
  induction slots generalizing items values with
  | nil =>
    cases items with
    | nil =>
      rw [fillItems] at h
      obtain ⟨_, -, h⟩ := bind_eq_ok.mp h
      cases h
      simp
    | cons => cases h
  | cons slot slots ih =>
    obtain ⟨hslot, hslots⟩ := List.cons_subset.mp hslots
    have hcons {value : α} {items : List Tree} {rest : List α} (hgives : slot.Gives value)
        (hrest : fillItems ending slots items = .ok rest) (h : value :: rest = values) :
        values.length = (slot :: slots).length ∧
          ∀ value ∈ values, ∃ slot ∈ all, slot.Gives value := by
      subst h
      obtain ⟨hlength, hall⟩ := ih hslots hrest
      exact ⟨by rw [List.length_cons, List.length_cons, hlength],
        List.forall_mem_cons.mpr ⟨⟨slot, hslot, hgives⟩, hall⟩⟩
    cases items with
    | nil =>
      rw [fillItems] at h
      obtain ⟨_, -, h⟩ := bind_eq_ok.mp h
      split at h
      · rename_i value hmissing
        obtain ⟨rest, hrest, h⟩ := bind_eq_ok.mp h
        exact hcons (.inr (.inr hmissing)) hrest (Except.ok.inj h)
      · cases h
    | cons t items =>
      rw [fillItems] at h
      obtain ⟨value, hvalue, h⟩ := bind_eq_ok.mp h
      obtain ⟨rest, hrest, h⟩ := bind_eq_ok.mp h
      exact hcons (.inl ⟨t, hvalue⟩) hrest (Except.ok.inj h)

/-- A record that was read has a value for each of its slots. -/
theorem gives_of_readRecord {slots : Nat → List (Slot α)} {t : Tree} {values : List α}
    {rest : List (String × Json)} (h : readRecord room slots keepsRest t = .ok (values, rest)) :
    ∃ inner, values.length = (slots inner).length ∧
      ∀ value ∈ values, ∃ slot ∈ slots inner, slot.Gives value := by
  unfold readRecord at h
  split at h
  · cases room with
    | zero => cases h
    | succ inner =>
      obtain ⟨found, hfound, h⟩ := bind_eq_ok.mp h
      obtain ⟨_, -, h⟩ := bind_eq_ok.mp h
      obtain ⟨filled, hfilled, h⟩ := bind_eq_ok.mp h
      cases h
      exact ⟨inner, gives_of_fillSlots (gives_of_readMembers hfound) (List.Subset.refl _) hfilled⟩
  · split at h
    · cases h
    · cases room with
      | zero => cases h
      | succ inner =>
        obtain ⟨filled, hfilled, h⟩ := bind_eq_ok.mp h
        cases h
        exact ⟨inner, gives_of_fillItems (List.Subset.refl _) hfilled⟩
  · cases h

/-- What is read of a map is in the order of its keys, each key once. -/
theorem inOrder_of_readMap {read : Nat → Tree → Except Fault α} {t : Tree}
    {members : List (String × α)} (h : t.readMap room read = .ok members) : InOrder members := by
  unfold Tree.readMap at h
  split at h
  · cases room with
    | zero => cases h
    | succ inner =>
      obtain ⟨values, -, h⟩ := bind_eq_ok.mp h
      obtain ⟨_, -, h⟩ := bind_eq_ok.mp h
      cases h
      exact inOrder_sortMembers values
  · cases h

end SearchClient.Json

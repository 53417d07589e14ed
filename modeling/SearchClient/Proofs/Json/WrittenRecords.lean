import SearchClient.Proofs.Json.Shapes

/-!
# Records that are written and read again

A record is written as the members of its places at which there is something (`filled`), with the
members it keeps behind them. If each place is read back by its own slot (`Rereads`), then the
record is read back from the object, and what it keeps with it (`readRecord_toTree`).
-/

set_option autoImplicit false
set_option relaxedAutoImplicit false

namespace SearchClient.Json

variable {α : Type} {room : Nat} {name : String} {places : List (String × Option Json)}

/-! ### Places that are filled -/

/-- The members of an object with these places, where something stands at them. -/
def filled (places : List (String × Option Json)) : List (String × Json) :=
  places.filterMap fun place ↦ place.2.map (place.1, ·)

theorem filled_cons_some {j : Json} :
    filled ((name, some j) :: places) = (name, j) :: filled places :=
  rfl

theorem filled_append (places places' : List (String × Option Json)) :
    filled (places ++ places') = filled places ++ filled places' :=
  List.filterMap_append

theorem mem_filled {j : Json} (h : (name, some j) ∈ places) : (name, j) ∈ filled places :=
  List.mem_filterMap.mpr ⟨_, h, rfl⟩

theorem mem_of_mem_filled {j : Json} (h : (name, j) ∈ filled places) :
    name ∈ places.map Prod.fst := by
  obtain ⟨place, hplace, hwritten⟩ := List.mem_filterMap.mp h
  obtain ⟨_, -, hsame⟩ := Option.map_eq_some_iff.mp hwritten
  exact (Prod.mk.inj hsame).1 ▸ List.mem_map_of_mem hplace

/-! ### Slots that read what was written -/

/-- Each slot reads its value from what is written at its place, or has it where nothing is. -/
inductive Rereads : List (Slot α) → List (String × Option Json) → List α → Prop
  | nil : Rereads [] [] []
  | written {slot : Slot α} {slots : List (Slot α)} {j : Json} {value : α} {values : List α}
      {places : List (String × Option Json)} (hread : slot.read j.toTree = .ok value)
      (hrest : Rereads slots places values) :
      Rereads (slot :: slots) ((slot.name, some j) :: places) (value :: values)
  | omitted {slot : Slot α} {slots : List (Slot α)} {value : α} {values : List α}
      {places : List (String × Option Json)} (hmissing : slot.missing = .always value)
      (hrest : Rereads slots places values) :
      Rereads (slot :: slots) ((slot.name, none) :: places) (value :: values)

variable {slots all : List (Slot α)} {keepsRest : Bool} {seen : List String} {values : List α}
  {entries : List (String × α)} {rest : List (String × Json)}

/-- Members that a record with slots of these names keeps, and keeps as they are. -/
structure Tidy (names : List String) (members : List (String × Json)) : Prop where
  apart : ∀ m ∈ members, m.1 ∉ names
  order : InOrder members
  sorted : ∀ m ∈ members, m.2.sorted = m.2

theorem Tidy.nil {names : List String} : Tidy names [] :=
  ⟨List.forall_mem_nil _, .nil, List.forall_mem_nil _⟩

/-- The documents of a map are in order. -/
theorem tidy_of_readMap {t : Tree}
    (h : t.readMap room (fun room t ↦ t.toJson room) = .ok rest) : Tidy [] rest := by
  refine ⟨fun _ _ ↦ List.not_mem_nil, inOrder_of_readMap h, ?_⟩
  unfold Tree.readMap at h
  split at h
  · cases room with
    | zero => cases h
    | succ inner =>
      obtain ⟨members, hmembers, h⟩ := bind_eq_ok.mp h
      obtain ⟨_, -, h⟩ := bind_eq_ok.mp h
      obtain rfl := Except.ok.inj h
      rw [readValues_eq_membersToJson] at hmembers
      exact fun m hm ↦ sorted_of_membersToJson _ hmembers m (mem_of_mem_sortMembers hm)
  · cases h

/-- What a record keeps of the members it was read from is in order. -/
theorem tidy_of_readRecord {slots : Nat → List (Slot α)} {t : Tree}
    (hslots : ∀ room, Apart (slots room))
    (h : readRecord room slots true t = .ok (values, rest)) :
    ∃ inner, room = inner + 1 ∧ Tidy ((slots inner).map Slot.name) rest := by
  obtain ⟨inner, _, members, _, found, rfl, rfl, hfound, rfl⟩ := object_of_readRecord h
  have hmem (m : String × Json) (hm : m ∈ sortMembers found.rest) :
      m.1 ∉ (slots inner).map Slot.name ∧ m.2.sorted = m.2 := by
    obtain ⟨hfind, p, -, hvalue⟩ := mem_rest_of_readMembers hfound (mem_of_mem_sortMembers hm)
    refine ⟨fun hname ↦ ?_, sorted_of_toJson p hvalue⟩
    obtain ⟨slot, hslot, hname⟩ := List.mem_map.mp hname
    exact (hslots inner).find?_eq_none.mp hfind slot hslot hname
  exact ⟨inner, rfl, fun m hm ↦ (hmem m hm).1, inOrder_sortMembers _, fun m hm ↦ (hmem m hm).2⟩

/-- A record keeps every member of a document for which it has no slot. -/
theorem mem_rest_of_readRecord {slots : Nat → List (Slot α)} {members : List (String × Json)}
    {v : Json} (hslots : ∀ room, Apart (slots room))
    (h : readRecord room slots true (Json.object members).toTree = .ok (values, rest))
    (hv : (name, v) ∈ sortMembers members) (hname : ∀ room, name ∉ (slots room).map Slot.name) :
    (name, v.sorted) ∈ rest := by
  obtain ⟨inner, found, -, hfound, -, rfl⟩ := readRecord_object.mp h
  have hfind : (slots inner).find? (·.hasName name) = none := (hslots inner).find?_eq_none.mpr
    fun slot hslot hsame ↦ hname inner (hsame ▸ List.mem_map_of_mem hslot)
  rw [rest_of_readMembers hfound, sortMembers_map]
  refine List.mem_map.mpr ⟨(name, v), ?_, rfl⟩
  exact mem_sortMembers_filter (p := fun name ↦ ((slots inner).find? (·.hasName name)).isNone) hv
    (by rw [hfind, Option.isNone_none])

theorem readMembers_rest (hslots : Apart slots) (h : Tidy (slots.map Slot.name) rest)
    (hdepth : membersDepth rest ≤ room) :
    readMembers room slots true seen (memberTrees rest) = .ok ⟨[], rest⟩ := by
  induction rest with
  | nil => rfl
  | cons m rest ih =>
    obtain ⟨hdepth, hdepths⟩ := Nat.max_le.mp hdepth
    obtain ⟨hsorted, hsorteds⟩ := List.forall_mem_cons.mp h.sorted
    obtain ⟨hapart, haparts⟩ := List.forall_mem_cons.mp h.apart
    have hlater := ih ⟨haparts, (List.pairwise_cons.mp h.order).2, hsorteds⟩ hdepths
    have hvalue : m.2.toTree.toJson room = .ok m.2 := by
      rw [toJson_toTree, if_pos hdepth, hsorted]
    have hfind : slots.find? (·.hasName m.1) = none := hslots.find?_eq_none.mpr
      fun slot hslot hname ↦ hapart (hname ▸ List.mem_map_of_mem hslot)
    rw [memberTrees]
    exact readMembers_cons.mpr (.kept rfl hfind rfl hvalue hlater)

/-- Which values slots get is told slot by slot. -/
theorem fillSlots_eq_ok :
    fillSlots entries slots = .ok values ↔ List.Forall₂ (Fills entries) slots values := by
  induction slots generalizing values with
  | nil => simp [fillSlots, eq_comm]
  | cons slot slots ih =>
    rw [fillSlots_cons]
    constructor
    · rintro ⟨value, later, hvalue, hlater, rfl⟩
      exact .cons hvalue (ih.mp hlater)
    · intro h
      cases h with
      | cons hvalue hlater => exact ⟨_, _, hvalue, ih.mpr hlater, rfl⟩

theorem Fills.cons {slot : Slot α} {value other : α} (h : Fills entries slot value)
    (hname : name ≠ slot.name) : Fills ((name, other) :: entries) slot value := by
  have hfind : ((name, other) :: entries).find? (·.1 == slot.name) =
      entries.find? (·.1 == slot.name) :=
    List.find?_cons_of_neg (by simpa using hname)
  rwa [Fills, hfind]

/-- The members of places that are read back fill the slots. The induction is on the places, and the
names of the entries say that a later place does not fill an earlier slot. -/
theorem readMembers_of_rereads (hall : Apart all) (h : Rereads slots places values)
    (hslots : slots ⊆ all) (hnodup : (slots.map Slot.name).Nodup)
    (hseen : ∀ slot ∈ slots, slot.name ∉ seen)
    (hrest : ∀ seen, readMembers room all keepsRest seen (memberTrees rest) = .ok ⟨[], rest⟩) :
    ∃ entries, readMembers room all keepsRest seen (memberTrees (filled places ++ rest)) =
        .ok ⟨entries, rest⟩ ∧ List.Forall₂ (Fills entries) slots values ∧
      ∀ entry ∈ entries, entry.1 ∈ slots.map Slot.name := by
  induction h generalizing seen with
  | nil => exact ⟨[], hrest seen, .nil, List.forall_mem_nil _⟩
  | @written slot slots j value values places hread _ ih =>
    obtain ⟨hfresh, hnodup⟩ := List.nodup_cons.mp hnodup
    obtain ⟨hslot, hslots⟩ := List.cons_subset.mp hslots
    obtain ⟨hunseen, hseen⟩ := List.forall_mem_cons.mp hseen
    have hother : ∀ other ∈ slots, slot.name ≠ other.name := fun other hmem heq ↦
      hfresh (heq ▸ List.mem_map_of_mem hmem)
    have hlater : ∀ other ∈ slots, other.name ∉ slot.name :: seen := fun other hmem ↦
      List.not_mem_cons_of_ne_of_not_mem (hother other hmem).symm (hseen other hmem)
    obtain ⟨entries, hentries, hfills, hnames⟩ := ih hslots hnodup hlater
    refine ⟨(slot.name, value) :: entries, ?_, .cons (.inl ?_) ?_, ?_⟩
    · rw [filled_cons_some, List.cons_append, memberTrees]
      exact readMembers_cons.mpr
        (.placed rfl (hall.find?_eq_some.mpr ⟨hslot, rfl⟩) hunseen hread hentries)
    · exact List.find?_cons_of_pos (by simp)
    · have hboth := (List.forall₂_and_left slots values).mpr ⟨hother, hfills⟩
      exact hboth.imp fun _ _ hfill ↦ hfill.2.cons hfill.1
    · refine List.forall_mem_cons.mpr ⟨List.mem_cons_self, fun entry hmem ↦ ?_⟩
      exact List.mem_cons_of_mem _ (hnames entry hmem)
  | @omitted slot slots value values places hmissing _ ih =>
    obtain ⟨hfresh, hnodup⟩ := List.nodup_cons.mp hnodup
    obtain ⟨_, hslots⟩ := List.cons_subset.mp hslots
    obtain ⟨_, hseen⟩ := List.forall_mem_cons.mp hseen
    obtain ⟨entries, hentries, hfills, hnames⟩ := ih hslots hnodup hseen
    have hnone : entries.find? (·.1 == slot.name) = none := by
      refine List.find?_eq_none.mpr fun entry hmem hname ↦ hfresh ?_
      have hsame : entry.1 = slot.name := by simpa using hname
      exact hsame ▸ hnames entry hmem
    refine ⟨entries, hentries, .cons (.inr ⟨hnone, .inr hmissing⟩) hfills, fun entry hmem ↦ ?_⟩
    exact List.mem_cons_of_mem _ (hnames entry hmem)

/-- A record that was written is read again, with the members it keeps. -/
theorem readRecord_toTree {slots : Nat → List (Slot α)} (hslots : Apart (slots room))
    (h : Rereads (slots room) places values)
    (hrest : Tidy ((slots room).map Slot.name) rest) (hdepth : membersDepth rest ≤ room)
    (hkeeps : keepsRest = true ∨ rest = []) :
    readRecord (room + 1) slots keepsRest (Json.object (filled places ++ rest)).toTree =
      .ok (values, rest) := by
  have hread (seen : List String) :
      readMembers room (slots room) keepsRest seen (memberTrees rest) = .ok ⟨[], rest⟩ := by
    obtain rfl | rfl := hkeeps
    · exact readMembers_rest hslots hrest hdepth
    · rfl
  obtain ⟨entries, hentries, hfills, -⟩ := readMembers_of_rereads hslots h (List.Subset.refl _)
    hslots.nodup (fun _ _ ↦ List.not_mem_nil) hread
  rw [toTree]
  refine readRecord_object.mpr ⟨room, _, rfl, hentries, fillSlots_eq_ok.mpr hfills, ?_⟩
  exact (sortMembers_of_inOrder hrest.order).symm

theorem readRecord_filled {slots : Nat → List (Slot α)} (hslots : Apart (slots room))
    (h : Rereads (slots room) places values) :
    readRecord (room + 1) slots keepsRest (Json.object (filled places)).toTree =
      .ok (values, []) := by
  rw [← List.append_nil (filled places)]
  exact readRecord_toTree hslots h .nil (Nat.zero_le room) (.inr rfl)

end SearchClient.Json

import SearchClient.Proofs.Json.Rereading
import SearchClient.Proofs.Json.Places

/-!
# Shapes of documents

What a reader asks of a tree is a shape of the document if the tree is a document's own. A text is
read of a text only (`readText_toTree`), a list of an array whose items are read one by one
(`readList_toTree`), a map of an object (`readMap_toTree`). The parts of a document's tree are the
trees of its own parts (`part_toTree`), and the members that a record keeps are those without a
place, in order (`rest_of_readMembers`).
-/

set_option autoImplicit false
set_option relaxedAutoImplicit false

namespace SearchClient.Json

variable {α : Type} {room : Nat} {j : Json}

/-! ### Values -/

theorem toTree_eq_null : j.toTree = .null ↔ j = .null := by
  cases j <;> simp [toTree]

theorem readText_toTree {s : String} : j.toTree.readText = .ok s ↔ j = .string s := by
  cases j <;> simp [toTree, Tree.readText]

theorem readBool_toTree {b : Bool} : j.toTree.readBool = .ok b ↔ j = .bool b := by
  cases j <;> simp [toTree, Tree.readBool]

theorem readInteger_toTree {least greatest i : Int} :
    j.toTree.readInteger least greatest = .ok i ↔ j = .integer i ∧ least ≤ i ∧ i ≤ greatest := by
  cases j with
  | number n =>
    cases n with
    | integer k =>
      simp only [toTree, Tree.readInteger, integer, Json.number.injEq, Number.integer.injEq]
      split
      · rename_i hbounds
        rw [Except.ok.injEq]
        refine ⟨?_, And.left⟩
        rintro rfl
        exact ⟨rfl, hbounds⟩
      · rename_i hbounds
        refine iff_of_false nofun ?_
        rintro ⟨rfl, hbounds'⟩
        exact hbounds hbounds'
    | float x => simp [toTree, Tree.readInteger, integer]
  | _ => simp [toTree, Tree.readInteger, integer]

/-- A value that is read where it may be missing is read, or null is in its place. -/
theorem readOptional_eq_ok {read : Tree → Except Fault α} {t : Tree} {value : Option α} :
    t.readOptional read = .ok value ↔
      (t = .null ∧ value = none) ∨ (t ≠ .null ∧ ∃ v, read t = .ok v ∧ value = some v) := by
  have hread : (read t).map some = .ok value ↔ ∃ v, read t = .ok v ∧ value = some v :=
    map_eq_ok.trans (exists_congr fun _ ↦ and_congr_right fun _ ↦ eq_comm)
  cases t with
  | null => simp [Tree.readOptional, eq_comm]
  | _ => simp [Tree.readOptional, hread]

/-! ### Lists and maps -/

/-- Each item of a list was read from a tree. -/
theorem exists_read_of_readList {read : Nat → Tree → Except Fault α} {t : Tree} {values : List α}
    (h : t.readList room read = .ok values) :
    ∀ value ∈ values, ∃ inner p, read inner p = .ok value := by
  have hitems {inner : Nat} {items : List Tree} {values : List α}
      (h : readItems (read inner) items = .ok values) :
      ∀ value ∈ values, ∃ p, read inner p = .ok value := by
    induction items generalizing values with
    | nil =>
      cases h
      exact nofun
    | cons p items ih =>
      obtain ⟨value, hvalue, h⟩ := bind_eq_ok.mp h
      obtain ⟨later, hlater, h⟩ := bind_eq_ok.mp h
      obtain rfl := Except.ok.inj h
      exact List.forall_mem_cons.mpr ⟨⟨p, hvalue⟩, ih hlater⟩
  unfold Tree.readList at h
  split at h
  · cases room with
    | zero => cases h
    | succ inner =>
      obtain ⟨later, hlater, h⟩ := bind_eq_ok.mp h
      obtain ⟨_, -, h⟩ := bind_eq_ok.mp h
      obtain rfl := Except.ok.inj h
      exact fun value hmem ↦ ⟨inner, hitems hlater value hmem⟩
  · cases h

theorem readItems_itemTrees {read : Tree → Except Fault α} {items : List Json} {values : List α} :
    readItems read (itemTrees items) = .ok values ↔
      List.Forall₂ (fun item value ↦ read item.toTree = .ok value) items values := by
  induction items generalizing values with
  | nil => simp [itemTrees, readItems, eq_comm]
  | cons item items ih =>
    rw [itemTrees, readItems, bind_eq_ok]
    constructor
    · rintro ⟨value, hvalue, h⟩
      obtain ⟨later, hlater, h⟩ := bind_eq_ok.mp h
      cases h
      exact .cons hvalue (ih.mp hlater)
    · intro h
      cases h with
      | cons hvalue hlater =>
        refine ⟨_, hvalue, bind_eq_ok.mpr ⟨_, ih.mpr hlater, ?_⟩⟩
        rfl

theorem readList_toTree {read : Nat → Tree → Except Fault α} {values : List α} :
    j.toTree.readList room read = .ok values ↔ ∃ items inner, j = .array items ∧
      room = inner + 1 ∧
      List.Forall₂ (fun item value ↦ read inner item.toTree = .ok value) items values := by
  cases j with
  | array items =>
    cases room with
    | zero => simp [toTree, Tree.readList]
    | succ inner =>
      rw [toTree, Tree.readList]
      simp only [bind_eq_ok, Ending.check, Except.ok.injEq, exists_eq_right, exists_const,
        Json.array.injEq, Nat.add_right_cancel_iff, readItems_itemTrees, true_and,
        exists_eq_left', exists_and_left]
  | _ => simp [toTree, Tree.readList]

theorem readValues_eq_membersToJson (members : List (Quoted × Tree)) :
    readValues (Tree.toJson room) members = membersToJson room members := by
  induction members with
  | nil => rfl
  | cons m members ih => rw [readValues, membersToJson, ih]

theorem readValues_memberTrees {members values : List (String × Json)} :
    readValues (Tree.toJson room) (memberTrees members) = .ok values ↔
      membersDepth members ≤ room ∧ values = sortedMembers members := by
  rw [readValues_eq_membersToJson, toJson_memberTrees]
  split_ifs with hdepth
  · simp [hdepth, eq_comm]
  · simp [hdepth]

theorem readMap_toTree {values : List (String × Json)} :
    j.toTree.readMap room (fun room t ↦ t.toJson room) = .ok values ↔
      ∃ members inner, j = .object members ∧ room = inner + 1 ∧ membersDepth members ≤ inner ∧
        values = sortMembers (sortedMembers members) := by
  cases j with
  | object members =>
    cases room with
    | zero => simp [toTree, Tree.readMap]
    | succ inner =>
      rw [toTree, Tree.readMap]
      simp only [bind_eq_ok, Ending.check, Except.ok.injEq, exists_const, true_and,
        Json.object.injEq, Nat.add_right_cancel_iff, readValues_memberTrees]
      constructor
      · rintro ⟨_, ⟨hdepth, rfl⟩, rfl⟩
        exact ⟨members, inner, rfl, rfl, hdepth, rfl⟩
      · rintro ⟨_, _, rfl, rfl, hdepth, rfl⟩
        exact ⟨_, ⟨hdepth, rfl⟩, rfl⟩
  | _ => simp [toTree, Tree.readMap]

/-! ### Parts -/

/-- The part of a document that stands at a place: a member of its name or the item of its number.
-/
inductive Part : Json → Nat → String → Json → Prop
  | member {members : List (String × Json)} {i : Nat} {name : String} {v : Json}
      (h : (name, v) ∈ members) : Part (.object members) i name v
  | item {items : List Json} {i : Nat} {name : String} {v : Json} (h : items[i]? = some v) :
      Part (.array items) i name v

variable {name : String} {i : Nat} {members : List (String × Json)}

theorem named_memberTrees {p : Tree} :
    Named (memberTrees members) name p ↔ ∃ v, (name, v) ∈ members ∧ p = v.toTree := by
  induction members with
  | nil => simp [memberTrees, Named]
  | cons m members ih =>
    rw [memberTrees, named_cons, ih]
    simp only [Except.ok.injEq, List.mem_cons]
    constructor
    · rintro (⟨rfl, rfl⟩ | ⟨v, hv, hp⟩)
      · exact ⟨m.2, .inl rfl, rfl⟩
      · exact ⟨v, .inr hv, hp⟩
    · rintro ⟨v, rfl | hv, rfl⟩
      · exact .inl ⟨rfl, rfl⟩
      · exact .inr ⟨v, hv, rfl⟩

theorem getElem?_itemTrees (items : List Json) (i : Nat) :
    (itemTrees items)[i]? = items[i]?.map toTree := by
  have hmap : itemTrees items = items.map toTree := by
    induction items with
    | nil => rfl
    | cons item items ih => rw [itemTrees, ih, List.map_cons]
  rw [hmap, List.getElem?_map]

/-- The parts of a document's own tree are the trees of its parts. -/
theorem part_toTree {v : Json} (h : j.Part i name v) : j.toTree.Part i name v.toTree := by
  cases h with
  | member h => exact .member (named_memberTrees.mpr ⟨v, h, rfl⟩)
  | item h => exact .item (by rw [getElem?_itemTrees, h, Option.map_some])

/-- A record is read from an object, or from an array that has no more items than the record has
slots. -/
theorem object_or_array_of_readRecord {slots : Nat → List (Slot α)} {keepsRest : Bool}
    {read : List α × List (String × Json)}
    (h : readRecord room slots keepsRest j.toTree = .ok read) :
    (∃ members, j = .object members) ∨
      ∃ items inner, j = .array items ∧ items.length ≤ (slots inner).length := by
  have hlength {slots : List (Slot α)} {items : List Tree} {values : List α}
      (h : fillItems .closed slots items = .ok values) : items.length ≤ slots.length := by
    induction slots generalizing items values with
    | nil =>
      cases items with
      | nil => exact Nat.le_refl _
      | cons => cases h
    | cons slot slots ih =>
      cases items with
      | nil => exact Nat.zero_le _
      | cons t items =>
        obtain ⟨_, -, h⟩ := bind_eq_ok.mp h
        obtain ⟨later, hlater, -⟩ := bind_eq_ok.mp h
        exact Nat.succ_le_succ (ih hlater)
  have htrees (items : List Json) : (itemTrees items).length = items.length := by
    induction items with
    | nil => rfl
    | cons item items ih => rw [itemTrees, List.length_cons, List.length_cons, ih]
  cases j with
  | object members => exact .inl ⟨members, rfl⟩
  | array items =>
    cases keepsRest with
    | true => cases h
    | false =>
      cases room with
      | zero => cases h
      | succ inner =>
        obtain ⟨filled, hfilled, -⟩ := bind_eq_ok.mp h
        exact .inr ⟨items, inner, rfl, htrees items ▸ hlength hfilled⟩
  | null | bool | number | string => cases h

/-- The members that are kept of a document are those without a slot, each with its value in order.
-/
theorem rest_of_readMembers {slots : List (Slot α)} {seen : List String} {found : Members α}
    (h : readMembers room slots true seen (memberTrees members) = .ok found) :
    found.rest = (members.filter fun m ↦ (slots.find? (·.hasName m.1)).isNone).map
      fun m ↦ (m.1, m.2.sorted) := by
  induction members generalizing seen found with
  | nil =>
    cases h
    rfl
  | cons m members ih =>
    rw [memberTrees] at h
    cases readMembers_cons.mp h with
    | placed hkey hfind _ _ hlater =>
      obtain rfl := Except.ok.inj hkey
      rw [List.filter_cons_of_neg (by simp [hfind]), ← ih hlater]
    | kept hkey hfind _ hvalue hlater =>
      obtain rfl := Except.ok.inj hkey
      rw [toJson_toTree] at hvalue
      split at hvalue
      · obtain rfl := Except.ok.inj hvalue
        rw [List.filter_cons_of_pos (by simp [hfind]), List.map_cons, ← ih hlater]
      · cases hvalue
    | passed _ _ hkeeps => cases hkeeps

end SearchClient.Json

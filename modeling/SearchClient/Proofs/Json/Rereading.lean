import SearchClient.Proofs.Json.Values

/-!
# Documents that are read again

A document that was read has the members of all its objects in order (`sorted_of_toJson`), and every
document is read back from its own tree with its members put in order, if enough containers may be
entered (`toJson_toTree`). So what was read once is read again as it is.
-/

set_option autoImplicit false
set_option relaxedAutoImplicit false

namespace SearchClient.Json

variable {room : Nat}

theorem sortedMembers_eq_map (members : List (String × Json)) :
    sortedMembers members = members.map fun m ↦ (m.1, m.2.sorted) := by
  induction members with
  | nil => rfl
  | cons m members ih => rw [sortedMembers, ih, List.map_cons]

theorem sortedMembers_of_forall {members : List (String × Json)}
    (h : ∀ m ∈ members, m.2.sorted = m.2) : sortedMembers members = members := by
  induction members with
  | nil => rfl
  | cons m members ih =>
    obtain ⟨hm, hmembers⟩ := List.forall_mem_cons.mp h
    rw [sortedMembers, hm, ih hmembers]

theorem sortedItems_of_forall {items : List Json} (h : ∀ item ∈ items, item.sorted = item) :
    sortedItems items = items := by
  induction items with
  | nil => rfl
  | cons item items ih =>
    obtain ⟨hitem, hitems⟩ := List.forall_mem_cons.mp h
    rw [sortedItems, hitem, ih hitems]

theorem itemsDepth_le {items : List Json} :
    itemsDepth items ≤ room ↔ ∀ item ∈ items, item.depth ≤ room := by
  induction items with
  | nil => simp [itemsDepth]
  | cons item items ih => rw [itemsDepth, Nat.max_le, ih, List.forall_mem_cons]

theorem membersDepth_le {members : List (String × Json)} :
    membersDepth members ≤ room ↔ ∀ m ∈ members, m.2.depth ≤ room := by
  induction members with
  | nil => simp [membersDepth]
  | cons m members ih => rw [membersDepth, Nat.max_le, ih, List.forall_mem_cons]

theorem array_depth_le {items : List Json} : (Json.array items).depth ≤ room ↔
    ∃ inner, room = inner + 1 ∧ ∀ item ∈ items, item.depth ≤ inner := by
  cases room with
  | zero => simp [depth]
  | succ inner => simp [depth, itemsDepth_le]

theorem object_depth_le {members : List (String × Json)} : (Json.object members).depth ≤ room ↔
    ∃ inner, room = inner + 1 ∧ ∀ m ∈ members, m.2.depth ≤ inner := by
  cases room with
  | zero => simp [depth]
  | succ inner => simp [depth, membersDepth_le]

theorem depth_lt_array {item : Json} {items : List Json} (h : item ∈ items) :
    item.depth < (Json.array items).depth :=
  Nat.lt_succ_of_le (itemsDepth_le.mp (Nat.le_refl _) item h)

theorem depth_lt_object {m : String × Json} {members : List (String × Json)} (h : m ∈ members) :
    m.2.depth < (Json.object members).depth :=
  Nat.lt_succ_of_le (membersDepth_le.mp (Nat.le_refl _) m h)

/-! ### What is read is in order -/

mutual

/-- What is read has the members of all its objects in order. -/
theorem sorted_of_toJson : (t : Tree) → {room : Nat} → {j : Json} → t.toJson room = .ok j →
    j.sorted = j
  | .null, _, _, h | .bool _, _, _, h => by
    obtain rfl := Except.ok.inj h
    rfl
  | .number _ value, _, _, h => by
    obtain ⟨n, -, rfl⟩ := map_eq_ok.mp h
    rfl
  | .string s, _, _, h => by
    obtain ⟨content, -, rfl⟩ := map_eq_ok.mp h
    rfl
  | .array _ items ending, room + 1, _, h => by
    obtain ⟨js, hjs, h⟩ := bind_eq_ok.mp h
    obtain ⟨_, -, h⟩ := bind_eq_ok.mp h
    obtain rfl := Except.ok.inj h
    exact congrArg Json.array (sortedItems_of_forall (sorted_of_itemsToJson items hjs))
  | .object _ members ending, room + 1, _, h => by
    obtain ⟨ms, hms, h⟩ := bind_eq_ok.mp h
    obtain ⟨_, -, h⟩ := bind_eq_ok.mp h
    obtain rfl := Except.ok.inj h
    have hsorted := sorted_of_membersToJson members hms
    have hmembers : ∀ m ∈ sortMembers ms, m.2.sorted = m.2 := fun m hm ↦
      hsorted m (mem_of_mem_sortMembers hm)
    rw [ofMembers, sorted, sortedMembers_of_forall hmembers, ofMembers,
      sortMembers_of_inOrder (inOrder_sortMembers ms)]

theorem sorted_of_itemsToJson : (items : List Tree) → {room : Nat} → {js : List Json} →
    itemsToJson room items = .ok js → ∀ j ∈ js, j.sorted = j
  | [], _, _, h => by
    obtain rfl := Except.ok.inj h
    exact nofun
  | t :: items, _, _, h => by
    obtain ⟨j, js, hj, hjs, rfl⟩ := itemsToJson_cons.mp h
    exact List.forall_mem_cons.mpr ⟨sorted_of_toJson t hj, sorted_of_itemsToJson items hjs⟩

theorem sorted_of_membersToJson : (members : List (Quoted × Tree)) → {room : Nat} →
    {ms : List (String × Json)} → membersToJson room members = .ok ms → ∀ m ∈ ms, m.2.sorted = m.2
  | [], _, _, h => by
    obtain rfl := Except.ok.inj h
    exact nofun
  | (key, t) :: members, _, _, h => by
    obtain ⟨name, -, h⟩ := bind_eq_ok.mp h
    obtain ⟨j, hj, h⟩ := bind_eq_ok.mp h
    obtain ⟨ms, hms, h⟩ := bind_eq_ok.mp h
    obtain rfl := Except.ok.inj h
    exact List.forall_mem_cons.mpr ⟨sorted_of_toJson t hj, sorted_of_membersToJson members hms⟩

end

/-! ### Trees of documents -/

mutual

/-- A document is read back from its own tree with its members in order, unless it is too deep. -/
theorem toJson_toTree : (j : Json) → (room : Nat) →
    j.toTree.toJson room = if j.depth ≤ room then .ok j.sorted else .error .malformed
  | .null, _ | .bool _, _ | .number _, _ | .string _, _ => rfl
  | .array items, 0 => rfl
  | .object members, 0 => rfl
  | .array items, room + 1 => by
    rw [toTree, Tree.toJson, toJson_itemTrees items room]
    simp only [depth, Nat.add_le_add_iff_right]
    split_ifs <;> rfl
  | .object members, room + 1 => by
    rw [toTree, Tree.toJson, toJson_memberTrees members room]
    simp only [depth, Nat.add_le_add_iff_right]
    split_ifs <;> rfl

theorem toJson_itemTrees : (items : List Json) → (room : Nat) →
    itemsToJson room (itemTrees items) =
      if itemsDepth items ≤ room then .ok (sortedItems items) else .error .malformed
  | [], _ => rfl
  | item :: items, room => by
    rw [itemTrees, itemsToJson, toJson_toTree item room, toJson_itemTrees items room]
    simp only [itemsDepth, Nat.max_le]
    by_cases hitem : item.depth ≤ room
    · by_cases hitems : itemsDepth items ≤ room
      · simp [hitem, hitems, sortedItems]
        rfl
      · simp [hitem, hitems]
        rfl
    · simp [hitem]
      rfl

theorem toJson_memberTrees : (members : List (String × Json)) → (room : Nat) →
    membersToJson room (memberTrees members) =
      if membersDepth members ≤ room then .ok (sortedMembers members) else .error .malformed
  | [], _ => rfl
  | (name, value) :: members, room => by
    rw [memberTrees, membersToJson, toJson_toTree value room, toJson_memberTrees members room]
    simp only [membersDepth, Nat.max_le]
    by_cases hvalue : value.depth ≤ room
    · by_cases hmembers : membersDepth members ≤ room
      · simp [hvalue, hmembers, sortedMembers]
        rfl
      · simp [hvalue, hmembers]
        rfl
    · simp [hvalue]
      rfl

end

/-- What is read of a document's own tree is the document with its members in order. -/
theorem eq_sorted_of_toJson {j read : Json} (h : j.toTree.toJson room = .ok read) :
    read = j.sorted := by
  rw [toJson_toTree] at h
  split at h
  · exact (Except.ok.inj h).symm
  · cases h

end SearchClient.Json

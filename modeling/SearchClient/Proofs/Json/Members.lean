import SearchClient.Json.Basic
import Mathlib.Data.List.Basic
import Mathlib.Data.List.Induction
import Mathlib.Data.List.Nodup
import Mathlib.Data.List.Sort
import Mathlib.Tactic.SplitIfs

/-!
# Members in order

Members put in the order of their names are in order (`inOrder_sortMembers`), and members that are
in order stay as they are (`sortMembers_of_inOrder`). The order is one of names alone, so it does
not matter whether values are changed before or after (`sortMembers_map`).
-/

set_option autoImplicit false
set_option relaxedAutoImplicit false

namespace SearchClient.Json

variable {α β : Type} {members : List (String × α)} {key : String} {value : α}

/-- Members in the order of their names, each name once. -/
def InOrder (members : List (String × α)) : Prop :=
  members.Pairwise fun m m' ↦ m.1 < m'.1

/-- Where names are told apart, what is found by a name is the one thing that has it. -/
theorem find?_eq_some_iff_of_nodup {f : α → String} {p : α → Bool} {xs : List α} {x : α}
    {name : String} (hnodup : (xs.map f).Nodup) (hp : ∀ x ∈ xs, p x = true ↔ f x = name) :
    xs.find? p = some x ↔ x ∈ xs ∧ f x = name := by
  constructor
  · intro hfind
    have hx := List.mem_of_find?_eq_some hfind
    exact ⟨hx, (hp x hx).mp (List.find?_some hfind)⟩
  · rintro ⟨hx, hname⟩
    cases hfind : xs.find? p with
    | none => exact absurd ((hp x hx).mpr hname) (List.find?_eq_none.mp hfind x hx)
    | some y =>
      have hy := List.mem_of_find?_eq_some hfind
      have hsame : f y = f x := ((hp y hy).mp (List.find?_some hfind)).trans hname.symm
      rw [List.inj_on_of_nodup_map hnodup hy hx hsame]

/-- Nothing is found by a name that no member has. -/
theorem find?_name_eq_none_iff :
    members.find? (·.1 == key) = none ↔ ∀ value, (key, value) ∉ members := by
  rw [List.find?_eq_none]
  constructor
  · exact fun h value hmem ↦ h _ hmem (beq_self_eq_true key)
  · rintro h ⟨key', value⟩ hmem hkey
    cases eq_of_beq hkey
    exact h value hmem

/-- Members in order are told apart by their names. -/
theorem InOrder.pairwise_names (h : InOrder members) : (members.map (·.1)).Pairwise (· < ·) :=
  List.pairwise_map.mpr h

theorem InOrder.nodup_names (h : InOrder members) : (members.map (·.1)).Nodup := by
  refine h.pairwise_names.imp fun hlt heq ↦ ?_
  subst heq
  exact String.lt_irrefl _ hlt

/-- Members in order are the same if the same members are among them. -/
theorem InOrder.eq_of_mem_iff {members' : List (String × α)} (h : InOrder members)
    (h' : InOrder members') (hmem : ∀ m, m ∈ members ↔ m ∈ members') : members = members' := by
  have : Std.Irrefl fun m m' : String × α ↦ m.1 < m'.1 := ⟨fun _ ↦ String.lt_irrefl _⟩
  have : Std.Antisymm fun m m' : String × α ↦ m.1 < m'.1 :=
    ⟨fun _ _ hlt hgt ↦ absurd hgt (String.lt_asymm hlt)⟩
  exact List.Pairwise.eq_of_mem_iff h h' hmem

/-- A member is the one that was added, or was there before. -/
theorem mem_insertMember {m : String × α} (h : m ∈ insertMember key value members) :
    m = (key, value) ∨ m ∈ members := by
  induction members with
  | nil => exact .inl (List.mem_singleton.mp h)
  | cons first members ih =>
    rw [insertMember] at h
    split_ifs at h with hbefore hsame
    · obtain rfl | h := List.mem_cons.mp h
      · exact .inl rfl
      · exact .inr h
    · obtain rfl | h := List.mem_cons.mp h
      · exact .inl rfl
      · exact .inr (List.mem_cons_of_mem _ h)
    · obtain rfl | h := List.mem_cons.mp h
      · exact .inr List.mem_cons_self
      · exact (ih h).imp_right (List.mem_cons_of_mem _)

theorem InOrder.insertMember (h : InOrder members) (key : String) (value : α) :
    InOrder (insertMember key value members) := by
  induction members with
  | nil => exact List.pairwise_singleton ..
  | cons first members ih =>
    obtain ⟨hfirst, hmembers⟩ := List.pairwise_cons.mp h
    rw [Json.insertMember]
    split_ifs with hbefore hsame
    · refine List.pairwise_cons.mpr ⟨fun m hm ↦ ?_, h⟩
      obtain rfl | hm := List.mem_cons.mp hm
      · exact hbefore
      · exact String.lt_trans hbefore (hfirst m hm)
    · refine List.pairwise_cons.mpr ⟨fun m hm ↦ ?_, hmembers⟩
      rw [hsame]
      exact hfirst m hm
    · refine List.pairwise_cons.mpr ⟨fun m hm ↦ ?_, ih hmembers⟩
      obtain rfl | hm := mem_insertMember hm
      · refine Decidable.byContradiction fun hafter ↦ hsame ?_
        exact String.le_antisymm (String.not_lt.mp hafter) (String.not_lt.mp hbefore)
      · exact hfirst m hm

theorem inOrder_sortMembers (members : List (String × α)) : InOrder (sortMembers members) := by
  have hfold (sorted : List (String × α)) (h : InOrder sorted) :
      InOrder (members.foldl (fun sorted m ↦ insertMember m.1 m.2 sorted) sorted) := by
    induction members generalizing sorted with
    | nil => exact h
    | cons m members ih => exact ih _ (h.insertMember m.1 m.2)
  exact hfold [] .nil

/-- A member that was added takes the place of the one of its name, and the others stay. -/
theorem InOrder.mem_insertMember_iff (h : InOrder members) {m : String × α} :
    m ∈ Json.insertMember key value members ↔
      m = (key, value) ∨ (m.1 ≠ key ∧ m ∈ members) := by
  have hbehind {first : String × α} {others : List (String × α)}
      (h : InOrder (first :: others)) (hle : key ≤ first.1) (hm : m ∈ others) : m.1 ≠ key := by
    rintro rfl
    exact String.not_lt.mpr hle (List.rel_of_pairwise_cons h hm)
  induction members with
  | nil => simp [Json.insertMember]
  | cons first members ih =>
    rw [Json.insertMember]
    split_ifs with hbefore hsame
    · rw [List.mem_cons]
      refine or_congr_right ⟨fun hm ↦ ⟨?_, hm⟩, And.right⟩
      obtain rfl | hm := List.mem_cons.mp hm
      · rintro rfl
        exact String.lt_irrefl _ hbefore
      · exact hbehind h (String.not_lt.mp (String.lt_asymm hbefore)) hm
    · rw [List.mem_cons]
      refine or_congr_right ⟨fun hm ↦ ⟨?_, List.mem_cons_of_mem _ hm⟩, ?_⟩
      · exact hbehind h (hsame ▸ String.le_refl _) hm
      · rintro ⟨hne, hm⟩
        obtain rfl | hm := List.mem_cons.mp hm
        · exact absurd hsame.symm hne
        · exact hm
    · have hothers := ih (List.pairwise_cons.mp h).2
      refine (List.mem_cons.trans (or_congr_right hothers)).trans ?_
      rw [List.mem_cons]
      constructor
      · rintro (rfl | rfl | ⟨hne, hm⟩)
        · exact .inr ⟨Ne.symm hsame, .inl rfl⟩
        · exact .inl rfl
        · exact .inr ⟨hne, .inr hm⟩
      · rintro (rfl | ⟨hne, rfl | hm⟩)
        · exact .inr (.inl rfl)
        · exact .inl rfl
        · exact .inr (.inr ⟨hne, hm⟩)

/-- Of the members of one name the last stays. -/
theorem mem_sortMembers_iff {m : String × α} :
    m ∈ sortMembers members ↔ members.reverse.find? (·.1 == m.1) = some m := by
  induction members using List.reverseRecOn with
  | nil => simp [sortMembers]
  | append_singleton members last ih =>
    have hsort : sortMembers (members ++ [last]) =
        insertMember last.1 last.2 (sortMembers members) := by
      simp [sortMembers, List.foldl_append]
    rw [hsort, (inOrder_sortMembers members).mem_insertMember_iff, List.reverse_concat]
    by_cases hlast : m.1 = last.1
    · have hfind : (last :: members.reverse).find? (·.1 == m.1) = some last :=
        List.find?_cons_of_pos (by simpa using hlast.symm)
      rw [hfind]
      simp [hlast, eq_comm]
    · have hfind : (last :: members.reverse).find? (·.1 == m.1) =
          members.reverse.find? (·.1 == m.1) :=
        List.find?_cons_of_neg (by simpa using Ne.symm hlast)
      have hother : m ≠ (last.1, last.2) := by
        rintro rfl
        exact hlast rfl
      rw [hfind, ← ih]
      simp [hlast, hother]

/-- Whether members of other names are there does not matter to a member. -/
theorem mem_sortMembers_filter {m : String × α} {p : String → Bool} (h : m ∈ sortMembers members)
    (hp : p m.1 = true) : m ∈ sortMembers (members.filter (p ·.1)) := by
  have hfind : (members.filter (p ·.1)).reverse.find? (·.1 == m.1) =
      members.reverse.find? (·.1 == m.1) := by
    rw [← List.filter_reverse, List.find?_filter]
    refine congrArg (members.reverse.find? ·) (funext fun m' ↦ ?_)
    by_cases hname : m'.1 = m.1
    · simp [hname, hp]
    · simp [hname]
  rw [mem_sortMembers_iff, hfind]
  exact mem_sortMembers_iff.mp h

theorem sortMembers_ne_nil (h : members ≠ []) : sortMembers members ≠ [] := by
  obtain ⟨others, last, rfl⟩ := (List.eq_nil_or_concat' members).resolve_left h
  have hlast : last ∈ sortMembers (others ++ [last]) := mem_sortMembers_iff.mpr (by simp)
  exact List.ne_nil_of_mem hlast

theorem mem_of_mem_sortMembers {m : String × α} (h : m ∈ sortMembers members) : m ∈ members :=
  List.mem_reverse.mp (List.mem_of_find?_eq_some (mem_sortMembers_iff.mp h))

/-- A member behind all others goes to the end. -/
theorem insertMember_last (h : ∀ m ∈ members, m.1 < key) (value : α) :
    insertMember key value members = members ++ [(key, value)] := by
  induction members with
  | nil => rfl
  | cons first members ih =>
    obtain ⟨hfirst, hmembers⟩ := List.forall_mem_cons.mp h
    rw [insertMember, if_neg (String.lt_asymm hfirst), if_neg, ih hmembers, List.cons_append]
    rintro rfl
    exact String.lt_irrefl _ hfirst

theorem foldl_insertMember (sorted : List (String × α)) (h : InOrder (sorted ++ members)) :
    members.foldl (fun sorted m ↦ insertMember m.1 m.2 sorted) sorted = sorted ++ members := by
  induction members generalizing sorted with
  | nil => exact (List.append_nil _).symm
  | cons m members ih =>
    have hlast (m' : String × α) (hm' : m' ∈ sorted) : m'.1 < m.1 :=
      (List.pairwise_append.mp h).2.2 m' hm' m List.mem_cons_self
    rw [List.foldl_cons, insertMember_last hlast, ih, List.append_assoc, List.singleton_append]
    rwa [List.append_assoc, List.singleton_append]

/-- Members in order stay as they are. -/
theorem sortMembers_of_inOrder (h : InOrder members) : sortMembers members = members :=
  foldl_insertMember [] h

theorem insertMember_map (f : α → β) (key : String) (value : α) (members : List (String × α)) :
    insertMember key (f value) (members.map fun m ↦ (m.1, f m.2)) =
      (insertMember key value members).map fun m ↦ (m.1, f m.2) := by
  induction members with
  | nil => rfl
  | cons first members ih =>
    rw [List.map_cons, insertMember, insertMember, ih]
    split_ifs <;> rfl

theorem sortMembers_map (f : α → β) (members : List (String × α)) :
    sortMembers (members.map fun m ↦ (m.1, f m.2)) =
      (sortMembers members).map fun m ↦ (m.1, f m.2) := by
  have hfold (sorted : List (String × α)) :
      (members.map fun m ↦ (m.1, f m.2)).foldl (fun sorted m ↦ insertMember m.1 m.2 sorted)
          (sorted.map fun m ↦ (m.1, f m.2)) =
        (members.foldl (fun sorted m ↦ insertMember m.1 m.2 sorted) sorted).map
          fun m ↦ (m.1, f m.2) := by
    induction members generalizing sorted with
    | nil => rfl
    | cons m members ih =>
      rw [List.map_cons, List.foldl_cons, List.foldl_cons, ← ih, ← insertMember_map]
  exact hfold []

end SearchClient.Json

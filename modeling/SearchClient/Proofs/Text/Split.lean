import SearchClient.Text.Split
import Mathlib.Tactic.SplitIfs

/-!
# Pieces of cut texts

A text without the separator is one piece, no piece has the separator in it, and pieces with the
separator behind each (`split_ended`) or between each two of them (`split_join`) are found again.
A character of a text is the separator or stands in one of the pieces (`mem_split`). A beginning or
an ending is dropped exactly from the texts that have it (`dropPrefix?_eq_some_iff`,
`dropSuffix?_eq_some_iff`).
-/

set_option autoImplicit false
set_option relaxedAutoImplicit false

namespace SearchClient.Text

variable {sep : Char} {cs : List Char}

/-- A text without the separator is one piece. -/
theorem split_of_not_mem (h : sep ∉ cs) : split sep cs = [cs] := by
  induction cs with
  | nil => rfl
  | cons c cs ih =>
    rw [List.mem_cons, not_or] at h
    rw [split, ih h.2]
    simp [Ne.symm h.1]

/-- No piece has the separator in it. -/
theorem not_mem_of_mem_split {piece : List Char} (h : piece ∈ split sep cs) : sep ∉ piece := by
  induction cs generalizing piece with
  | nil => simp_all [split]
  | cons c cs ih =>
    unfold split at h
    generalize hpieces : split sep cs = pieces at h ih
    cases pieces with
    | nil => exact absurd hpieces (split_ne_nil sep cs)
    | cons first others =>
      have hfirst := ih List.mem_cons_self
      have hothers (p : List Char) (hp : p ∈ others) := ih (List.mem_cons_of_mem first hp)
      simp only at h
      split_ifs at h with hc
      · obtain rfl | rfl | h := by simpa using h
        · exact List.not_mem_nil
        · exact hfirst
        · exact hothers piece h
      · obtain rfl | h := List.mem_cons.mp h
        · simpa [Ne.symm hc] using hfirst
        · exact hothers piece h

/-- Pieces with the separator behind each are found again, and an empty one behind the last. -/
theorem split_ended {pieces : List (List Char)} (h : ∀ piece ∈ pieces, sep ∉ piece) :
    split sep (pieces.flatMap (· ++ [sep])) = pieces ++ [[]] := by
  induction pieces with
  | nil => rfl
  | cons piece pieces ih =>
    obtain ⟨hpiece, hpieces⟩ := List.forall_mem_cons.mp h
    rw [List.flatMap_cons, List.append_assoc, List.singleton_append, split_append,
      split_of_not_mem hpiece, ih hpieces, List.singleton_append, List.cons_append]

/-- Pieces with separators between them are found again. -/
theorem split_join {pieces : List (List Char)} (hne : pieces ≠ [])
    (h : ∀ piece ∈ pieces, sep ∉ piece) : split sep (join [sep] pieces) = pieces := by
  induction pieces with
  | nil => exact absurd rfl hne
  | cons piece pieces ih =>
    obtain ⟨hpiece, hpieces⟩ := List.forall_mem_cons.mp h
    cases pieces with
    | nil => exact split_of_not_mem hpiece
    | cons next pieces =>
      rw [join, List.append_assoc, List.singleton_append, split_append, split_of_not_mem hpiece,
        ih (by simp) hpieces, List.singleton_append]

theorem join_eq_intercalate (sep : List Char) (pieces : List (List Char)) :
    join sep pieces = sep.intercalate pieces := by
  induction pieces with
  | nil => rfl
  | cons piece pieces ih =>
    cases pieces with
    | nil => simp [join]
    | cons next pieces =>
      rw [join, ih]
      simp

/-- A text is cut at the first separator. -/
theorem splitFirst_append {front : List Char} (h : sep ∉ front) (back : List Char) :
    splitFirst sep (front ++ sep :: back) = some (front, back) := by
  induction front with
  | nil => simp [splitFirst]
  | cons c front ih =>
    rw [List.mem_cons, not_or] at h
    rw [List.cons_append, splitFirst, if_neg (Ne.symm h.1), ih h.2, Option.map_some]

theorem splitFirst_eq_none_iff : splitFirst sep cs = none ↔ sep ∉ cs := by
  induction cs with
  | nil => simp [splitFirst]
  | cons c cs ih =>
    rw [splitFirst]
    split_ifs with hc
    · simp [hc]
    · simp [ih, Ne.symm hc]

/-- A text is cut at the first separator, if there is one. -/
theorem splitFirst_eq_some_iff {front back : List Char} :
    splitFirst sep cs = some (front, back) ↔ cs = front ++ sep :: back ∧ sep ∉ front := by
  constructor
  · intro h
    induction cs generalizing front with
    | nil => cases h
    | cons c cs ih =>
      rw [splitFirst] at h
      split_ifs at h with hc
      · cases h
        simp [hc]
      · obtain ⟨⟨front, back⟩, hrest, heq⟩ := Option.map_eq_some_iff.mp h
        cases heq
        obtain ⟨rfl, hfront⟩ := ih hrest
        exact ⟨rfl, by simp [hfront, Ne.symm hc]⟩
  · rintro ⟨rfl, hfront⟩
    exact splitFirst_append hfront back

theorem splitLast_eq_none_iff : splitLast sep cs = none ↔ sep ∉ cs := by
  rw [splitLast, Option.map_eq_none_iff, splitFirst_eq_none_iff, List.mem_reverse]

/-- A text is cut at the last separator, if there is one. -/
theorem splitLast_eq_some_iff {front back : List Char} :
    splitLast sep cs = some (front, back) ↔ cs = front ++ sep :: back ∧ sep ∉ back := by
  have hreverse : cs.reverse = back.reverse ++ sep :: front.reverse ↔
      cs = front ++ sep :: back := by
    rw [← List.reverse_inj]
    simp
  rw [splitLast, Option.map_eq_some_iff, ← hreverse, ← List.mem_reverse, ← splitFirst_eq_some_iff]
  constructor
  · rintro ⟨⟨after, before⟩, hsplit, heq⟩
    cases heq
    simpa using hsplit
  · exact fun hsplit ↦ ⟨_, hsplit, by simp⟩

section Members

variable {c : Char} {pieces : List (List Char)}

theorem mem_of_mem_join {between : List Char} (h : c ∈ join between pieces) :
    c ∈ between ∨ ∃ piece ∈ pieces, c ∈ piece := by
  induction pieces with
  | nil => cases h
  | cons first pieces ih =>
    cases pieces with
    | nil => exact .inr ⟨first, List.mem_cons_self, h⟩
    | cons next pieces =>
      rw [join, List.append_assoc, List.mem_append, List.mem_append] at h
      obtain h | h | h := h
      · exact .inr ⟨first, List.mem_cons_self, h⟩
      · exact .inl h
      · refine (ih h).imp_right ?_
        rintro ⟨piece, hpiece, hc⟩
        exact ⟨piece, List.mem_cons_of_mem first hpiece, hc⟩

/-- A character of a text is the separator or stands in a piece. -/
theorem mem_split (sep : Char) (h : c ∈ cs) : c = sep ∨ ∃ piece ∈ split sep cs, c ∈ piece := by
  rw [← join_split sep cs] at h
  exact (mem_of_mem_join h).imp_left List.mem_singleton.mp

end Members

/-- A beginning is dropped from the texts that begin with it. -/
theorem dropPrefix?_eq_some_iff {start cs rest : List Char} :
    dropPrefix? start cs = some rest ↔ cs = start ++ rest := by
  induction start generalizing cs with
  | nil => simp [dropPrefix?]
  | cons s start ih =>
    cases cs with
    | nil => simp [dropPrefix?]
    | cons c cs =>
      rw [dropPrefix?]
      split_ifs with hc
      · simp [ih, hc]
      · simp [Ne.symm hc]

/-- An ending is dropped from the texts that end with it. -/
theorem dropSuffix?_eq_some_iff {ending cs front : List Char} :
    dropSuffix? ending cs = some front ↔ cs = front ++ ending := by
  rw [dropSuffix?, Option.map_eq_some_iff]
  simp only [dropPrefix?_eq_some_iff]
  constructor
  · rintro ⟨rest, heq, rfl⟩
    rw [← List.reverse_reverse cs, heq, List.reverse_append, List.reverse_reverse]
  · rintro rfl
    exact ⟨front.reverse, List.reverse_append, List.reverse_reverse front⟩

/-- A separator is dropped from the end of a text that ends with it. -/
theorem dropSuffix?_concat (sep c : Char) (front : List Char) :
    dropSuffix? [sep] (front ++ [c]) = if sep = c then some front else none := by
  rw [dropSuffix?, List.reverse_concat]
  simp only [List.reverse_singleton, dropPrefix?]
  split_ifs <;> simp

end SearchClient.Text

import SearchClient.Number.Decimal
import SearchClient.Text.Blank
import Mathlib.Data.List.TakeWhile
import Mathlib.Tactic.SplitIfs

/-!
# Blanks around a text

Trimming takes away whatever blanks stand around a text (`trim_surrounded`) and leaves a text that
neither begins nor ends with one as it is (`Tight.trim_eq_self`). What it leaves is always such a
text (`tight_trim`). A digit is no blank.
-/

set_option autoImplicit false
set_option relaxedAutoImplicit false

namespace SearchClient.Text

theorem not_isBlank_of_isDigit {c : Char} (h : Decimal.isDigit c = true) : isBlank c = false := by
  have hspace : c ≠ ' ' := by
    rintro rfl
    cases h
  simp only [Decimal.isDigit, Bool.and_eq_true, decide_eq_true_eq] at h
  have hleast : 48 ≤ c.toNat := h.1
  have hmost : c.toNat ≤ 57 := h.2
  simp [isBlank, hspace]
  omega

/-- A text that does not end in a blank. -/
def Solid (cs : List Char) : Prop := ∃ front c, cs = front ++ [c] ∧ isBlank c = false

theorem Solid.append {cs : List Char} (h : Solid cs) (front : List Char) : Solid (front ++ cs) := by
  obtain ⟨inner, c, rfl, hc⟩ := h
  exact ⟨front ++ inner, c, (List.append_assoc ..).symm, hc⟩

theorem Solid.cons {cs : List Char} (h : Solid cs) (c : Char) : Solid (c :: cs) :=
  h.append [c]

theorem solid_of_isDigit {cs : List Char} (hne : cs ≠ [])
    (h : ∀ c ∈ cs, Decimal.isDigit c = true) : Solid cs :=
  ⟨cs.dropLast, cs.getLast hne, (List.dropLast_concat_getLast hne).symm,
    not_isBlank_of_isDigit (h _ (List.getLast_mem hne))⟩

/-- Blanks around a text do not count. -/
theorem trim_surrounded {front back : List Char} (hfront : ∀ c ∈ front, isBlank c = true)
    (hback : ∀ c ∈ back, isBlank c = true) (cs : List Char) :
    trim (front ++ cs ++ back) = trim cs := by
  have hright (cs : List Char) : trimRight (cs ++ back) = trimRight cs := by
    rw [trimRight, List.reverse_append, List.dropWhile_append_of_pos, trimRight]
    exact fun c hc ↦ hback c (List.mem_reverse.mp hc)
  rw [trim, List.append_assoc, List.dropWhile_append_of_pos hfront, List.dropWhile_append, trim]
  split_ifs with hempty
  · have hgone : back.dropWhile isBlank = [] := List.dropWhile_eq_nil_iff.mpr hback
    rw [hgone, List.isEmpty_iff.mp hempty]
  · exact hright _

/-- A text that neither begins nor ends with a blank is trimmed. -/
theorem Solid.trim_eq_self {c : Char} {cs : List Char} (h : Solid (c :: cs))
    (hc : isBlank c = false) : trim (c :: cs) = c :: cs := by
  obtain ⟨front, last, heq, hlast⟩ := h
  rw [trim, List.dropWhile_cons_of_neg (by simp [hc]), trimRight, heq, List.reverse_concat,
    List.dropWhile_cons_of_neg (by simp [hlast]), List.reverse_cons, List.reverse_reverse]

/-- A text with no blank at either end. -/
structure Tight (cs : List Char) : Prop where
  head : ∀ c ∈ cs.head?, isBlank c = false
  last : ∀ c ∈ cs.getLast?, isBlank c = false

theorem tight_iff {cs : List Char} : Tight cs ↔
    (cs.head?.all fun c ↦ !isBlank c) = true ∧ (cs.getLast?.all fun c ↦ !isBlank c) = true := by
  simp only [Option.all_eq_true, Bool.not_eq_true']
  exact ⟨fun h ↦ ⟨h.head, h.last⟩, fun h ↦ ⟨h.1, h.2⟩⟩

instance (cs : List Char) : Decidable (Tight cs) := decidable_of_iff _ tight_iff.symm

theorem Tight.trim_eq_self {cs : List Char} (h : Tight cs) : trim cs = cs := by
  cases cs with
  | nil => rfl
  | cons c cs =>
    have hsolid : Solid (c :: cs) :=
      ⟨_, _, (List.dropLast_concat_getLast (List.cons_ne_nil c cs)).symm,
        h.last _ (List.getLast?_eq_some_getLast _)⟩
    exact hsolid.trim_eq_self (h.head c rfl)

theorem trimRight_isPrefix (cs : List Char) : trimRight cs <+: cs := by
  rw [← List.reverse_suffix, trimRight, List.reverse_reverse]
  exact List.dropWhile_suffix _

theorem trim_sublist (cs : List Char) : (trim cs).Sublist cs :=
  (trimRight_isPrefix _).sublist.trans (List.dropWhile_suffix _).sublist

/-- A trimmed text has no blank at either end. -/
theorem tight_trim (cs : List Char) : Tight (trim cs) := by
  constructor
  · intro c hc
    obtain ⟨rest, hrest⟩ := trimRight_isPrefix (cs.dropWhile isBlank)
    have hhead : (cs.dropWhile isBlank).head? = some c := by
      rw [← hrest, List.head?_append,
        show (trimRight (cs.dropWhile isBlank)).head? = some c from hc, Option.some_or]
    have hfirst := List.head?_dropWhile_not isBlank cs
    rw [hhead] at hfirst
    simpa using hfirst
  · intro c hc
    have hlast := List.head?_dropWhile_not isBlank (cs.dropWhile isBlank).reverse
    rw [trim, trimRight, List.getLast?_reverse] at hc
    rw [hc] at hlast
    simpa using hlast

end SearchClient.Text

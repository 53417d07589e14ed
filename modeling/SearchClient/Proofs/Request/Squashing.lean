import SearchClient.Proofs.Json.Values
import SearchClient.Request.Bulk
import Mathlib.Tactic.NormNum

/-!
# Sources put on one line

A source given as text stands as it is, unless it holds a line break; then it is read and printed
again. Line breaks between the tokens of a text do not change what is read, so what is printed is
what the text said, with each number as it is read and printed (`meaning_of_squashed`). Integers of
sixty-four bits stay what they were. Numbers that binary64 cannot hold do not
(`long_integer_is_rounded`), and a text that is too deep or holds a number out of range is refused,
although without line breaks it would have been sent.
-/

set_option autoImplicit false
set_option relaxedAutoImplicit false

namespace SearchClient.BulkOperation

open Json Text

variable {w : Written} {text text' : String}

theorem breaksLine_eq_false (h : ∀ c ∈ text.toList, isLineBreak c = false) :
    breaksLine text = false := by
  refine List.any_eq_false.mpr fun c hc ↦ ?_
  change ¬ isLineBreak c = true
  rw [h c hc]
  exact Bool.false_ne_true

/-- A text of more than one line is read, and printed on one. -/
theorem sourceLine_of_breaksLine (h : breaksLine text = true) (hw : Spaced w.tokens text.toList) :
    sourceLine (.spelled text) = (w.tree.toJson depthLimit).map compact := by
  rw [sourceLine, if_pos h, parse_written hw]

/-- A text `text` and the same text with line breaks between its tokens, `text'`. -/
theorem meaning_of_squashed (h : Loosened w.tokens text.toList text'.toList) :
    sourceLine (.spelled text) = .ok text ∧ SameDocument text text' ∧
      (breaksLine text' = false → sourceLine (.spelled text') = .ok text') ∧
      (breaksLine text' = true →
        ((∃ line, sourceLine (.spelled text') = .ok line) ↔
          w.depth ≤ depthLimit ∧ ∀ n ∈ w.numerals, ∃ v, n.value = .ok v) ∧
        ∀ line, sourceLine (.spelled text') = .ok line →
          Denotes line (w.meaning Numeral.asRead) ∧
          (SameDocument text line ↔ w.exact = w.meaning Numeral.asRead) ∧
          ((∀ n ∈ w.numerals, ∃ i, n.value = .ok (.integer i)) → SameDocument text line)) := by
  have htext : Denotes text w.exact := ⟨w, h.spaced, rfl⟩
  have hone := breaksLine_eq_false (h.lineFree w.readable_tokens)
  refine ⟨by rw [sourceLine, hone]; rfl, ⟨_, htext, w, h.spaced_broken, rfl⟩,
    fun hsame ↦ by rw [sourceLine, hsame]; rfl, fun hbreaks ↦ ⟨?_, fun line hline ↦ ?_⟩⟩
  · rw [sourceLine_of_breaksLine hbreaks h.spaced_broken, ← w.isRead_iff]
    simp only [map_eq_ok]
    constructor
    · rintro ⟨_, j, hj, -⟩
      exact ⟨j, hj⟩
    · rintro ⟨j, hj⟩
      exact ⟨_, j, hj, rfl⟩
  · rw [sourceLine_of_breaksLine hbreaks h.spaced_broken, map_eq_ok] at hline
    obtain ⟨j, hj, rfl⟩ := hline
    have hdenotes : Denotes j.compact (w.meaning Numeral.asRead) := by
      rw [← w.printed_of_toJson hj]
      exact denotes_compact j
    refine ⟨hdenotes, SameDocument.iff_eq htext hdenotes, fun hintegers ↦ ?_⟩
    refine (SameDocument.iff_eq htext hdenotes).mpr (w.meaning_eq_of_numerals fun n hn ↦ ?_)
    obtain ⟨i, hi⟩ := hintegers n hn
    exact (Numeral.asRead_of_integer hi).symm

/-- An array of one number, and the same with a line break behind the opening bracket. -/
theorem loosened_singleton {n : Numeral} (wellFormed : n.WellFormed) :
    Loosened (Written.array [.number n wellFormed]).tokens ('[' :: (n.spelling ++ [']']))
      ('[' :: '\n' :: (n.spelling ++ [']'])) := by
  have hgap : IsGap [] := nofun
  have hbreak : IsGap ['\n'] := List.forall_mem_singleton.mpr rfl
  have hopen : Token.openBracket.spelling = ['['].map Glyph.char := rfl
  have hclose : Token.closeBracket.spelling = [']'].map Glyph.char := rfl
  have hend : Loosened [] [] [] := .done hgap hgap rfl
  have hnumber : (Token.number n).spelling = n.spelling.map Glyph.char := rfl
  exact .token hgap hgap rfl hopen
    (.token hgap hbreak rfl hnumber (.token hgap hgap rfl hclose hend))

/-- A small integer behind a line break is written as it was. -/
theorem meaning_of_squashed_seven :
    ∃ line, sourceLine (.spelled "[\n7]") = .ok line ∧ SameDocument "[7]" line := by
  have hloosened : Loosened _ "[7]".toList "[\n7]".toList :=
    loosened_singleton (wellFormed_integerNumeral 7)
  have hvalue : ∀ n ∈ [integerNumeral 7], ∃ i, n.value = .ok (.integer i) :=
    List.forall_mem_singleton.mpr ⟨7, value_integerNumeral (by decide) (by decide)⟩
  obtain ⟨-, -, -, h⟩ := meaning_of_squashed hloosened
  obtain ⟨hread, hmeaning⟩ := h (by decide)
  obtain ⟨line, hline⟩ := hread.mpr
    ⟨by decide, fun n hn ↦ let ⟨i, hi⟩ := hvalue n hn; ⟨.integer i, hi⟩⟩
  exact ⟨line, hline, (hmeaning line hline).2.2 hvalue⟩

/-- A valid text is changed when line breaks are put into it: an integer of more than sixty-four
bits loses its last digits. -/
theorem long_integer_is_rounded :
    ∃ w : Written,
      Loosened w.tokens "[100000000000000000001]".toList "[\n100000000000000000001]".toList ∧
        sourceLine (.spelled "[\n100000000000000000001]") = .ok "[1e+20]" ∧
        ¬ SameDocument "[100000000000000000001]" "[1e+20]" := by
  have hrow : (⟨['1'], 21⟩ : Binary64.DigitRow).Proper :=
    ⟨nofun, List.forall_mem_singleton.mpr rfl, by decide⟩
  have hwf : (⟨false, ['1'], none, some ('e', some '+', ['2', '0'])⟩ : Numeral).WellFormed :=
    wellFormed_scientificNumeral hrow false
  have hloosened := loosened_singleton (wellFormed_integerNumeral 100000000000000000001)
  have htext : Denotes "[100000000000000000001]" (.array [.number 100000000000000000001]) := by
    refine ⟨_, hloosened.spaced, ?_⟩
    change Exact.array [.number (integerNumeral 100000000000000000001).rational] = _
    rw [rational_integerNumeral]
    rfl
  have hline : Denotes "[1e+20]" (.array [.number 100000000000000000000]) := by
    refine ⟨_, (loosened_singleton hwf).spaced, ?_⟩
    have hvalue : Decimal.value ['1'] = 1 := rfl
    have hshift : Decimal.value ['2', '0'] = 20 := rfl
    change Exact.array [.number (Numeral.rational _)] = _
    rw [Numeral.rational, Numeral.shift]
    simp only [Option.getD_none, List.append_nil, hvalue, hshift]
    norm_num
    decide
  refine ⟨_, hloosened, by decide +kernel, fun hsame ↦ ?_⟩
  have h := (SameDocument.iff_eq htext hline).mp hsame
  norm_num at h

end SearchClient.BulkOperation

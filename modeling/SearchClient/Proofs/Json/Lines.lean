import SearchClient.Proofs.Json.Printing

/-!
# A compact text is one line

No token is spelled with a line break, so neither a text that has only blanks between its tokens nor
a compact text is more than one line (`lineFree_compact`).
-/

set_option autoImplicit false
set_option relaxedAutoImplicit false

namespace SearchClient.Json

open Text

/-! ### Characters of tokens -/

/-- Characters of a text that stands on one line. -/
def IsPrintable (cs : List Char) : Prop := ∀ c ∈ cs, 32 ≤ c.toNat

theorem printable_of_all {cs : List Char} (h : cs.all (32 ≤ ·.toNat) = true) : IsPrintable cs :=
  fun c hc ↦ of_decide_eq_true (List.all_eq_true.mp h c hc)

theorem printable_of_isDigit {c : Char} (h : Decimal.isDigit c = true) : 32 ≤ c.toNat := by
  simp only [Decimal.isDigit, Bool.and_eq_true, decide_eq_true_eq] at h
  exact Nat.le_trans (by decide) (show '0'.toNat ≤ c.toNat from h.1)

theorem printable_of_hexValue? {c : Char} {n : Nat} (h : hexValue? c = some n) : 32 ≤ c.toNat := by
  unfold hexValue? at h
  split_ifs at h with hdigit hlower hupper
  · exact printable_of_isDigit hdigit
  · simp only [Bool.and_eq_true, decide_eq_true_eq] at hlower
    exact Nat.le_trans (by decide) (show 'a'.toNat ≤ c.toNat from hlower.1)
  · simp only [Bool.and_eq_true, decide_eq_true_eq] at hupper
    exact Nat.le_trans (by decide) (show 'A'.toNat ≤ c.toNat from hupper.1)

theorem printable_of_hexFour? {a b c d : Char} {n : Nat} (h : hexFour? a b c d = some n) :
    IsPrintable ['\\', 'u', a, b, c, d] := by
  simp only [hexFour?, Option.bind_eq_bind, Option.bind_eq_some_iff] at h
  obtain ⟨_, ha, _, hb, _, hc, _, hd, -⟩ := h
  simp only [IsPrintable, List.forall_mem_cons]
  exact ⟨by decide, by decide, printable_of_hexValue? ha, printable_of_hexValue? hb,
    printable_of_hexValue? hc, printable_of_hexValue? hd, List.forall_mem_nil _⟩

theorem printable_of_escaped? {mark c : Char} (h : escaped? mark = some c) : 32 ≤ mark.toNat := by
  unfold escaped? at h
  split_ifs at h with h₁ h₂ h₃ h₄ h₅ h₆
  · obtain rfl | rfl | rfl := h₁ <;> decide
  all_goals subst_vars; decide

theorem Spells.printable {spelling : List Char} {c : Char} (h : Spells spelling c) :
    IsPrintable spelling := by
  cases h with
  | itself printable _ _ => exact List.forall_mem_singleton.mpr printable
  | short escaped =>
    simp only [IsPrintable, List.forall_mem_cons]
    exact ⟨by decide, printable_of_escaped? escaped, List.forall_mem_nil _⟩
  | code hex _ _ => exact printable_of_hexFour? hex
  | pair hex _ hex' _ =>
    exact List.forall_mem_append.mpr ⟨printable_of_hexFour? hex, printable_of_hexFour? hex'⟩

theorem SpelledString.printable (s : SpelledString) : IsPrintable s.spelling := by
  simp only [IsPrintable, SpelledString.spelling, List.forall_mem_cons, List.forall_mem_append,
    List.mem_flatMap]
  refine ⟨by decide, ?_, by decide, List.forall_mem_nil _⟩
  rintro c ⟨spelled, -, hc⟩
  exact spelled.spells.printable c hc

theorem IsRow.printable {digits : List Char} (h : IsRow digits) : IsPrintable digits :=
  fun c hc ↦ printable_of_isDigit (h.isDigit c hc)

theorem Numeral.WellFormed.printable {n : Numeral} (h : n.WellFormed) : IsPrintable n.spelling := by
  have hsign : IsPrintable (if n.negative then ['-'] else []) := by
    cases n.negative <;> simp [IsPrintable]
  have hfraction : IsPrintable (fractionSpelling n.fraction) := by
    cases hn : n.fraction with
    | none => exact nofun
    | some digits => exact List.forall_mem_cons.mpr ⟨by decide, (h.fraction _ hn).printable⟩
  have hexponent : IsPrintable (exponentSpelling n.exponent) := by
    cases hn : n.exponent with
    | none => exact nofun
    | some parts =>
      obtain ⟨mark, sign, digits⟩ := parts
      obtain ⟨hmark, hsign, hdigits⟩ := h.exponent _ _ _ hn
      have hprintable : IsPrintable sign.toList := by
        intro c hc
        obtain rfl | rfl := hsign c (Option.mem_toList.mp hc) <;> decide
      refine List.forall_mem_cons.mpr ⟨?_, List.forall_mem_append.mpr
        ⟨hprintable, hdigits.printable⟩⟩
      obtain rfl | rfl := hmark <;> decide
  rw [n.spelling_eq]
  exact List.forall_mem_append.mpr ⟨hsign, List.forall_mem_append.mpr ⟨h.whole.printable,
    List.forall_mem_append.mpr ⟨hfraction, hexponent⟩⟩⟩

/-- A token is spelled on one line. -/
theorem Token.Readable.exists_spelling {token : Token} (h : token.Readable) :
    ∃ cs, token.spelling = cs.map Glyph.char ∧ IsPrintable cs := by
  cases token with
  | number n => exact ⟨_, rfl, h.printable⟩
  | string q =>
    obtain ⟨s, rfl⟩ := h
    exact ⟨_, rfl, s.printable⟩
  | broken b => exact h.elim
  | bool b => cases b <;> exact ⟨_, rfl, printable_of_all rfl⟩
  | null => exact ⟨_, rfl, printable_of_all rfl⟩
  | openBrace => exact ⟨['\x7b'], rfl, printable_of_all rfl⟩
  | closeBrace => exact ⟨['\x7d'], rfl, printable_of_all rfl⟩
  | openBracket => exact ⟨['['], rfl, printable_of_all rfl⟩
  | closeBracket => exact ⟨[']'], rfl, printable_of_all rfl⟩
  | colon => exact ⟨[':'], rfl, printable_of_all rfl⟩
  | comma => exact ⟨[','], rfl, printable_of_all rfl⟩

/-! ### Texts -/

variable {tokens : List Token} {text text' : List Char}

/-- Tokens with nothing between them are a text of the tokens, and one line. -/
theorem spaced_of_spellings (readable : ∀ token ∈ tokens, token.Readable)
    (h : text.map Glyph.char = tokens.flatMap Token.spelling) :
    Spaced tokens text ∧ IsPrintable text := by
  induction tokens generalizing text with
  | nil =>
    obtain rfl := List.map_eq_nil_iff.mp h
    exact ⟨.done nofun, nofun⟩
  | cons token tokens ih =>
    obtain ⟨htoken, readable⟩ := List.forall_mem_cons.mp readable
    obtain ⟨cs, hspelling, hcs⟩ := htoken.exists_spelling
    rw [List.flatMap_cons, hspelling] at h
    obtain ⟨cs', rest, rfl, hcs', hrest⟩ := List.map_eq_append_iff.mp h
    obtain rfl := (List.map_inj_right fun _ _ ↦ Glyph.char.inj).mp hcs'
    obtain ⟨hspaced, hprintable⟩ := ih readable hrest
    have hgap : IsGap [] := nofun
    exact ⟨.token hgap hspelling hspaced, List.forall_mem_append.mpr ⟨hcs, hprintable⟩⟩

theorem not_isLineBreak_of_printable {c : Char} (h : 32 ≤ c.toNat) : isLineBreak c = false := by
  simp only [isLineBreak, Bool.or_eq_false_iff, beq_eq_false_iff_ne]
  constructor <;> rintro rfl <;> exact absurd h (by decide)

/-- A compact text is a text of the document it was written from. -/
theorem spaced_compact (j : Json) : Spaced j.written.tokens j.compact.toList := by
  rw [compact, String.toList_ofList]
  exact (spaced_of_spellings j.written.readable_tokens j.map_chars).1

/-- A compact text has no line break. -/
theorem lineFree_compact (j : Json) : ∀ c ∈ j.compact.toList, isLineBreak c = false := by
  rw [compact, String.toList_ofList]
  exact fun c hc ↦ not_isLineBreak_of_printable
    ((spaced_of_spellings j.written.readable_tokens j.map_chars).2 c hc)

/-- Before line breaks were put into it, a text had none. -/
theorem Loosened.lineFree (h : Loosened tokens text text')
    (readable : ∀ token ∈ tokens, token.Readable) : ∀ c ∈ text, isLineBreak c = false := by
  have hgap {gap gap' : List Char} (broken : gap'.filter (!isLineBreak ·) = gap) :
      ∀ c ∈ gap, isLineBreak c = false := by
    rintro c hc
    rw [← broken] at hc
    simpa using (List.mem_filter.mp hc).2
  induction h with
  | done _ _ broken => exact hgap broken
  | token _ _ broken spelled _ ih =>
    obtain ⟨htoken, readable⟩ := List.forall_mem_cons.mp readable
    obtain ⟨cs, hspelling, hcs⟩ := htoken.exists_spelling
    obtain rfl := (List.map_inj_right fun _ _ ↦ Glyph.char.inj).mp (spelled.symm.trans hspelling)
    exact List.forall_mem_append.mpr ⟨hgap broken, List.forall_mem_append.mpr
      ⟨fun c hc ↦ not_isLineBreak_of_printable (hcs c hc), ih readable⟩⟩

end SearchClient.Json

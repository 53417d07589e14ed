import SearchClient.Proofs.Json.Grammar
import Mathlib.Data.List.Basic

/-!
# Texts are cut into their tokens

The pieces of a text of tokens are those tokens (`tokens_pieces`), for every sequence of tokens that
a document may have: each is spelled as the grammar allows (`Token.Readable`), and none that could
go on with a number stands right behind one (`Orderly`).

Each part of a token is read to its end whatever follows: a string up to its closing quote
(`scan_spelled`), a number as long as nothing behind it belongs to a number (`readNumeral_append`).
-/

set_option autoImplicit false
set_option relaxedAutoImplicit false

namespace SearchClient.Json

open Text

/-! ### Strings -/

/-- A spelled character is read as the character. -/
theorem scan_spells {spelling : List Char} {c : Char} (h : Spells spelling c) (fuel : Nat)
    (rest : List Glyph) :
    scan (fuel + 1) (spelling.map .char ++ rest) =
      (scan fuel rest).push (spelling.map .char) c := by
  cases h with
  | itself printable quote backslash =>
    rw [List.map_singleton, List.singleton_append, scan]
    · rw [if_neg (by omega)]
    · exact quote
    all_goals intros; exact backslash ‹_›
  | short escaped =>
    simp only [List.map_cons, List.map_nil, List.cons_append, List.nil_append]
    rw [scan]
    · rw [escaped]
    · rintro rfl
      simp [escaped?] at escaped
  | code hex low high => simp [scan, hex, low, high]
  | @pair _ _ _ _ _ _ _ _ high low hex isHigh hex' isLow =>
    have hhigh : isLowHalf high = false := by
      simp only [isHighHalf, isLowHalf, Bool.and_eq_true, decide_eq_true_eq,
        Bool.and_eq_false_iff, decide_eq_false_iff_not] at *
      omega
    simp [scan, hex, hhigh, isHigh, pairRest, hex', isLow]

/-- A string is read up to its closing quote. -/
theorem scan_spelled (s : SpelledString) (rest : List Glyph) {fuel : Nat} (h : s.length < fuel) :
    scan fuel ((s.flatMap SpelledChar.spelling).map .char ++ .char '"' :: rest) =
      .closed ((s.flatMap SpelledChar.spelling).map .char ++ [.char '"'])
        (.ok (s.map SpelledChar.char)) rest := by
  induction s generalizing fuel with
  | nil =>
    obtain ⟨fuel, rfl⟩ := Nat.exists_eq_succ_of_ne_zero (Nat.ne_zero_of_lt h)
    simp [scan]
  | cons c s ih =>
    obtain ⟨fuel, rfl⟩ := Nat.exists_eq_succ_of_ne_zero (Nat.ne_zero_of_lt h)
    rw [List.length_cons, Nat.succ_lt_succ_iff] at h
    rw [List.flatMap_cons, List.map_append, List.append_assoc, scan_spells c.spells, ih h,
      Scan.push, List.append_assoc, Except.map, List.map_cons]

/-! ### Numbers -/

/-- Nothing behind a number that belongs to it. -/
def Ended : List Glyph → Prop
  | .char c :: _ => Decimal.isDigit c = false ∧ c ≠ '.' ∧ c ≠ 'e' ∧ c ≠ 'E'
  | _ => True

/-- No digit in front. -/
def NoDigit : List Glyph → Prop
  | .char c :: _ => Decimal.isDigit c = false
  | _ => True

variable {digits : List Char} {rest : List Glyph} {n : Numeral}

theorem Ended.noDigit (h : Ended rest) : NoDigit rest := by
  unfold Ended at h
  unfold NoDigit
  split at h <;> simp_all

theorem readDigits_append (hdigits : ∀ c ∈ digits, Decimal.isDigit c = true) (h : NoDigit rest) :
    readDigits (digits.map .char ++ rest) = (digits, rest) := by
  induction digits with
  | nil =>
    unfold NoDigit at h
    split at h
    · simp [readDigits, h]
    · rename_i hrest
      rw [List.map_nil, List.nil_append, readDigits]
      exact hrest
  | cons c digits ih =>
    obtain ⟨hc, hdigits⟩ := List.forall_mem_cons.mp hdigits
    rw [List.map_cons, List.cons_append, readDigits, if_pos hc, ih hdigits]

theorem needDigits_append (hdigits : IsRow digits) (h : NoDigit rest) :
    needDigits (digits.map .char ++ rest) = .ok (digits, rest) := by
  rw [needDigits, readDigits_append hdigits.isDigit h]
  obtain ⟨c, digits, rfl⟩ := List.exists_cons_of_ne_nil hdigits.ne_nil
  rfl

theorem readWhole_append (hdigits : IsRow digits) (hlead : ∀ more, digits = '0' :: more → more = [])
    (h : NoDigit rest) : readWhole (digits.map .char ++ rest) = .ok (digits, rest) := by
  rw [readWhole, needDigits_append hdigits h]
  simp only [bind, Except.bind]
  split
  · simpa using hlead _ rfl
  · rfl

/-- The spelling of the digits behind the point. -/
def fractionSpelling : Option (List Char) → List Char
  | none => []
  | some digits => '.' :: digits

/-- The spelling of an exponent. -/
def exponentSpelling : Option (Char × Option Char × List Char) → List Char
  | none => []
  | some (mark, sign, digits) => mark :: (sign.toList ++ digits)

theorem Numeral.spelling_eq (n : Numeral) :
    n.spelling = (if n.negative then ['-'] else []) ++
      (n.whole ++ (fractionSpelling n.fraction ++ exponentSpelling n.exponent)) := by
  rw [spelling, List.append_assoc, List.append_assoc]
  rfl

theorem readFraction_append {fraction : Option (List Char)}
    (hfraction : ∀ digits, fraction = some digits → IsRow digits) (h : NoDigit rest)
    (hpoint : ∀ more, rest ≠ .char '.' :: more) :
    readFraction ((fractionSpelling fraction).map .char ++ rest) = .ok (fraction, rest) := by
  cases fraction with
  | none =>
    rw [fractionSpelling, List.map_nil, List.nil_append, readFraction]
    exact hpoint
  | some digits =>
    rw [fractionSpelling, List.map_cons, List.cons_append, readFraction,
      needDigits_append (hfraction digits rfl) h]
    rfl

theorem readExponent_append {exponent : Option (Char × Option Char × List Char)}
    (hexponent : ∀ mark sign digits, exponent = some (mark, sign, digits) →
      (mark = 'e' ∨ mark = 'E') ∧ (∀ c, sign = some c → c = '+' ∨ c = '-') ∧ IsRow digits)
    (h : Ended rest) :
    readExponent ((exponentSpelling exponent).map .char ++ rest) = .ok (exponent, rest) := by
  cases exponent with
  | none =>
    rw [exponentSpelling, List.map_nil, List.nil_append]
    unfold Ended at h
    split at h
    · simp [readExponent, h]
    · rename_i hrest
      rw [readExponent]
      exact hrest
  | some parts =>
    obtain ⟨mark, sign, digits⟩ := parts
    obtain ⟨hmark, hsign, hdigits⟩ := hexponent mark sign digits rfl
    have hread : readSign ((sign.toList ++ digits).map .char ++ rest) =
        (sign, digits.map .char ++ rest) := by
      cases sign with
      | none =>
        obtain ⟨c, more, rfl⟩ := List.exists_cons_of_ne_nil hdigits.ne_nil
        have hc := hdigits.isDigit c List.mem_cons_self
        simp only [Option.toList_none, List.nil_append, List.map_cons, List.cons_append]
        rw [readSign] <;> rintro more rfl' <;> cases rfl' <;> exact absurd hc (by decide)
      | some c =>
        obtain rfl | rfl := hsign c rfl <;> rfl
    rw [exponentSpelling, List.map_cons, List.cons_append, readExponent, if_pos hmark, hread]
    simp only [needDigits_append hdigits h.noDigit]
    rfl

theorem not_isDigit_of_mark {mark : Char} (h : mark = 'e' ∨ mark = 'E') :
    Decimal.isDigit mark = false ∧ mark ≠ '.' := by
  obtain rfl | rfl := h <;> decide

/-- Behind the digits of a number, where an exponent may follow, neither a digit nor a point
stands. -/
theorem noDigit_exponent {exponent : Option (Char × Option Char × List Char)}
    (hexponent : ∀ mark sign digits, exponent = some (mark, sign, digits) →
      mark = 'e' ∨ mark = 'E') (h : Ended rest) :
    NoDigit ((exponentSpelling exponent).map .char ++ rest) ∧
      ∀ more, (exponentSpelling exponent).map .char ++ rest ≠ .char '.' :: more := by
  cases exponent with
  | none =>
    refine ⟨h.noDigit, ?_⟩
    rintro more hrest
    rw [exponentSpelling, List.map_nil, List.nil_append] at hrest
    rw [hrest] at h
    exact h.2.1 rfl
  | some parts =>
    obtain ⟨mark, sign, digits⟩ := parts
    have hmark := not_isDigit_of_mark (hexponent mark sign digits rfl)
    refine ⟨hmark.1, ?_⟩
    rintro more hrest
    simp only [exponentSpelling, List.map_cons, List.cons_append, List.cons.injEq,
      Glyph.char.injEq] at hrest
    exact hmark.2 hrest.1

/-- A number behind its sign is read to its end. -/
theorem readNumeral_append (hn : n.WellFormed) (h : Ended rest) :
    readNumeral n.negative
        ((n.whole ++ (fractionSpelling n.fraction ++ exponentSpelling n.exponent)).map .char ++
          rest) =
      .ok (n, rest) := by
  obtain ⟨hbehind, hpoint⟩ := noDigit_exponent (fun mark sign digits heq ↦
    (hn.exponent mark sign digits heq).1) h
  have hfraction : NoDigit ((fractionSpelling n.fraction).map .char ++
      ((exponentSpelling n.exponent).map .char ++ rest)) := by
    cases n.fraction with
    | none => exact hbehind
    | some digits => exact (rfl : Decimal.isDigit '.' = false)
  simp only [List.map_append, List.append_assoc, readNumeral]
  rw [readWhole_append hn.whole hn.lead hfraction]
  simp only [bind, Except.bind]
  rw [readFraction_append hn.fraction hbehind hpoint]
  simp only
  rw [readExponent_append hn.exponent h]

/-! ### Tokens -/

/-- A token that a document may have. -/
def Token.Readable : Token → Prop
  | .number n => n.WellFormed
  | .string q => ∃ s : SpelledString, q = s.quoted
  | .broken _ => False
  | _ => True

/-- What stands behind a token does not belong to it. -/
def Token.EndsBefore : Token → List Glyph → Prop
  | .number _, rest => Ended rest
  | _, _ => True

theorem isDigit_ne {c : Char} (h : Decimal.isDigit c = true) :
    c ≠ '{' ∧ c ≠ '}' ∧ c ≠ '[' ∧ c ≠ ']' ∧ c ≠ ':' ∧ c ≠ ',' ∧ c ≠ '"' ∧ c ≠ 'n' ∧ c ≠ 't' ∧
      c ≠ 'f' ∧ c ≠ '-' := by
  refine ⟨?_, ?_, ?_, ?_, ?_, ?_, ?_, ?_, ?_, ?_, ?_⟩ <;> rintro rfl <;> exact absurd h (by decide)

theorem readToken_minus {input : List Glyph} (hread : readNumeral true input = .ok (n, rest)) :
    readToken (.char '-' :: input) = (.number n, rest) := by
  simp [readToken, hread]

theorem readToken_digit {c : Char} (h : Decimal.isDigit c = true) {input : List Glyph}
    (hread : readNumeral false (.char c :: input) = .ok (n, rest)) :
    readToken (.char c :: input) = (.number n, rest) := by
  simp only [readToken, isDigit_ne h, h, hread, if_false, if_true]

theorem readToken_quote {input spelling : List Glyph} {content : Except Fault (List Char)}
    (hscan : scan (input.length + 1) input = .closed spelling content rest) :
    readToken (.char '"' :: input) =
      (.string ⟨.char '"' :: spelling, content.map String.ofList⟩, rest) := by
  simp [readToken, hscan]

theorem readToken_number (hn : n.WellFormed) (h : Ended rest) :
    readToken (n.spelling.map .char ++ rest) = (.number n, rest) := by
  have hread := readNumeral_append hn h
  rw [n.spelling_eq, List.map_append, List.append_assoc]
  cases hsign : n.negative with
  | true =>
    rw [hsign] at hread
    rw [if_pos rfl, List.map_singleton, List.singleton_append, readToken_minus hread]
  | false =>
    rw [hsign] at hread
    obtain ⟨c, whole, hwhole⟩ := List.exists_cons_of_ne_nil hn.whole.ne_nil
    have hc : Decimal.isDigit c = true := hn.whole.isDigit c (by simp [hwhole])
    rw [if_neg Bool.false_ne_true, List.map_nil, List.nil_append]
    rw [hwhole] at hread ⊢
    rw [List.cons_append, List.map_cons, List.cons_append] at hread ⊢
    exact readToken_digit hc hread

theorem length_le_flatMap (s : SpelledString) :
    s.length ≤ (s.flatMap SpelledChar.spelling).length := by
  induction s with
  | nil => exact Nat.le_refl _
  | cons c s ih =>
    have hc : 0 < c.spelling.length := by
      obtain ⟨spelling, char, spells⟩ := c
      cases spells <;> exact Nat.succ_pos _
    rw [List.flatMap_cons, List.length_append, List.length_cons]
    omega

theorem readToken_string (s : SpelledString) (rest : List Glyph) :
    readToken (s.quoted.spelling ++ rest) = (.string s.quoted, rest) := by
  have hlength := length_le_flatMap s
  rw [SpelledString.quoted, SpelledString.spelling, List.map_cons, List.map_append,
    List.map_singleton, List.cons_append, List.append_assoc, List.singleton_append]
  refine readToken_quote (scan_spelled s rest ?_)
  rw [List.length_append, List.length_map]
  omega

/-- A token is read to its end. -/
theorem readToken_spelling {token : Token} (readable : token.Readable)
    (h : token.EndsBefore rest) : readToken (token.spelling ++ rest) = (token, rest) := by
  cases token with
  | number n => exact readToken_number readable h
  | string q =>
    obtain ⟨s, rfl⟩ := readable
    exact readToken_string s rest
  | broken b => exact readable.elim
  | bool b => cases b <;> rfl
  | _ => rfl

/-! ### Sequences of tokens -/

/-- A token that may stand right behind a number comes next, if any. -/
def Stops : List Token → Prop
  | [] | .comma :: _ | .closeBracket :: _ | .closeBrace :: _ => True
  | _ => False

/-- Behind each number a token follows that does not go on with it. -/
def Orderly : List Token → Prop
  | [] => True
  | .number _ :: tokens => Stops tokens ∧ Orderly tokens
  | _ :: tokens => Orderly tokens

variable {gap text : List Char} {token : Token} {tokens : List Token}

theorem ended_of_gap (blank : IsGap gap) (h : Ended rest) : Ended (gap.map .char ++ rest) := by
  cases gap with
  | nil => exact h
  | cons c gap =>
    have hc := blank c List.mem_cons_self
    simp only [isBlank, Bool.or_eq_true, decide_eq_true_eq] at hc
    obtain ((rfl | rfl) | rfl) | rfl := hc <;> exact ⟨by decide, by decide, by decide, by decide⟩

theorem ended_of_stops (h : Spaced tokens text) (stops : Stops tokens) :
    Ended (text.map .char) := by
  cases h with
  | done blank =>
    have hended : Ended [] := trivial
    rw [← List.append_nil (text.map Glyph.char)]
    exact ended_of_gap blank hended
  | @token token _ _ _ _ blank spelled more =>
    rw [List.map_append, List.map_append, ← spelled]
    refine ended_of_gap blank ?_
    match token, stops with
    | .comma, _ | .closeBracket, _ | .closeBrace, _ =>
      exact ⟨by decide, by decide, by decide, by decide⟩

theorem isBlank_of_isDigit {c : Char} (h : Decimal.isDigit c = true) :
    isBlank (.char c) = false := by
  simp only [isBlank, Bool.or_eq_false_iff, decide_eq_false_iff_not]
  refine ⟨⟨⟨?_, ?_⟩, ?_⟩, ?_⟩ <;> rintro rfl <;> exact absurd h (by decide)

theorem exists_cons_spelling (readable : token.Readable) :
    ∃ g more, token.spelling = g :: more ∧ isBlank g = false := by
  cases token with
  | number n =>
    obtain ⟨c, whole, hwhole⟩ := List.exists_cons_of_ne_nil readable.whole.ne_nil
    have hc : Decimal.isDigit c = true := readable.whole.isDigit c (by simp [hwhole])
    rw [Token.spelling, n.spelling_eq, hwhole]
    cases n.negative with
    | true => exact ⟨_, _, rfl, rfl⟩
    | false => exact ⟨_, _, rfl, isBlank_of_isDigit hc⟩
  | string q =>
    obtain ⟨s, rfl⟩ := readable
    exact ⟨_, _, rfl, rfl⟩
  | broken b => exact readable.elim
  | bool b => cases b <;> exact ⟨_, _, rfl, rfl⟩
  | _ => exact ⟨_, _, rfl, rfl⟩

theorem dropWhile_gap (blank : IsGap gap) (input : List Glyph) :
    (gap.map Glyph.char ++ input).dropWhile isBlank = input.dropWhile isBlank := by
  refine List.dropWhile_append_of_pos fun g hg ↦ ?_
  obtain ⟨c, hc, rfl⟩ := List.mem_map.mp hg
  exact blank c hc

/-- Where something stands behind the blanks, it begins with a token, and the rest is cut. -/
theorem tokens_piecesUpTo_succ {input body : List Glyph} {g : Glyph}
    (h : input.dropWhile isBlank = g :: body) (fuel : Nat) :
    (piecesUpTo (fuel + 1) input).map Piece.token =
      (readToken (g :: body)).1 :: (piecesUpTo fuel (readToken (g :: body)).2).map Piece.token := by
  rw [piecesUpTo]
  simp only [h, List.map_cons]

theorem tokens_piecesUpTo (h : Spaced tokens text) (readable : ∀ token ∈ tokens, token.Readable)
    (orderly : Orderly tokens) {fuel : Nat} (enough : text.length ≤ fuel) :
    (piecesUpTo fuel (text.map .char)).map Piece.token = tokens := by
  induction h generalizing fuel with
  | @done gap blank =>
    cases fuel with
    | zero => rfl
    | succ fuel =>
      have hdrop : (gap.map .char).dropWhile isBlank = [] := by
        simpa using dropWhile_gap blank []
      rw [piecesUpTo]
      simp only [hdrop, List.map_nil]
  | @token token tokens gap spelling rest blank spelled more ih =>
    obtain ⟨htoken, readable⟩ := List.forall_mem_cons.mp readable
    have horderly : token.EndsBefore (rest.map .char) ∧ Orderly tokens := by
      cases token with
      | number n => exact ⟨ended_of_stops more orderly.1, orderly.2⟩
      | _ => exact ⟨trivial, orderly⟩
    obtain ⟨g, spelling', hspelling, hg⟩ := exists_cons_spelling htoken
    have hlength : 0 < spelling.length := by
      rw [← List.length_map (f := Glyph.char), ← spelled, hspelling]
      exact Nat.succ_pos _
    rw [List.length_append, List.length_append] at enough
    obtain ⟨fuel, rfl⟩ : ∃ fuel', fuel = fuel' + 1 := ⟨fuel - 1, by omega⟩
    have hdrop : ((gap ++ (spelling ++ rest)).map .char).dropWhile isBlank =
        g :: (spelling' ++ rest.map .char) := by
      rw [List.map_append, dropWhile_gap blank, List.map_append, ← spelled, hspelling,
        List.cons_append, List.dropWhile_cons, hg]
      rfl
    rw [tokens_piecesUpTo_succ hdrop, ← List.cons_append, ← hspelling,
      readToken_spelling htoken horderly.1, ih readable horderly.2 (by omega)]

/-- The pieces of a text of tokens are the tokens. -/
theorem tokens_pieces (h : Spaced tokens text) (readable : ∀ token ∈ tokens, token.Readable)
    (orderly : Orderly tokens) : (pieces (text.map .char)).map Piece.token = tokens :=
  tokens_piecesUpTo h readable orderly (Nat.le_of_eq (List.length_map _).symm)

/-! ### Tokens of documents -/

mutual

theorem Written.readable_tokens : (w : Written) → ∀ token ∈ w.tokens, token.Readable
  | .null | .bool _ => List.forall_mem_singleton.mpr trivial
  | .number _ wellFormed => List.forall_mem_singleton.mpr wellFormed
  | .string s => List.forall_mem_singleton.mpr ⟨s, rfl⟩
  | .array items => by
    simp only [Written.tokens, List.forall_mem_cons, List.forall_mem_append]
    exact ⟨trivial, readable_itemTokens items, trivial, nofun⟩
  | .object members => by
    simp only [Written.tokens, List.forall_mem_cons, List.forall_mem_append]
    exact ⟨trivial, readable_memberTokens members, trivial, nofun⟩

theorem readable_itemTokens :
    (items : List Written) → ∀ token ∈ itemTokens items, token.Readable
  | [] => nofun
  | [w] => w.readable_tokens
  | w :: next :: items => by
    simp only [itemTokens, List.forall_mem_cons, List.forall_mem_append]
    exact ⟨w.readable_tokens, trivial, readable_itemTokens (next :: items)⟩

theorem readable_memberTokens :
    (members : List (SpelledString × Written)) → ∀ token ∈ memberTokens members, token.Readable
  | [] => nofun
  | [(name, w)] => by
    simp only [memberTokens, List.forall_mem_cons]
    exact ⟨⟨name, rfl⟩, trivial, w.readable_tokens⟩
  | (name, w) :: next :: members => by
    simp only [memberTokens, List.forall_mem_cons, List.forall_mem_append]
    exact ⟨⟨name, rfl⟩, trivial, w.readable_tokens, trivial,
      readable_memberTokens (next :: members)⟩

end

mutual

theorem Written.orderly_tokens : (w : Written) → {after : List Token} → Stops after →
    Orderly after → Orderly (w.tokens ++ after)
  | .null, _, _, orderly | .bool _, _, _, orderly | .string _, _, _, orderly => orderly
  | .number _ _, _, stops, orderly => ⟨stops, orderly⟩
  | .array items, after, _, orderly => by
    rw [Written.tokens, List.cons_append, List.append_assoc]
    exact orderly_itemTokens items trivial orderly
  | .object members, after, _, orderly => by
    rw [Written.tokens, List.cons_append, List.append_assoc]
    exact orderly_memberTokens members trivial orderly

theorem orderly_itemTokens : (items : List Written) → {after : List Token} → Stops after →
    Orderly after → Orderly (itemTokens items ++ after)
  | [], _, _, orderly => orderly
  | [w], _, stops, orderly => w.orderly_tokens stops orderly
  | w :: next :: items, after, stops, orderly => by
    rw [itemTokens, List.append_assoc]
    exact w.orderly_tokens trivial (orderly_itemTokens (next :: items) stops orderly)

theorem orderly_memberTokens : (members : List (SpelledString × Written)) → {after : List Token} →
    Stops after → Orderly after → Orderly (memberTokens members ++ after)
  | [], _, _, orderly => orderly
  | [(_, w)], _, stops, orderly => w.orderly_tokens stops orderly
  | (_, w) :: next :: members, after, stops, orderly => by
    rw [memberTokens, List.cons_append, List.cons_append, List.append_assoc]
    exact w.orderly_tokens trivial (orderly_memberTokens (next :: members) stops orderly)

end

/-- A text of a document is cut into the document's tokens. -/
theorem Written.tokens_pieces {w : Written} (h : Spaced w.tokens text) :
    (pieces (text.map .char)).map Piece.token = w.tokens := by
  refine Json.tokens_pieces h w.readable_tokens ?_
  rw [← List.append_nil w.tokens]
  exact w.orderly_tokens trivial trivial

end SearchClient.Json

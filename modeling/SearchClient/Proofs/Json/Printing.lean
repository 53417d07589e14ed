import SearchClient.Proofs.Json.Reading
import SearchClient.Proofs.Number.Digits

/-!
# Printed documents are of the grammar

The printer writes one of the documents that the grammar knows (`written`), with nothing between the
tokens (`map_chars`): each character of a string in one of its spellings (`spells_escape`), an
integer by its digits, and a binary64 number by a numeral in one of two notations
(`floatNumeral?_spec`).
-/

set_option autoImplicit false
set_option relaxedAutoImplicit false

namespace SearchClient.Json

open Text Binary64

/-! ### Strings -/

theorem hexValue?_hexDigit : ∀ n < 16, hexValue? (hexDigit n) = some n := by
  decide

theorem eq_ofNat {c : Char} {n : Nat} (h : c.toNat = n) : c = Char.ofNat n := by
  rw [← h, Char.ofNat_toNat]

/-- A written character is spelled as it may be. -/
theorem spells_escape (c : Char) : Spells (escape c) c := by
  unfold escape
  split_ifs with hquote hbackslash hback hfeed hnewline hreturn htab hcontrol
  · exact .short (by rw [hquote]; rfl)
  · exact .short (by rw [hbackslash]; rfl)
  · exact .short (by rw [eq_ofNat hback]; rfl)
  · exact .short (by rw [eq_ofNat hfeed]; rfl)
  · exact .short (by rw [hnewline]; rfl)
  · exact .short (by rw [hreturn]; rfl)
  · exact .short (by rw [htab]; rfl)
  · have hhigh := hexValue?_hexDigit (c.toNat / 16) (by omega)
    have hlow := hexValue?_hexDigit (c.toNat % 16) (by omega)
    have hzero : hexValue? '0' = some 0 := rfl
    have hhex : hexFour? '0' '0' (hexDigit (c.toNat / 16)) (hexDigit (c.toNat % 16)) =
        some c.toNat := by
      simp only [hexFour?, hhigh, hlow, hzero, Option.bind_eq_bind, Option.bind_some]
      congr 1
      omega
    have hspells := Spells.code hhex (by simp [isLowHalf]; omega) (by simp [isHighHalf]; omega)
    rwa [Char.ofNat_toNat] at hspells
  · exact .itself (by omega) hquote hbackslash

/-- A text as it is written inside quotes. -/
def spell (s : String) : SpelledString := s.toList.map fun c ↦ ⟨escape c, c, spells_escape c⟩

@[simp]
theorem text_spell (s : String) : (spell s).text = s := by
  simp [SpelledString.text, spell, Function.comp_def]

theorem spelling_spell (s : String) : (spell s).spelling = quote s.toList := by
  simp [SpelledString.spelling, spell, quote, List.flatMap_map]

/-! ### Numbers -/

/-- An integer as written. -/
def integerNumeral (i : Int) : Numeral := ⟨decide (i < 0), Decimal.digits i.natAbs, none, none⟩

/-- A row of digits in positional notation, always with a point. -/
def positionalNumeral (negative : Bool) (row : DigitRow) : Numeral :=
  if row.point ≤ 0 then
    ⟨negative, ['0'], some (List.replicate (-row.point).toNat '0' ++ row.digits), none⟩
  else if (row.digits.drop row.point.toNat).isEmpty then
    ⟨negative, row.digits.take row.point.toNat ++
      List.replicate (row.point.toNat - row.digits.length) '0', some ['0'], none⟩
  else
    ⟨negative, row.digits.take row.point.toNat, some (row.digits.drop row.point.toNat), none⟩

/-- A row of digits with one digit before the point and the power of ten behind a mark. -/
def scientificNumeral (negative : Bool) (row : DigitRow) : Numeral :=
  let e := row.point - 1
  let tail := row.digits.drop 1
  ⟨negative, row.digits.take 1, if tail.isEmpty then none else some tail,
    some ('e', some (if 0 ≤ e then '+' else '-'), Decimal.digits e.natAbs)⟩

/-- A binary64 number as written, if it is finite. -/
def floatNumeral? : Binary64 → Option Numeral
  | .finite s m e =>
    if m = 0 then some ⟨s, ['0'], some ['0'], none⟩
    else
      let row := shortest .even m e
      if -5 < row.point ∧ row.point ≤ 16 then some (positionalNumeral s row)
      else some (scientificNumeral s row)
  | _ => none

theorem isRow_digits (n : Nat) : IsRow (Decimal.digits n) :=
  ⟨Decimal.digits_ne_nil n, fun _ ↦ Decimal.isDigit_of_mem_digits⟩

theorem wellFormed_integerNumeral (i : Int) : (integerNumeral i).WellFormed :=
  ⟨isRow_digits _, fun _ ↦ Decimal.eq_nil_of_digits_eq_zero_cons, nofun, nofun⟩

theorem isRow_zero : IsRow ['0'] := ⟨nofun, by simp; decide⟩

theorem isRow_append {digits digits' : List Char} (h : IsRow digits)
    (h' : ∀ c ∈ digits', Decimal.isDigit c = true) : IsRow (digits ++ digits') :=
  ⟨List.append_ne_nil_of_left_ne_nil h.ne_nil _, List.forall_mem_append.mpr ⟨h.isDigit, h'⟩⟩

theorem isDigit_of_mem_zeros {n : Nat} {c : Char} (h : c ∈ List.replicate n '0') :
    Decimal.isDigit c = true := by
  rw [List.eq_of_mem_replicate h]
  rfl

variable {row : DigitRow}

/-- The first digits of a proper row begin with a digit other than zero. -/
theorem take_proper (h : row.Proper) (count : Nat) (hcount : count ≠ 0) :
    IsRow (row.digits.take count) ∧ ∀ more rest, row.digits.take count ++ more ≠ '0' :: rest := by
  obtain ⟨count, rfl⟩ := Nat.exists_eq_succ_of_ne_zero hcount
  obtain ⟨d, ds, hdigits⟩ := List.exists_cons_of_ne_nil h.ne_nil
  have hlead := h.lead
  have hisDigit := h.isDigit
  rw [hdigits] at hlead hisDigit ⊢
  refine ⟨⟨nofun, fun c hc ↦ hisDigit c (List.mem_of_mem_take hc)⟩, fun more rest hrest ↦ ?_⟩
  rw [List.take_succ_cons, List.cons_append] at hrest
  exact hlead (congrArg some (List.cons.inj hrest).1)

theorem wellFormed_positionalNumeral (h : row.Proper) (negative : Bool) :
    (positionalNumeral negative row).WellFormed := by
  unfold positionalNumeral
  split_ifs with hpoint hrest
  · refine ⟨isRow_zero, fun rest hwhole ↦ (List.cons.inj hwhole).2.symm, ?_, nofun⟩
    rintro digits ⟨⟩
    refine ⟨List.append_ne_nil_of_right_ne_nil _ h.ne_nil, ?_⟩
    exact List.forall_mem_append.mpr ⟨fun _ ↦ isDigit_of_mem_zeros, h.isDigit⟩
  · obtain ⟨hrow, hlead⟩ := take_proper h row.point.toNat (by omega)
    refine ⟨isRow_append hrow fun _ ↦ isDigit_of_mem_zeros,
      fun rest hwhole ↦ absurd hwhole (hlead _ rest), ?_, nofun⟩
    rintro digits ⟨⟩
    exact isRow_zero
  · obtain ⟨hrow, hlead⟩ := take_proper h row.point.toNat (by omega)
    refine ⟨hrow, fun rest hwhole ↦ absurd (List.append_nil _ ▸ hwhole) (hlead [] rest), ?_, nofun⟩
    rintro digits ⟨⟩
    exact ⟨by simpa using hrest, fun c hc ↦ h.isDigit c (List.mem_of_mem_drop hc)⟩

theorem wellFormed_scientificNumeral (h : row.Proper) (negative : Bool) :
    (scientificNumeral negative row).WellFormed := by
  obtain ⟨hrow, hlead⟩ := take_proper h 1 Nat.one_ne_zero
  refine ⟨hrow, fun rest hwhole ↦ absurd ((List.append_nil _).trans hwhole) (hlead [] rest),
    fun digits hdigits ↦ ?_, ?_⟩
  · simp only [scientificNumeral] at hdigits
    split_ifs at hdigits with htail
    obtain rfl := Option.some.inj hdigits
    exact ⟨by simpa using htail, fun c hc ↦ h.isDigit c (List.mem_of_mem_drop hc)⟩
  · rintro mark sign digits ⟨⟩
    refine ⟨.inl rfl, fun c hc ↦ ?_, isRow_digits _⟩
    split_ifs at hc
    · exact .inl (Option.some.inj hc).symm
    · exact .inr (Option.some.inj hc).symm

/-- A text of digits has no point. -/
theorem contains_point_eq_false {digits : List Char} (h : ∀ c ∈ digits, Decimal.isDigit c = true) :
    digits.contains '.' = false := by
  rw [List.contains_eq_mem, decide_eq_false_iff_not]
  exact fun hmem ↦ absurd (h _ hmem) (by decide)

theorem signed_eq (negative : Bool) (cs : List Char) :
    signed negative cs = (if negative then ['-'] else []) ++ cs := by
  cases negative <;> rfl

theorem spelling_positionalNumeral (h : row.Proper) (negative : Bool) :
    (positionalNumeral negative row).spelling =
      signed negative
        (if row.positional.contains '.' then row.positional
          else row.positional ++ ".0".toList) := by
  rw [signed_eq, Numeral.spelling_eq]
  unfold positionalNumeral DigitRow.positional
  by_cases hpoint : row.point ≤ 0
  · simp [hpoint, fractionSpelling, exponentSpelling]
  by_cases hrest : (row.digits.drop row.point.toNat).isEmpty
  · have hdigits := isRow_append (take_proper h row.point.toNat (by omega)).1
      (fun _ ↦ isDigit_of_mem_zeros (n := row.point.toNat - row.digits.length))
    have hcontains := contains_point_eq_false hdigits.isDigit
    simp only [hpoint, hrest, if_true, if_false, hcontains, Bool.false_eq_true, fractionSpelling,
      exponentSpelling]
    simp
  · simp [hpoint, hrest, fractionSpelling, exponentSpelling]

theorem spelling_scientificNumeral (row : DigitRow) (negative : Bool) :
    (scientificNumeral negative row).spelling = signed negative row.scientific := by
  rw [signed_eq, Numeral.spelling_eq]
  unfold scientificNumeral DigitRow.scientific
  simp only [exponentSpelling, fractionSpelling]
  split_ifs <;> simp

/-- A finite number is written as its numeral. -/
theorem floatNumeral?_spec {x : Binary64} {n : Numeral} (h : floatNumeral? x = some n) :
    n.WellFormed ∧ n.spelling = x.json := by
  cases x with
  | finite s m e =>
    simp only [floatNumeral?] at h
    split_ifs at h with hzero hpositional <;> obtain rfl := Option.some.inj h
    · refine ⟨⟨isRow_zero, fun rest hwhole ↦ (List.cons.inj hwhole).2.symm, ?_, nofun⟩, ?_⟩
      · rintro digits ⟨⟩
        exact isRow_zero
      · rw [Binary64.json, if_pos hzero]
        cases s <;> rfl
    · have hproper := shortest_proper hzero .even e
      refine ⟨wellFormed_positionalNumeral hproper s, ?_⟩
      rw [spelling_positionalNumeral hproper, Binary64.json, if_neg hzero]
      simp only [if_pos hpositional]
    · have hproper := shortest_proper hzero .even e
      refine ⟨wellFormed_scientificNumeral hproper s, ?_⟩
      rw [spelling_scientificNumeral, Binary64.json, if_neg hzero]
      simp only [if_neg hpositional]
  | _ => cases h

theorem floatNumeral?_eq_none {x : Binary64} (h : floatNumeral? x = none) :
    x.json = "null".toList := by
  cases x with
  | finite s m e =>
    simp only [floatNumeral?] at h
    split_ifs at h
  | _ => rfl

theorem spelling_integerNumeral (i : Int) : (integerNumeral i).spelling = Decimal.writeInt i := by
  rw [Numeral.spelling_eq, integerNumeral, Decimal.writeInt]
  by_cases h : i < 0 <;> simp [h, fractionSpelling, exponentSpelling]

/-! ### Documents -/

/-- A number as written. One that is not finite is written as null. -/
def Number.written : Number → Written
  | .integer i => .number (integerNumeral i) (wellFormed_integerNumeral i)
  | .float x =>
    match h : floatNumeral? x with
    | some n => .number n (floatNumeral?_spec h).1
    | none => .null

mutual

/-- A document as the printer writes it. -/
def written : Json → Written
  | .null => .null
  | .bool b => .bool b
  | .number n => n.written
  | .string s => .string (spell s)
  | .array items => .array (writtenItems items)
  | .object members => .object (writtenMembers members)

/-- Items as the printer writes them. -/
def writtenItems : List Json → List Written
  | [] => []
  | item :: items => item.written :: writtenItems items

/-- Members as the printer writes them. -/
def writtenMembers : List (String × Json) → List (SpelledString × Written)
  | [] => []
  | (name, value) :: members => (spell name, value.written) :: writtenMembers members

end

theorem Number.map_text (n : Number) :
    n.text.map Glyph.char = n.written.tokens.flatMap Token.spelling := by
  cases n with
  | integer i =>
    simp [Number.text, Number.written, Written.tokens, Token.spelling, spelling_integerNumeral]
  | float x =>
    rw [Number.text, Number.written]
    split
    · rename_i n h
      simp [Written.tokens, Token.spelling, (floatNumeral?_spec h).2]
    · rename_i h
      rw [floatNumeral?_eq_none h]
      rfl

theorem map_quote (s : String) : (quote s.toList).map Glyph.char = (spell s).quoted.spelling := by
  rw [SpelledString.quoted, spelling_spell]

mutual

/-- The compact text of a document spells the document's tokens with nothing between them. -/
theorem map_chars : (j : Json) → j.chars.map Glyph.char = j.written.tokens.flatMap Token.spelling
  | .null | .bool true | .bool false => rfl
  | .number n => n.map_text
  | .string s => by
    rw [chars, written, Written.tokens, map_quote]
    simp [Token.spelling]
  | .array items => by
    rw [chars, written, Written.tokens]
    simp [map_itemChars items, Token.spelling]
  | .object members => by
    rw [chars, written, Written.tokens]
    simp [map_memberChars members, Token.spelling]

theorem map_itemChars : (items : List Json) →
    (itemChars items).map Glyph.char = (itemTokens (writtenItems items)).flatMap Token.spelling
  | [] => rfl
  | [item] => item.map_chars
  | item :: next :: items => by
    have hrest := map_itemChars (next :: items)
    rw [writtenItems] at hrest
    rw [itemChars, writtenItems, writtenItems, itemTokens]
    simp [item.map_chars, hrest, Token.spelling]

theorem map_memberChars : (members : List (String × Json)) →
    (memberChars members).map Glyph.char =
      (memberTokens (writtenMembers members)).flatMap Token.spelling
  | [] => rfl
  | [(name, value)] => by
    rw [memberChars, writtenMembers, writtenMembers, memberTokens]
    simp [value.map_chars, map_quote, Token.spelling]
  | (name, value) :: (name', value') :: members => by
    have hrest := map_memberChars ((name', value') :: members)
    rw [writtenMembers] at hrest
    rw [memberChars, writtenMembers, writtenMembers, memberTokens]
    simp [value.map_chars, map_quote, hrest, Token.spelling]

end

end SearchClient.Json

import SearchClient.Calendar.TimeSpan
import SearchClient.Proofs.Number.FloatTexts
import SearchClient.Proofs.Text.Blanks

/-!
# Time spans that are written and read again

A span is written as a whole number of a unit, and so its text may have another number and another
unit than the text it was read from. `Written` says what stands in it. Where nothing is rounded when
the factor is multiplied by the ratios of the units (`ExactProducts`), the text is read as a span of
the same length (`text_keeps_length`): the factor that is read back is the whole number itself, and
its product with the unit is the product that the span had before.

Two numbers are not exact, and both come out alike. A length beyond the greatest count of
nanoseconds is written with that count, which is read as two to the sixty-fourth power, and is cut
off again (`parse_count`). And a length that no unit divides is below two to the fifty-third power,
where its nearest whole number is exact.
-/

set_option autoImplicit false
set_option relaxedAutoImplicit false

namespace SearchClient

/-! ### Units -/

namespace TimeUnit

theorem length_pos (u : TimeUnit) : 0 < u.length := by
  cases u <;> decide

theorem length_lt (u : TimeUnit) : u.length < 2 ^ 53 := by
  cases u <;> decide

/-- A unit divides every larger one. -/
theorem length_dvd {u v : TimeUnit} (h : u.length ≤ v.length) : u.length ∣ v.length := by
  revert h
  cases u <;> cases v <;> decide

theorem mem_descending (u : TimeUnit) : u ∈ descending := by
  cases u <;> decide

/-- The first unit found from the largest on is the largest with the property. -/
theorem largest_of_find? {p : TimeUnit → Bool} {u : TimeUnit} (h : descending.find? p = some u) :
    p u = true ∧ ∀ v, p v = true → v.length ≤ u.length := by
  obtain ⟨hu, before, after, hlist, hbefore⟩ := List.find?_eq_some_iff_append.mp h
  have hsorted : descending.Pairwise fun v w ↦ w.length ≤ v.length := by decide
  rw [hlist, List.pairwise_append] at hsorted
  refine ⟨hu, fun v hv ↦ ?_⟩
  have hmem : v ∈ before ++ u :: after := hlist ▸ mem_descending v
  obtain hmem | hmem := List.mem_append.mp hmem
  · have hnot := hbefore v hmem
    rw [hv] at hnot
    cases hnot
  · obtain rfl | hmem := List.mem_cons.mp hmem
    · exact le_rfl
    · exact (List.pairwise_cons.mp hsorted.2.1).1 v hmem

end TimeUnit

namespace TimeSpan

open Binary64

variable {q : ℚ} {factor : Binary64} {unit u : TimeUnit}

/-! ### Reading a whole number of a unit -/

/-- The unit behind a row of digits is found. -/
theorem splitUnit_digits {number : List Char} (h : ∀ c ∈ number, Decimal.isDigit c = true)
    (u : TimeUnit) : splitUnit (number ++ u.suffix.toList) = some (number, u) := by
  -- a digit in front of a suffix is not the letter that a longer suffix would have there
  have hother (letters : List Char) (c : Char) (hc : Decimal.isDigit c = false) :
      Text.dropPrefix? (c :: letters) number.reverse = none := by
    generalize hr : number.reverse = r
    cases r with
    | nil => rfl
    | cons d ds =>
      have hd : Decimal.isDigit d = true :=
        h d (List.mem_reverse.mp (hr ▸ List.mem_cons_self))
      refine if_neg ?_
      rintro rfl
      rw [hc] at hd
      cases hd
  cases u <;>
    simp [splitUnit, TimeUnit.bySuffix, TimeUnit.suffix, Text.dropSuffix?, Text.dropPrefix?, hother,
      Decimal.isDigit]

/-- The digits of a count with a unit behind them are read as that count of the unit. -/
theorem parse_digits {n : ℕ} (h : n ≤ greatestUnsigned) (hn : (ofNat n).Names q) (u : TimeUnit) :
    parse (String.ofList (Decimal.digits n) ++ u.suffix) = .ok (of (ofNat n) u) := by
  have hdigits (c : Char) (hc : c ∈ Decimal.digits n) : Decimal.isDigit c = true :=
    Decimal.isDigit_of_mem_digits hc
  obtain ⟨d, ds, hcons⟩ := List.exists_cons_of_ne_nil (Decimal.digits_ne_nil n)
  have hd : Text.isBlank d = false :=
    Text.not_isBlank_of_isDigit (hdigits d (hcons ▸ List.mem_cons_self))
  have hnumber : Text.trim (Decimal.digits n) = Decimal.digits n := by
    have hsolid := Text.solid_of_isDigit (Decimal.digits_ne_nil n) hdigits
    rw [hcons] at hsolid ⊢
    exact hsolid.trim_eq_self hd
  have htext : Text.trim (Decimal.digits n ++ u.suffix.toList) =
      Decimal.digits n ++ u.suffix.toList := by
    have hsuffix : Text.Solid u.suffix.toList :=
      ⟨u.suffix.toList.dropLast, u.suffix.toList.getLast (by cases u <;> decide),
        (List.dropLast_concat_getLast _).symm, by cases u <;> decide⟩
    have hsolid := hsuffix.append (Decimal.digits n)
    rw [hcons, List.cons_append] at hsolid ⊢
    exact hsolid.trim_eq_self hd
  -- the letters of the unit tell the text from the two that have no unit
  have hletter (cs : List Char) (hcs : ∀ c ∈ u.suffix.toList, c ∉ cs) :
      Decimal.digits n ++ u.suffix.toList ≠ cs := by
    rintro rfl
    have hhead : u.suffix.toList.head (by cases u <;> decide) ∈ u.suffix.toList := List.head_mem _
    exact hcs _ hhead (List.mem_append_right _ hhead)
  have hempty : Decimal.digits n ++ u.suffix.toList ≠ [] := hletter _ (by simp)
  have hlimitless : Decimal.digits n ++ u.suffix.toList ≠ ['-', '1'] :=
    hletter _ (by cases u <;> simp [TimeUnit.suffix])
  have hzero : Decimal.digits n ++ u.suffix.toList ≠ ['0'] :=
    hletter _ (by cases u <;> simp [TimeUnit.suffix])
  simp only [parse, String.toList_append, String.toList_ofList, htext, if_neg hempty,
    if_neg hlimitless, if_neg hzero, splitUnit_digits hdigits u, hnumber,
    Decimal.readFloat?_digits h, hn.isFinite, hn.not_lt_zero, Bool.not_true, Bool.or_self,
    Bool.false_eq_true, if_false]

/-! ### Lengths -/

/-- The length of a factor of a unit, where their product is exact. -/
theorem nanos?_of (hfactor : factor.Names q)
    (hproduct : (factor * ofNat u.length).Names (q * u.length)) :
    (of factor u).nanos? = some (min greatest ⌊q * u.length + 1 / 2⌋₊) := by
  unfold of
  split_ifs with hzero
  · rw [hfactor.isZero_iff.mp hzero, zero_mul]
    norm_num [nanos?]
  · rw [nanos?, hproduct.round.toNatUpTo_eq, Nat.floor_natCast]

/-- A count up to the greatest one, with a unit behind it, is read as a span of the same length, and
a larger one is cut off there as its length is. -/
theorem parse_count {x : Binary64} {n : ℕ} (hn : x.Names n)
    (hproduct : (x * ofNat u.length).Names (n * u.length : ℕ)) :
    ∃ back, parse (String.ofList (Decimal.digits (min greatest n)) ++ u.suffix) = .ok back ∧
      back.nanos? = some (min greatest (n * u.length)) := by
  obtain hle | hlt := le_or_gt n greatest
  · obtain rfl := hn.ofNat_eq
    rw [min_eq_right hle]
    refine ⟨_, parse_digits hle hn u, ?_⟩
    rw [Nat.cast_mul] at hproduct
    rw [nanos?_of hn hproduct, ← Nat.cast_mul, floor_add_half]
  · have hgreatest : (ofNat greatest).Names (2 ^ 64) := by
      refine ⟨hiddenBit, 12, by decide +kernel, ⟨by decide, .inl le_rfl, by decide, by decide⟩, ?_⟩
      norm_num [hiddenBit]
    rw [min_eq_left hlt.le]
    refine ⟨_, parse_digits le_rfl hgreatest u, ?_⟩
    have hlength : greatest ≤ n * u.length :=
      hlt.le.trans (Nat.le_mul_of_pos_right n u.length_pos)
    rw [min_eq_left hlength]
    cases u <;> decide +kernel

/-! ### Spans that were read -/

/-- A text or a document is read as this span. -/
def Readable (span : TimeSpan) : Prop :=
  (∃ raw, parse raw = .ok span) ∨ ∃ document, ofJson document = .ok span

/-- The factor is finite, and its product with the count of every smaller unit in its own is not
rounded. -/
def ExactProducts : TimeSpan → Prop
  | .value factor unit => ∃ q, factor.value? = some q ∧ ∀ u : TimeUnit, u.length ≤ unit.length →
      (factor * ofNat (unit.length / u.length)).value? = some (q * (unit.length / u.length : ℕ))
  | _ => True

theorem value_of_of {x : Binary64} (h : of x u = .value factor unit) :
    x = factor ∧ x.isZero = false := by
  unfold of at h
  split_ifs at h with hzero
  cases h
  exact ⟨rfl, by simpa using hzero⟩

theorem names_of_parse {raw : String} (h : parse raw = .ok (.value factor unit))
    (hvalue : factor.value? = some q) : factor.Names q := by
  simp only [parse] at h
  split_ifs at h
  · cases h
  · cases h
  · split at h
    · cases h
    split at h
    · cases h
    · rename_i hread
      split_ifs at h with hlength
      obtain ⟨rfl, hzero⟩ := value_of_of (Except.ok.inj h)
      simp only [Bool.or_eq_true, not_or, Bool.not_eq_true, Bool.not_eq_false'] at hlength
      obtain ⟨r, hnames⟩ := (Decimal.regular_readFloat? hread).names hlength.1 hlength.2 hzero
      obtain rfl : r = q := Option.some.inj (hnames.value?_eq.symm.trans hvalue)
      exact hnames

/-- A finite factor that was read has no sign and is in its one form. -/
theorem Readable.names (h : Readable (.value factor unit)) (hvalue : factor.value? = some q) :
    factor.Names q := by
  obtain ⟨raw, hraw⟩ | ⟨document, hdocument⟩ := h
  · exact names_of_parse hraw hvalue
  · unfold ofJson at hdocument
    split at hdocument
    · split at hdocument
      · rename_i hraw
        cases hdocument
        exact names_of_parse hraw hvalue
      · cases hdocument
    · rename_i i
      split_ifs at hdocument with hlimitless hnegative
      · cases hdocument
      · obtain ⟨rfl, -⟩ := value_of_of (Except.ok.inj hdocument)
        have hpositive : ofInt i = ofRatio false i.natAbs 1 := by
          rw [ofInt, decide_eq_false hnegative]
        rw [hpositive] at hvalue ⊢
        exact names_ofRatio Nat.one_pos hvalue
    · cases hdocument

/-! ### Writing -/

/-- What stands in the text of a span: `-1`, `0`, or the count of the largest unit, not larger than
its own, that holds its length a whole number of times; if none does, the nearest count of
nanoseconds. No count is beyond the greatest one. -/
inductive Written : TimeSpan → String → Prop
  | minusOne : Written .minusOne "-1"
  | zero : Written .zero "0"
  | whole {factor : Binary64} {unit u : TimeUnit} {q : ℚ} {count : ℕ}
      (hvalue : factor.value? = some q) (hunit : u.length ≤ unit.length)
      (hwhole : q * unit.length = count * u.length)
      (hlargest : ∀ (v : TimeUnit) (n : ℕ), v.length ≤ unit.length →
        q * unit.length = n * v.length → v.length ≤ u.length) :
      Written (.value factor unit)
        (String.ofList (Decimal.digits (min greatest count)) ++ u.suffix)
  | nearest {factor : Binary64} {unit : TimeUnit} {q : ℚ} (hvalue : factor.value? = some q)
      (hnone : ∀ (v : TimeUnit) (n : ℕ), v.length ≤ unit.length →
        q * unit.length ≠ n * v.length) :
      Written (.value factor unit)
        (String.ofList (Decimal.digits (min greatest ⌊q * unit.length + 1 / 2⌋₊)) ++
          TimeUnit.nanos.suffix)

/-- What is written is read as a span of the same length. -/
def KeepsLength (span : TimeSpan) : Prop :=
  ∃ back, parse span.text = .ok back ∧ back.nanos? = span.nanos?

section Value

variable (hfactor : factor.Names q)
  (hexact : ∀ u : TimeUnit, u.length ≤ unit.length →
    (factor * ofNat (unit.length / u.length)).Names (q * (unit.length / u.length : ℕ)))

/-- Counted in a smaller unit, a length has as many of it as the units have. -/
theorem scaled_mul_length (hu : u.length ≤ unit.length) (q : ℚ) :
    q * (unit.length / u.length : ℕ) * u.length = q * unit.length := by
  rw [mul_assoc, ← Nat.cast_mul, Nat.div_mul_cancel (TimeUnit.length_dvd hu)]

include hexact in
/-- The factor of a smaller unit is whole when the unit fills the length. -/
theorem scaled_isWhole_iff (hu : u.length ≤ unit.length) :
    (factor * ofNat (unit.length / u.length)).isWhole = true ↔
      ∃ n : ℕ, q * unit.length = n * u.length := by
  have hlength : (u.length : ℚ) ≠ 0 := by exact_mod_cast u.length_pos.ne'
  rw [(hexact u hu).isWhole_iff]
  refine exists_congr fun n ↦ ?_
  rw [← scaled_mul_length hu, mul_left_inj' hlength]

include hexact in
theorem product_names : (factor * ofNat unit.length).Names (q * unit.length) := by
  have hnanos := hexact .nanos unit.length_pos
  rwa [TimeUnit.length, Nat.div_one] at hnanos

include hfactor hexact in
/-- A factor of a unit is written as such a text, and read as the same length again. -/
theorem written_value :
    Written (.value factor unit) (text (.value factor unit)) ∧
      KeepsLength (.value factor unit) := by
  have hproduct := product_names hexact
  have hnanos : (value factor unit).nanos? = some (min greatest ⌊q * unit.length + 1 / 2⌋₊) := by
    rw [nanos?, hproduct.round.toNatUpTo_eq, Nat.floor_natCast]
  unfold KeepsLength
  rw [hnanos]
  cases hfind : TimeUnit.descending.find? fun u ↦
      u.length ≤ unit.length && (factor * ofNat (unit.length / u.length)).isWhole with
  | some u =>
    obtain ⟨hu, hlargest⟩ := TimeUnit.largest_of_find? hfind
    simp only [Bool.and_eq_true, decide_eq_true_eq] at hu hlargest
    have hscaled := hexact u hu.1
    obtain ⟨count, hcount⟩ := hscaled.isWhole_iff.mp hu.2
    have hlength : q * unit.length = (count * u.length : ℕ) := by
      rw [← scaled_mul_length hu.1, hcount, Nat.cast_mul]
    rw [hcount] at hscaled
    have htext : text (.value factor unit) =
        String.ofList (Decimal.digits (min greatest count)) ++ u.suffix := by
      simp only [text, wholeUnits, hfind, hscaled.toNatUpTo_eq, Nat.floor_natCast]
    have hback : factor * ofNat (unit.length / u.length) * ofNat u.length =
        factor * ofNat unit.length := by
      refine hscaled.mul (names_ofNat u.length_lt) ?_
      rwa [← Nat.cast_mul, ← hlength]
    rw [htext, hlength, floor_add_half]
    refine ⟨.whole hfactor.value?_eq hu.1 (by rw [hlength, Nat.cast_mul]) ?_, ?_⟩
    · exact fun v n hv hn ↦ hlargest v ⟨hv, (scaled_isWhole_iff hexact hv).mpr ⟨n, hn⟩⟩
    · refine parse_count hscaled ?_
      rwa [hback, ← hlength]
  | none =>
    have hnone := List.find?_eq_none.mp hfind
    simp only [Bool.and_eq_true, decide_eq_true_eq, not_and] at hnone
    have htext : text (.value factor unit) =
        String.ofList (Decimal.digits (min greatest ⌊q * unit.length + 1 / 2⌋₊)) ++
          TimeUnit.nanos.suffix := by
      simp only [text, wholeUnits, hfind, hproduct.round.toNatUpTo_eq, Nat.floor_natCast]
    have hone (n : ℕ) : n * TimeUnit.nanos.length = n := Nat.mul_one n
    rw [htext]
    refine ⟨.nearest hfactor.value?_eq fun v n hv hn ↦ ?_, ?_⟩
    · exact hnone v (TimeUnit.mem_descending v) hv ((scaled_isWhole_iff hexact hv).mpr ⟨n, hn⟩)
    · have hround := hproduct.round
      have hback := hround.mul (names_ofNat TimeUnit.nanos.length_lt)
        (by rwa [← Nat.cast_mul, hone])
      have hread := parse_count hround (u := .nanos) (by rwa [hback, hone])
      rwa [hone] at hread

end Value

/-- What is written for a span that was read is read as the same length. -/
theorem Readable.written {span : TimeSpan} (h : Readable span) (hexact : span.ExactProducts) :
    Written span span.text ∧ KeepsLength span := by
  cases span with
  | minusOne => exact ⟨.minusOne, .minusOne, rfl, rfl⟩
  | zero => exact ⟨.zero, .zero, rfl, rfl⟩
  | value factor unit =>
    obtain ⟨q, hvalue, hproducts⟩ := hexact
    have hfactor := h.names hvalue
    refine written_value hfactor fun u hu ↦ ?_
    have hratio : unit.length / u.length < 2 ^ 53 :=
      (Nat.div_le_self ..).trans_lt unit.length_lt
    exact hfactor.mul_names (names_ofNat hratio) (hproducts u hu)

/-! ### Lengths in nanoseconds -/

/-- The span of a length: nothing, or the count of the largest unit that divides it. -/
inductive Largest : ℕ → TimeSpan → Prop
  | zero : Largest 0 .zero
  | value {length : ℕ} {u : TimeUnit} (hpos : 0 < length) (hu : u.length ∣ length)
      (hlargest : ∀ v : TimeUnit, v.length ∣ length → v.length ≤ u.length) :
      Largest length (.value (ofNat (length / u.length)) u)

theorem largest_ofNanos (length : ℕ) : Largest length (ofNanos length) := by
  unfold ofNanos
  split_ifs with hzero
  · rw [hzero]
    exact .zero
  · cases hfind : TimeUnit.descending.find? fun u ↦ length % u.length == 0 with
    | none =>
      have hnanos := List.find?_eq_none.mp hfind .nanos (TimeUnit.mem_descending .nanos)
      simp [TimeUnit.length, Nat.mod_one] at hnanos
    | some u =>
      obtain ⟨hu, hlargest⟩ := TimeUnit.largest_of_find? hfind
      simp only [beq_iff_eq, ← Nat.dvd_iff_mod_eq_zero] at hu hlargest
      exact .value (Nat.pos_of_ne_zero hzero) hu hlargest

/-- A length below two to the fifty-third power is written and read again. -/
theorem ofNanos_written {length : ℕ} (h : length < 2 ^ 53) :
    ∃ back, parse (ofNanos length).text = .ok back ∧ back.nanos? = some length := by
  have hlargest := largest_ofNanos length
  generalize ofNanos length = span at hlargest
  cases hlargest with
  | zero => exact ⟨.zero, rfl, rfl⟩
  | @value _ u _ hu _ =>
    obtain ⟨count, rfl⟩ := hu
    rw [Nat.mul_div_cancel_left _ u.length_pos]
    have hsmall {n : ℕ} (hn : n ≤ u.length) : count * n < 2 ^ 53 := by
      rw [Nat.mul_comm] at h
      exact (Nat.mul_le_mul_left count hn).trans_lt h
    have hcount : count < 2 ^ 53 := by
      simpa using hsmall u.length_pos
    -- all products are natural numbers that are not larger than the length
    have hexact (v : TimeUnit) (hv : v.length ≤ u.length) :
        (ofNat count * ofNat (u.length / v.length)).Names
          ((count : ℚ) * (u.length / v.length : ℕ)) := by
      have hratio : u.length / v.length ≤ u.length := Nat.div_le_self ..
      have hnames := names_ofNat (hsmall hratio)
      rw [Nat.cast_mul] at hnames
      rwa [(names_ofNat hcount).mul (names_ofNat (hratio.trans_lt u.length_lt)) hnames]
    obtain ⟨-, back, hparse, hback⟩ := written_value (names_ofNat hcount) hexact
    refine ⟨back, hparse, hback.trans ?_⟩
    have hgreatest : u.length * count ≤ greatest := h.le.trans (by decide)
    rw [nanos?, (product_names hexact).round.toNatUpTo_eq, Nat.floor_natCast, ← Nat.cast_mul,
      floor_add_half, Nat.mul_comm, min_eq_right hgreatest]

/-! ### The text of a span -/

/-- The text of a span that was read names its length. -/
theorem text_keeps_length :
    (∀ span : TimeSpan, Readable span → span.ExactProducts →
      Written span span.text ∧
        ∃ back, parse span.text = .ok back ∧ back.nanos? = span.nanos?) ∧
    ∀ length : ℕ, length < 2 ^ 53 →
      Largest length (ofNanos length) ∧
        ∃ back, parse (ofNanos length).text = .ok back ∧ back.nanos? = some length :=
  ⟨fun _ hread hexact ↦ hread.written hexact,
    fun length h ↦ ⟨largest_ofNanos length, ofNanos_written h⟩⟩

/-- One hour and a half is written in minutes, and 120 seconds are written as two of them. -/
theorem text_keeps_length_of_ninetyMinutes :
    (∃ back, parse (text (.value (.finite false 6755399441055744 (-52)) .hours)) = .ok back ∧
      back.nanos? = some 5400000000000) ∧
    ∃ back, parse (ofNanos 120000000000).text = .ok back ∧ back.nanos? = some 120000000000 := by
  have hread : Readable (.value (.finite false 6755399441055744 (-52)) .hours) :=
    .inl ⟨"1.5h", by decide +kernel⟩
  have hexact : ExactProducts (.value (.finite false 6755399441055744 (-52)) .hours) := by
    refine ⟨3 / 2, by norm_num [value?], fun u hu ↦ ?_⟩
    cases u <;> decide +kernel
  obtain ⟨-, back, hback, hlength⟩ := text_keeps_length.1 _ hread hexact
  exact ⟨⟨back, hback, hlength.trans (by decide +kernel)⟩,
    (text_keeps_length.2 120000000000 (by decide)).2⟩

end TimeSpan

end SearchClient

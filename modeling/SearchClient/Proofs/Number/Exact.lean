import SearchClient.Number.Binary64
import Mathlib.Algebra.Order.Field.Power
import Mathlib.Algebra.Order.Floor.Semifield
import Mathlib.Data.Rat.Floor
import Mathlib.Tactic.FieldSimp
import Mathlib.Tactic.Linarith
import Mathlib.Tactic.NormNum
import Mathlib.Tactic.Ring
import Mathlib.Tactic.SplitIfs

/-!
# Exact values of binary64 numbers

A finite number has an exact rational value (`Binary64.value?`). Finite numbers are in one form
(`Canonical`): every rounding gives that form (`canonical_ofRatio`), and since the form fixes the
exponent (`exponent_unique`), a fraction that a number of that form names exactly is rounded to that
very number (`Names.ofRatio_eq`). So where the exact result of an operation is a number, the
operation gives it: products (`Names.mul`), rounding to a whole number (`Names.round`), and natural
numbers below two to the fifty-third power (`names_ofNat`).
-/

set_option autoImplicit false
set_option relaxedAutoImplicit false

namespace SearchClient

theorem cast_twoTo (n : ℕ) : (twoTo n : ℚ) = 2 ^ n :=
  Nat.cast_pow 2 n

namespace Binary64

/-- The exact value of a finite number. -/
def value? : Binary64 → Option ℚ
  | .finite negative mantissa exponent =>
    some ((if negative then -1 else 1) * (mantissa * 2 ^ exponent))
  | _ => none

/-- The one form of a finite number: its mantissa fills fifty-three bits, or its exponent is the
least one. -/
structure Canonical (mantissa : ℕ) (exponent : ℤ) : Prop where
  bits : mantissa < 2 * hiddenBit
  lead : hiddenBit ≤ mantissa ∨ exponent = leastExponent
  least : leastExponent ≤ exponent
  greatest : exponent ≤ greatestExponent

/-- The number is finite, has no sign, and is the one form of this value. -/
def Names (x : Binary64) (q : ℚ) : Prop :=
  ∃ mantissa exponent, x = .finite false mantissa exponent ∧ Canonical mantissa exponent ∧
    q = mantissa * 2 ^ exponent

/-! ### Scaling and the exponent -/

variable {num den : ℕ} {q : ℚ}

theorem two_zpow_pos (e : ℤ) : (0 : ℚ) < 2 ^ e :=
  zpow_pos (by norm_num) e

/-- Scaling divides by the power of two. -/
theorem scale_spec (num : Nat) (hden : 0 < den) (e : ℤ) :
    0 < (scale num den e).2 ∧
      ((scale num den e).1 : ℚ) / (scale num den e).2 = (num / den : ℚ) / 2 ^ e := by
  unfold scale
  split_ifs with he
  · have hpow : (2 : ℚ) ^ e = 2 ^ e.toNat := by
      rw [← zpow_natCast, Int.toNat_of_nonneg he]
    refine ⟨Nat.mul_pos hden (Nat.pow_pos (by decide)), ?_⟩
    rw [Nat.cast_mul, cast_twoTo, hpow, div_div]
  · have hpow : (2 : ℚ) ^ e = ((2 : ℚ) ^ (-e).toNat)⁻¹ := by
      rw [← zpow_natCast, Int.toNat_of_nonneg (by omega), zpow_neg, inv_inv]
    refine ⟨hden, ?_⟩
    rw [Nat.cast_mul, cast_twoTo, hpow, div_inv_eq_mul, mul_div_right_comm]

/-- The two sides of the fraction are the value. -/
theorem ratio_spec (m : ℕ) (e : ℤ) :
    0 < (ratio m e).2 ∧ ((ratio m e).1 : ℚ) / (ratio m e).2 = m * 2 ^ e := by
  unfold ratio
  split_ifs with he
  · refine ⟨Nat.one_pos, ?_⟩
    rw [Nat.cast_mul, cast_twoTo, Nat.cast_one, div_one, ← zpow_natCast, Int.toNat_of_nonneg he]
  · refine ⟨Nat.pow_pos (by decide), ?_⟩
    rw [cast_twoTo, ← zpow_natCast, Int.toNat_of_nonneg (by omega), zpow_neg, div_inv_eq_mul]

/-- A positive number lies between the powers of two that its logarithm gives. -/
theorem log2_bounds {n : ℕ} (hn : 0 < n) :
    (2 : ℚ) ^ (n.log2 : ℤ) ≤ n ∧ (n : ℚ) < 2 ^ ((n.log2 : ℤ) + 1) := by
  rw [zpow_add_one₀ (by norm_num), zpow_natCast]
  constructor
  · exact_mod_cast Nat.log2_self_le hn.ne'
  · exact_mod_cast (pow_succ 2 n.log2) ▸ Nat.lt_log2_self

/-- The exponent gives the fraction a mantissa of fifty-three bits, or is the least one and gives it
fewer. -/
structure Fits (q : ℚ) (e : ℤ) : Prop where
  bits : q < 2 ^ 53 * 2 ^ e
  lead : 2 ^ 52 * 2 ^ e ≤ q ∨ e = leastExponent
  least : leastExponent ≤ e

theorem fits_exponentOf (hnum : 0 < num) (hden : 0 < den) :
    Fits (num / den) (exponentOf num den) := by
  have hden' : (0 : ℚ) < den := by exact_mod_cast hden
  obtain ⟨hnumLow, hnumHigh⟩ := log2_bounds hnum
  obtain ⟨hdenLow, hdenHigh⟩ := log2_bounds hden
  set guess : ℤ := (num.log2 : ℤ) - den.log2 - 53 with hguess
  -- the logarithms leave a choice of two exponents
  have hlow : (2 : ℚ) ^ 52 * 2 ^ guess < num / den := by
    rw [lt_div_iff₀ hden']
    calc (2 : ℚ) ^ 52 * 2 ^ guess * den < 2 ^ 52 * 2 ^ guess * 2 ^ ((den.log2 : ℤ) + 1) :=
          mul_lt_mul_of_pos_left hdenHigh (mul_pos (by norm_num) (two_zpow_pos _))
      _ = 2 ^ (num.log2 : ℤ) := by
          rw [← zpow_natCast, ← zpow_add₀ (by norm_num), ← zpow_add₀ (by norm_num)]
          congr 1
          push_cast
          omega
      _ ≤ num := hnumLow
  have hhigh : (num / den : ℚ) < 2 ^ 54 * 2 ^ guess := by
    rw [div_lt_iff₀ hden']
    calc (num : ℚ) < 2 ^ ((num.log2 : ℤ) + 1) := hnumHigh
      _ = 2 ^ 54 * 2 ^ guess * 2 ^ (den.log2 : ℤ) := by
          rw [← zpow_natCast (2 : ℚ) 54, ← zpow_add₀ (by norm_num), ← zpow_add₀ (by norm_num)]
          congr 1
          push_cast
          omega
      _ ≤ 2 ^ 54 * 2 ^ guess * den :=
          mul_le_mul_of_nonneg_left hdenLow (mul_pos (by norm_num) (two_zpow_pos _)).le
  obtain ⟨hd, hscale⟩ := scale_spec num hden guess
  have hd' : (0 : ℚ) < (scale num den guess).2 := by exact_mod_cast hd
  -- the comparison of the scaled fraction takes the right one
  obtain ⟨e, he, hlowE, hhighE⟩ : ∃ e, exponentOf num den = max leastExponent e ∧
      (2 : ℚ) ^ 52 * 2 ^ e ≤ num / den ∧ (num / den : ℚ) < 2 ^ 53 * 2 ^ e := by
    have hcompare : 2 * hiddenBit * (scale num den guess).2 ≤ (scale num den guess).1 ↔
        (2 : ℚ) ^ 53 * 2 ^ guess ≤ num / den := by
      rw [← le_div_iff₀ (two_zpow_pos guess), ← hscale, le_div_iff₀ hd']
      have hhidden : (2 : ℚ) ^ 53 = ((2 * hiddenBit : ℕ) : ℚ) := by norm_num [hiddenBit]
      rw [hhidden, ← Nat.cast_mul, Nat.cast_le]
    by_cases hbig : 2 * hiddenBit * (scale num den guess).2 ≤ (scale num den guess).1
    · refine ⟨guess + 1, by simp only [exponentOf, ← hguess, if_pos hbig], ?_, ?_⟩
      · rw [zpow_add_one₀ (by norm_num)]
        linarith [hcompare.mp hbig]
      · rw [zpow_add_one₀ (by norm_num)]
        linarith
    · refine ⟨guess, by simp only [exponentOf, ← hguess, if_neg hbig], hlow.le, ?_⟩
      exact not_le.mp fun h ↦ hbig (hcompare.mpr h)
  rw [he]
  refine ⟨hhighE.trans_le ?_, ?_, le_max_left ..⟩
  · exact mul_le_mul_of_nonneg_left (zpow_le_zpow_right₀ (by norm_num) (le_max_right ..))
      (by norm_num)
  · rcases le_total leastExponent e with h | h
    · exact .inl (by rwa [max_eq_right h])
    · exact .inr (max_eq_left h)

/-- Only one exponent fits. -/
theorem exponent_unique {e f : ℤ} (he : Fits q e) (hf : Fits q f) : e = f := by
  -- a number that fills the mantissa at one exponent is too large for every smaller one
  have hle (e f : ℤ) (he : Fits q e) (hf : Fits q f) : e ≤ f := by
    by_contra! hlt
    obtain hlead | rfl := he.lead
    · have hpow : (2 : ℚ) ^ (f + 1) ≤ 2 ^ e := zpow_le_zpow_right₀ (by norm_num) hlt
      rw [zpow_add_one₀ (by norm_num)] at hpow
      linarith [hf.bits]
    · exact absurd hf.least (by omega)
  exact le_antisymm (hle e f he hf) (hle f e hf he)

theorem Canonical.fits {m : ℕ} {e : ℤ} (h : Canonical m e) : Fits (m * 2 ^ e) e := by
  refine ⟨mul_lt_mul_of_pos_right ?_ (two_zpow_pos e), h.lead.imp_left fun hlead ↦ ?_, h.least⟩
  · exact_mod_cast h.bits
  · exact mul_le_mul_of_nonneg_right (by exact_mod_cast hlead) (two_zpow_pos e).le

/-! ### Rounding -/

/-- A whole quotient is not rounded. -/
theorem roundQuotient_mul (m : ℕ) {d : ℕ} (hd : 0 < d) : roundQuotient (m * d) d = m := by
  simp [roundQuotient, Nat.mul_div_cancel m hd, hd]

theorem roundQuotient_le {n d bound : ℕ} (hd : 0 < d) (h : n < bound * d) :
    roundQuotient n d ≤ bound := by
  have hq : n / d < bound := (Nat.div_lt_iff_lt_mul hd).mpr h
  simp only [roundQuotient]
  split_ifs <;> omega

theorem le_roundQuotient {n d bound : ℕ} (hd : 0 < d) (h : bound * d ≤ n) :
    bound ≤ roundQuotient n d := by
  have hq : bound ≤ n / d := (Nat.le_div_iff_mul_le hd).mpr h
  simp only [roundQuotient]
  split_ifs <;> omega

theorem pack_of_canonical {m : ℕ} {e : ℤ} (h : Canonical m e) (s : Bool) :
    pack s m e = .finite s m e := by
  have hbits : m ≠ 2 * hiddenBit := h.bits.ne
  simp only [pack, if_neg hbits, if_neg (not_lt.mpr h.greatest)]
  split_ifs with hm
  · have hlead : e = leastExponent := h.lead.resolve_left (by rw [hm]; decide)
    rw [zero, hm, hlead]
  · rfl

theorem canonical_zero : Canonical 0 leastExponent where
  bits := by decide
  lead := .inr rfl
  least := le_rfl
  greatest := by decide

/-- A mantissa that has at most just overflown is packed in the one form, with its sign. -/
theorem canonical_pack {s t : Bool} {r m : ℕ} {f e : ℤ} (hbits : r ≤ 2 * hiddenBit)
    (hlead : hiddenBit ≤ r ∨ f = leastExponent) (hleast : leastExponent ≤ f)
    (h : pack s r f = .finite t m e) : t = s ∧ Canonical m e := by
  by_cases hover : r = 2 * hiddenBit
  · have hhidden : hiddenBit ≠ 0 := by decide
    simp only [pack, if_pos hover, if_neg hhidden] at h
    split_ifs at h with hgreat
    cases h
    exact ⟨rfl, by decide, .inl le_rfl, by omega, not_lt.mp hgreat⟩
  · simp only [pack, if_neg hover] at h
    split_ifs at h with hzero hgreat
    · cases h
      exact ⟨rfl, canonical_zero⟩
    · cases h
      exact ⟨rfl, lt_of_le_of_ne hbits hover, hlead, hleast, not_lt.mp hgreat⟩

/-- Every finite number that a fraction is rounded to is in the one form, with the sign given. -/
theorem canonical_ofRatio {s t : Bool} {m : ℕ} {e : ℤ} (hden : 0 < den)
    (h : ofRatio s num den = .finite t m e) : t = s ∧ Canonical m e := by
  unfold ofRatio at h
  split_ifs at h with hnum
  · cases h
    exact ⟨rfl, canonical_zero⟩
  · obtain ⟨hbits, hlead, hleast⟩ := fits_exponentOf (Nat.pos_of_ne_zero hnum) hden
    obtain ⟨hd, hscale⟩ := scale_spec num hden (exponentOf num den)
    have hd' : (0 : ℚ) < (scale num den (exponentOf num den)).2 := by exact_mod_cast hd
    rw [← div_lt_iff₀ (two_zpow_pos _), ← hscale, div_lt_iff₀ hd'] at hbits
    rw [← le_div_iff₀ (two_zpow_pos _), ← hscale, le_div_iff₀ hd'] at hlead
    refine canonical_pack (roundQuotient_le hd ?_) (hlead.imp_left fun hlead ↦ ?_) hleast h
    · exact_mod_cast hbits
    · exact le_roundQuotient hd (by exact_mod_cast hlead)

theorem Names.nonneg {x : Binary64} (h : x.Names q) : 0 ≤ q := by
  obtain ⟨m, e, -, -, rfl⟩ := h
  exact mul_nonneg m.cast_nonneg (two_zpow_pos e).le

/-- A fraction that a number names is rounded to that number. -/
theorem Names.ofRatio_eq {x : Binary64} (h : x.Names (num / den)) (hden : 0 < den) :
    ofRatio false num den = x := by
  obtain ⟨m, e, rfl, hcanonical, hvalue⟩ := h
  have hden' : (den : ℚ) ≠ 0 := by exact_mod_cast hden.ne'
  unfold ofRatio
  split_ifs with hnum
  · have hm : m = 0 := by
      have hzero : (m : ℚ) * 2 ^ e = 0 := by rw [← hvalue, hnum, Nat.cast_zero, zero_div]
      exact_mod_cast (mul_eq_zero.mp hzero).resolve_right (two_zpow_pos e).ne'
    have he : e = leastExponent := hcanonical.lead.resolve_left (by rw [hm]; decide)
    rw [zero, hm, he]
  · have he : exponentOf num den = e :=
      exponent_unique (fits_exponentOf (Nat.pos_of_ne_zero hnum) hden) (hvalue ▸ hcanonical.fits)
    obtain ⟨hd, hscale⟩ := scale_spec num hden e
    have hwhole : (scale num den e).1 = m * (scale num den e).2 := by
      have hd' : ((scale num den e).2 : ℚ) ≠ 0 := by exact_mod_cast hd.ne'
      rw [hvalue, mul_div_cancel_right₀ _ (two_zpow_pos e).ne', div_eq_iff hd'] at hscale
      exact_mod_cast hscale
    simp only [he, hwhole, roundQuotient_mul m hd, pack_of_canonical hcanonical]

/-! ### Operations -/

theorem Names.value?_eq {x : Binary64} (h : x.Names q) : x.value? = some q := by
  obtain ⟨m, e, rfl, -, rfl⟩ := h
  simp [value?]

theorem Names.isFinite {x : Binary64} (h : x.Names q) : x.isFinite = true := by
  obtain ⟨m, e, rfl, -⟩ := h
  rfl

/-- The numbers named are not below zero. -/
theorem Names.not_lt_zero {x : Binary64} (h : x.Names q) : x.lt (.zero false) = false := by
  obtain ⟨m, e, rfl, -⟩ := h
  simp only [lt, zero, Nat.zero_mul, Bool.false_eq_true, if_false, decide_eq_false_iff_not]
  omega

theorem Names.isZero_iff {x : Binary64} (h : x.Names q) : x.isZero = true ↔ q = 0 := by
  obtain ⟨m, e, rfl, -, rfl⟩ := h
  cases m with
  | zero => simp [isZero]
  | succ m => simp [isZero, (two_zpow_pos e).ne', Nat.cast_add_one_ne_zero]

/-- The value of a fraction rounded without a sign. -/
theorem names_ofRatio (hden : 0 < den) (h : (ofRatio false num den).value? = some q) :
    (ofRatio false num den).Names q := by
  generalize hx : ofRatio false num den = x at h
  cases x with
  | finite s m e =>
    obtain ⟨rfl, hcanonical⟩ := canonical_ofRatio hden hx
    exact ⟨m, e, rfl, hcanonical, by simpa [value?] using h.symm⟩
  | infinite => cases h
  | nan => cases h

/-- The product of two numbers is the fraction of their exact product, rounded. -/
theorem Names.mul_eq {x y : Binary64} {a b : ℚ} (hx : x.Names a) (hy : y.Names b) :
    ∃ num den : ℕ, 0 < den ∧ (num / den : ℚ) = a * b ∧ x * y = ofRatio false num den := by
  obtain ⟨m, e, rfl, -, rfl⟩ := hx
  obtain ⟨n, f, rfl, -, rfl⟩ := hy
  obtain ⟨hden, hratio⟩ := ratio_spec (m * n) (e + f)
  refine ⟨(ratio (m * n) (e + f)).1, (ratio (m * n) (e + f)).2, hden, ?_, rfl⟩
  rw [hratio, zpow_add₀ (by norm_num), Nat.cast_mul]
  ring

/-- A product that a number names is that number. -/
theorem Names.mul {x y z : Binary64} {a b : ℚ} (hx : x.Names a) (hy : y.Names b)
    (hz : z.Names (a * b)) : x * y = z := by
  obtain ⟨num, den, hden, hvalue, hmul⟩ := hx.mul_eq hy
  rw [← hvalue] at hz
  exact hmul.trans (hz.ofRatio_eq hden)

theorem Names.mul_names {x y : Binary64} {a b : ℚ} (hx : x.Names a) (hy : y.Names b)
    (h : (x * y).value? = some q) : (x * y).Names q := by
  obtain ⟨num, den, hden, -, hmul⟩ := hx.mul_eq hy
  rw [hmul] at h ⊢
  exact names_ofRatio hden h

/-! ### Whole numbers -/

/-- A fraction is a natural number when its lower side divides the upper one. -/
theorem exists_div_eq_iff (hden : 0 < den) : (∃ n : ℕ, (num / den : ℚ) = n) ↔ den ∣ num := by
  have hden' : (den : ℚ) ≠ 0 := by exact_mod_cast hden.ne'
  constructor
  · rintro ⟨n, hn⟩
    rw [div_eq_iff hden'] at hn
    exact ⟨n, by rw [mul_comm]; exact_mod_cast hn⟩
  · rintro ⟨n, rfl⟩
    exact ⟨n, by rw [Nat.cast_mul, mul_div_cancel_left₀ _ hden']⟩

theorem Names.isWhole_iff {x : Binary64} (h : x.Names q) : x.isWhole = true ↔ ∃ n : ℕ, q = n := by
  obtain ⟨m, e, rfl, -, rfl⟩ := h
  obtain ⟨hden, hratio⟩ := ratio_spec m e
  rw [← hratio, exists_div_eq_iff hden]
  unfold isWhole ratio
  split_ifs with he
  · simp [he]
  · simp [he, Nat.dvd_iff_mod_eq_zero]

/-- The whole part of a number, up to a limit. -/
theorem Names.toNatUpTo_eq {x : Binary64} (h : x.Names q) (limit : ℕ) :
    x.toNatUpTo limit = min limit ⌊q⌋₊ := by
  obtain ⟨m, e, rfl, -, rfl⟩ := h
  rw [← (ratio_spec m e).2, Nat.floor_div_eq_div]
  rfl

/-- A natural number that a number names is that number. -/
theorem Names.ofNat_eq {x : Binary64} {n : ℕ} (h : x.Names n) : ofNat n = x := by
  have hfraction : x.Names ((n : ℚ) / (1 : ℕ)) := by rwa [Nat.cast_one, div_one]
  exact hfraction.ofRatio_eq Nat.one_pos

/-- Natural numbers below two to the fifty-third power have an exact form. -/
theorem names_ofNat {n : ℕ} (h : n < 2 ^ 53) : (ofNat n).Names n := by
  obtain rfl | hn := n.eq_zero_or_pos
  · exact ⟨0, leastExponent, rfl, canonical_zero, by simp⟩
  obtain ⟨hbits, hlead, hleast⟩ := fits_exponentOf hn Nat.one_pos
  rw [Nat.cast_one, div_one] at hbits hlead
  set e := exponentOf n 1
  have hnonpos : e ≤ 0 := by
    by_contra! hpos
    have htwo : (2 : ℚ) ^ (1 : ℤ) ≤ 2 ^ e := zpow_le_zpow_right₀ (by norm_num) hpos
    have hlead : (2 : ℚ) ^ 52 * 2 ^ e ≤ n := hlead.resolve_right (by rw [leastExponent]; omega)
    have hn' : (n : ℚ) < 2 ^ 53 := by exact_mod_cast h
    rw [zpow_one] at htwo
    linarith
  -- the mantissa is the number shifted to the left
  have hvalue : (n : ℚ) = (n * 2 ^ (-e).toNat : ℕ) * 2 ^ e := by
    rw [Nat.cast_mul, Nat.cast_pow, Nat.cast_ofNat, ← zpow_natCast,
      Int.toNat_of_nonneg (by omega), mul_assoc, ← zpow_add₀ (by norm_num), neg_add_cancel,
      zpow_zero, mul_one]
  rw [hvalue] at hbits hlead
  have hcanonical : Canonical (n * 2 ^ (-e).toNat) e := by
    refine ⟨?_, hlead.imp_left fun hlead ↦ ?_, hleast, hnonpos.trans (by decide)⟩
    · have := lt_of_mul_lt_mul_right hbits (two_zpow_pos e).le
      exact_mod_cast this
    · have := le_of_mul_le_mul_right hlead (two_zpow_pos e)
      exact_mod_cast this
  have hnames : Names (.finite false (n * 2 ^ (-e).toNat) e) n := ⟨_, e, rfl, hcanonical, hvalue⟩
  rwa [hnames.ofNat_eq]

theorem floor_add_half (n : ℕ) : ⌊(n : ℚ) + 1 / 2⌋₊ = n := by
  rw [Nat.floor_eq_iff (by positivity)]
  constructor <;> linarith

/-- Rounding to a whole number, a half upwards, is exact. -/
theorem Names.round {x : Binary64} (h : x.Names q) : x.round.Names ⌊q + 1 / 2⌋₊ := by
  obtain ⟨m, e, rfl, hcanonical, hvalue⟩ := id h
  obtain ⟨hden, hratio⟩ := ratio_spec m e
  have hden' : ((ratio m e).2 : ℚ) ≠ 0 := by exact_mod_cast hden.ne'
  have hround : roundedMagnitude m e = ⌊q + 1 / 2⌋₊ := by
    have hhalf : q + 1 / 2 = (2 * (ratio m e).1 + (ratio m e).2 : ℕ) / (2 * (ratio m e).2 : ℕ) := by
      rw [hvalue, ← hratio]
      push_cast
      field_simp
    rw [hhalf, Nat.floor_div_eq_div]
    rfl
  change (ofNat (roundedMagnitude m e)).Names _
  rw [hround]
  by_cases he : 0 ≤ e
  · -- a number whose exponent is not negative is whole
    have hwhole : q = (m * 2 ^ e.toNat : ℕ) := by
      rw [hvalue, Nat.cast_mul, Nat.cast_pow, Nat.cast_ofNat, ← zpow_natCast,
        Int.toNat_of_nonneg he]
    rw [hwhole] at h
    rw [hwhole, floor_add_half, h.ofNat_eq]
    exact h
  · -- all others are less than half of their mantissa
    have hpow : (2 : ℚ) ^ e ≤ 2 ^ (-1 : ℤ) := zpow_le_zpow_right₀ (by norm_num) (by omega)
    have hsmall : q < 2 ^ 52 := by
      have hbits : (m : ℚ) < 2 * hiddenBit := by exact_mod_cast hcanonical.bits
      have hbits' : (m : ℚ) < 2 ^ 53 := hbits.trans_le (by norm_num [hiddenBit])
      have hhalf : (m : ℚ) * 2 ^ e ≤ m * 2 ^ (-1 : ℤ) :=
        mul_le_mul_of_nonneg_left hpow m.cast_nonneg
      rw [hvalue]
      norm_num at hhalf
      linarith
    refine names_ofNat ((Nat.floor_lt (by linarith [h.nonneg])).mpr ?_)
    push_cast
    linarith

end Binary64

end SearchClient

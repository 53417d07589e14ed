import SearchClient.Proofs.Number.Digits
import SearchClient.Proofs.Number.Exact
import Mathlib.Data.List.TakeWhile

/-!
# Numbers read from texts

A text with a point and an exponent is read as a number in its one form
(`Decimal.regular_readFloat?`), and the digits of a natural number of sixty-four bits as the number
nearest to it (`Decimal.readFloat?_digits`).
-/

set_option autoImplicit false
set_option relaxedAutoImplicit false

namespace SearchClient

namespace Binary64

/-- The number is in its one form if it is finite. -/
def Regular (x : Binary64) : Prop :=
  ∀ negative mantissa exponent, x = .finite negative mantissa exponent →
    Canonical mantissa exponent

theorem regular_zero (negative : Bool) : (zero negative).Regular := by
  rintro _ _ _ ⟨⟩
  exact canonical_zero

theorem regular_ofRatio (negative : Bool) (num : ℕ) {den : ℕ} (hden : 0 < den) :
    (ofRatio negative num den).Regular :=
  fun _ _ _ h ↦ (canonical_ofRatio hden h).2

/-- A finite number that is not zero and not below it is the one form of its value. -/
theorem Regular.names {x : Binary64} (h : x.Regular) (hfinite : x.isFinite = true)
    (hsign : x.lt (.zero false) = false) (hzero : x.isZero = false) : ∃ q, x.Names q := by
  cases x with
  | finite negative mantissa exponent =>
    have hcanonical : Canonical mantissa exponent := h _ _ _ rfl
    have hmantissa : 0 < mantissa := by
      refine Nat.pos_of_ne_zero fun hm ↦ ?_
      rw [hm] at hzero
      cases hzero
    cases negative with
    | false => exact ⟨_, mantissa, exponent, rfl, hcanonical, rfl⟩
    | true =>
      have hshift : 0 < twoTo (exponent - min exponent leastExponent).toNat :=
        Nat.pow_pos (by decide)
      have hbelow := Nat.mul_pos hmantissa hshift
      simp only [lt, zero, Nat.zero_mul, if_true, Bool.false_eq_true, if_false,
        decide_eq_false_iff_not] at hsign
      omega
  | infinite => cases hfinite
  | nan => cases hfinite

end Binary64

namespace Decimal

open Binary64

theorem regular_nearest (negative : Bool) (significand : ℕ) (exponent : ℤ) :
    (nearest negative significand exponent).Regular := by
  simp only [nearest]
  split_ifs
  · exact regular_zero negative
  · rintro _ _ _ ⟨⟩
  · exact regular_zero negative
  · exact regular_ofRatio negative _ Nat.one_pos
  · exact regular_ofRatio negative _ (Nat.pow_pos (by decide))

/-- Whatever text is read, the number is in its one form. -/
theorem regular_readFloat? {cs : List Char} {x : Binary64} (h : readFloat? cs = some x) :
    x.Regular := by
  simp only [readFloat?] at h
  split_ifs at h
  · cases h
    rintro _ _ _ ⟨⟩
  · cases h
    rintro _ _ _ ⟨⟩
  · simp only [readMagnitude?] at h
    split_ifs at h
    obtain ⟨exponent, -, rfl⟩ := Option.map_eq_some_iff.mp h
    exact regular_nearest _ _ _

/-- An integer of sixty-four bits is rounded from its exact value. -/
theorem nearest_of_le {n : ℕ} (h : n ≤ greatestUnsigned) : nearest false n 0 = ofNat n := by
  have hlength : (digits n).length ≤ 20 :=
    (Nat.length_toDigits_le_iff (by decide) (by decide)).mpr (h.trans_lt (by decide))
  have hvalue : n * tenTo (0 : ℤ).toNat = n := Nat.mul_one n
  simp only [nearest, hvalue, le_refl, if_true]
  split_ifs with hzero hbig hsmall
  · rw [hzero]
    rfl
  · omega
  · omega
  · rfl

theorem toLower_of_isDigit {c : Char} (h : isDigit c = true) : c.toLower = c := by
  simp only [isDigit, Bool.and_eq_true, decide_eq_true_eq] at h
  have hmost : c.val ≤ 57 := h.2
  have hupper : ¬('A'.val ≤ c.val ∧ c.val ≤ 'Z'.val) :=
    fun hletter ↦ absurd (UInt32.le_trans hletter.1 hmost) (by decide)
  unfold Char.toLower
  exact dif_neg hupper

/-- A row of digits is no word. -/
theorem word_ne_of_isDigit {d : Char} {ds word : List Char} (h : isDigit d = true)
    (hword : ∀ c ∈ word, isDigit c = false) :
    String.ofList ((d :: ds).map Char.toLower) ≠ String.ofList word := by
  intro heq
  have hmem : d ∈ word := by
    rw [← String.ofList_inj.mp heq, List.map_cons, toLower_of_isDigit h]
    exact List.mem_cons_self
  rw [hword d hmem] at h
  cases h

/-- The digits of an integer of sixty-four bits are read as the number nearest to it. -/
theorem readFloat?_digits {n : ℕ} (h : n ≤ greatestUnsigned) :
    readFloat? (digits n) = some (ofNat n) := by
  have hdigits (c : Char) (hc : c ∈ digits n) : isDigit c = true := isDigit_of_mem_digits hc
  have hread : readMagnitude? false (digits n) = some (ofNat n) := by
    have hall : (digits n).takeWhile isDigit = digits n := List.takeWhile_eq_self_iff.mpr hdigits
    have hnone : (digits n).dropWhile isDigit = [] := List.dropWhile_eq_nil_iff.mpr hdigits
    simp only [readMagnitude?, hall, hnone, digits_ne_nil, List.append_nil, value_digits,
      false_and, if_false, readExponent?, Option.map_some]
    exact congrArg some (nearest_of_le h)
  obtain ⟨d, ds, hcons⟩ := List.exists_cons_of_ne_nil (digits_ne_nil n)
  rw [hcons] at hdigits hread ⊢
  have hd : isDigit d = true := hdigits d List.mem_cons_self
  have hminus : d ≠ '-' := by
    rintro rfl
    cases hd
  have hplus : d ≠ '+' := by
    rintro rfl
    cases hd
  have hword (word : List Char) (hw : word.all (fun c ↦ !isDigit c) = true) :
      String.ofList ((d :: ds).map Char.toLower) ≠ String.ofList word :=
    word_ne_of_isDigit hd (by simpa using hw)
  unfold readFloat?
  split
  rename_i negative body hsign
  obtain ⟨rfl, rfl⟩ : negative = false ∧ body = d :: ds := by
    split at hsign
    · rename_i heq
      exact absurd (List.cons.inj heq).1 hminus
    · rename_i heq
      exact absurd (List.cons.inj heq).1 hplus
    · cases hsign
      exact ⟨rfl, rfl⟩
  have hinf := hword "inf".toList (by decide)
  have hinfinity := hword "infinity".toList (by decide)
  have hnan := hword "nan".toList (by decide)
  simp only [String.ofList_toList] at hinf hinfinity hnan
  simp only [hinf, hinfinity, hnan, or_self, if_false]
  exact hread

end Decimal

end SearchClient

import SearchClient.Number.Shortest
import Mathlib.Data.List.Basic

/-!
# Rows of digits

The digits of a natural number are digits, begin with zero only where there is nothing else, and
name the number. The row of digits that a binary64 number is written with (`Binary64.shortest`) is
never empty and never begins with zero (`Binary64.shortest_proper`).
-/

set_option autoImplicit false
set_option relaxedAutoImplicit false

namespace SearchClient

namespace Decimal

theorem isDigit_of_mem_digits {n : Nat} {c : Char} (h : c ∈ digits n) : isDigit c = true :=
  Nat.isDigit_of_mem_toDigits (by decide) (by decide) h

theorem digits_ne_nil (n : Nat) : digits n ≠ [] :=
  Nat.toDigits_ne_nil

@[simp]
theorem value_digits (n : Nat) : value (digits n) = n :=
  Nat.ofDigitChars_toDigits (by decide) (by decide)

theorem readNat?_digits (n : Nat) : readNat? (digits n) = some n := by
  have hall : (digits n).all isDigit = true :=
    List.all_eq_true.mpr fun _ hc ↦ isDigit_of_mem_digits hc
  rw [readNat?, if_pos ⟨digits_ne_nil n, hall⟩, value_digits]

/-- An integer is read back. -/
theorem readInt?_writeInt (i : Int) : readInt? (writeInt i) = some i := by
  unfold writeInt
  split_ifs with hsign
  · have hback : -(i.natAbs : Int) = i := by omega
    simp only [readInt?, readNat?_digits]
    exact congrArg some hback
  · obtain ⟨d, ds, hds⟩ := List.exists_cons_of_ne_nil (digits_ne_nil i.natAbs)
    have hd : isDigit d = true := isDigit_of_mem_digits (hds ▸ List.mem_cons_self)
    have hback : (i.natAbs : Int) = i := by omega
    have hread : readNat? (d :: ds) = some i.natAbs := hds ▸ readNat?_digits i.natAbs
    rw [hds]
    unfold readInt?
    split
    · rename_i heq
      cases heq
      cases hd
    · rename_i heq
      cases heq
      cases hd
    · rw [hread]
      exact congrArg some hback

theorem digitChar_ne_zero : ∀ n < 10, n ≠ 0 → Nat.digitChar n ≠ '0' := by
  decide

/-- The first digit of a number is not zero, unless the number is. -/
theorem head_digits_ne_zero {n : Nat} (h : n ≠ 0) : (digits n).head? ≠ some '0' := by
  induction n using Nat.strongRecOn with
  | ind n ih =>
    unfold digits at ih ⊢
    by_cases hn : n < 10
    · rw [Nat.toDigits_of_lt_base hn, List.head?_singleton]
      exact fun hzero ↦ digitChar_ne_zero n hn h (Option.some.inj hzero)
    · rw [Nat.toDigits_of_base_le (by decide) (Nat.le_of_not_lt hn), List.head?_append]
      have hhead := ih (n / 10) (by omega) (by omega)
      obtain ⟨c, rest, hdigits⟩ := List.exists_cons_of_ne_nil (digits_ne_nil (n / 10))
      unfold digits at hdigits
      rw [hdigits] at hhead ⊢
      exact hhead

/-- No zero leads other digits of a number. -/
theorem eq_nil_of_digits_eq_zero_cons {n : Nat} {rest : List Char} (h : digits n = '0' :: rest) :
    rest = [] := by
  by_cases hn : n = 0
  · subst hn
    exact (List.cons.inj h).2.symm
  · exact absurd (by rw [h, List.head?_cons]) (head_digits_ne_zero hn)

end Decimal

namespace Binary64

/-- A row of one digit or more, the first of them not zero. -/
structure DigitRow.Proper (row : DigitRow) : Prop where
  ne_nil : row.digits ≠ []
  isDigit : ∀ c ∈ row.digits, Decimal.isDigit c = true
  lead : row.digits.head? ≠ some '0'

theorem not_readsBack_zero {mantissa : Nat} (h : mantissa ≠ 0) (exponent power : Int) :
    readsBack mantissa exponent 0 power = false := by
  have hten : 0 < tenTo (-power).toNat := Nat.pow_pos (by decide)
  have htwo : 0 < twoTo (exponent - 2).toNat := Nat.pow_pos (by decide)
  have hbelow (quarter : Nat) (hquarter : 0 < quarter) :
      0 < quarter * tenTo (-power).toNat * twoTo (exponent - 2).toNat :=
    Nat.mul_pos (Nat.mul_pos hquarter hten) htwo
  have hquarter : 0 < if mantissa = hiddenBit ∧ leastExponent < exponent then 4 * mantissa - 1
      else 4 * mantissa - 2 := by
    split <;> omega
  simp only [readsBack, Nat.zero_mul, Nat.not_lt_zero, decide_false, Bool.false_and]
  have := hbelow _ hquarter
  split
  · rw [decide_eq_false (by omega), Bool.false_and]
  · rfl

theorem search_ne_zero {mantissa : Nat} (h : mantissa ≠ 0) (halfway : Halfway)
    (exponent point : Int) (fuel count : Nat) :
    (search halfway mantissa exponent point fuel count).1 ≠ 0 := by
  fun_induction search halfway mantissa exponent point fuel count with
  | case1 => exact h
  | case2 fuel count c rest hc =>
    have hmem : c ∈ candidates halfway mantissa exponent point count := by
      rw [hc]
      exact List.mem_cons_self
    unfold candidates at hmem
    have hreads := (List.mem_filter.mp hmem).2
    rintro rfl
    rw [not_readsBack_zero h] at hreads
    cases hreads
  | case3 _ _ _ ih => exact ih

/-- Dropping from behind stops at the first element at the latest, where that one stays. -/
theorem reverse_dropWhile_reverse {d : Char} {ds : List Char} {p : Char → Bool} (h : p d = false) :
    ((d :: ds).reverse.dropWhile p).reverse = d :: (ds.reverse.dropWhile p).reverse := by
  rw [List.reverse_cons, List.dropWhile_append]
  split
  · rename_i hempty
    rw [List.isEmpty_iff.mp hempty]
    simp [h]
  · rw [List.reverse_append]
    rfl

/-- The row of digits of a number other than zero is proper. -/
theorem shortest_proper {mantissa : Nat} (h : mantissa ≠ 0) (halfway : Halfway) (exponent : Int) :
    (shortest halfway mantissa exponent).Proper := by
  obtain ⟨c, hc, hdigits⟩ : ∃ c ≠ 0, (shortest halfway mantissa exponent).digits =
      ((Decimal.digits c).reverse.dropWhile (· == '0')).reverse :=
    ⟨_, search_ne_zero h halfway exponent _ 17 1, rfl⟩
  obtain ⟨d, ds, hrow⟩ := List.exists_cons_of_ne_nil (Decimal.digits_ne_nil c)
  have hd : d ≠ '0' := by
    have hhead := Decimal.head_digits_ne_zero hc
    rw [hrow, List.head?_cons] at hhead
    exact fun hzero ↦ hhead (congrArg some hzero)
  have hstays : (d == '0') = false := beq_eq_false_iff_ne.mpr hd
  rw [hrow, reverse_dropWhile_reverse (p := (· == '0')) hstays] at hdigits
  refine ⟨by simp [hdigits], fun c' hc' ↦ ?_, by simpa [hdigits] using hd⟩
  refine Decimal.isDigit_of_mem_digits (n := c) ?_
  rw [hrow]
  rw [hdigits] at hc'
  obtain rfl | hc' := List.mem_cons.mp hc'
  · exact List.mem_cons_self
  · refine List.mem_cons_of_mem _ ?_
    exact List.mem_reverse.mp (List.dropWhile_subset _ (List.mem_reverse.mp hc'))

end Binary64

end SearchClient

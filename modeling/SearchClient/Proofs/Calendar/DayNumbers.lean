import SearchClient.Calendar.Date
import Mathlib.Tactic.SplitIfs

/-!
# Dates of day numbers

The guess that `Date.yearOf` makes from the mean length of a year is off by at most one, so the year
that it finds begins on the day or before it and ends after it (`Date.yearOf_spec`). Within the year
`Date.monthDay` finds the month in the same way. So the date of a day number is one that the
calendar has, if its year is kept (`Date.isValid_ofDayNumber`), and its day number is the one that
it was found for (`Date.dayNumber_ofDayNumber`).
-/

set_option autoImplicit false
set_option relaxedAutoImplicit false

namespace SearchClient.Calendar

/-! ### Years -/

theorem isLeap_iff {year : Int} :
    isLeap year = true ↔ year % 4 = 0 ∧ (year % 100 ≠ 0 ∨ year % 400 = 0) := by
  simp [isLeap]

/-- How many days a year has. -/
def yearLength (leap : Bool) : Nat := if leap then 366 else 365

/-- A year begins when the one before it is over. -/
theorem daysBeforeYear_succ (year : Int) :
    daysBeforeYear (year + 1) = daysBeforeYear year + yearLength (isLeap year) := by
  unfold daysBeforeYear yearLength
  split
  · rename_i hleap
    rw [isLeap_iff] at hleap
    omega
  · rename_i hleap
    rw [isLeap_iff] at hleap
    omega

theorem daysBeforeYear_mono {year later : Int} (h : year ≤ later) :
    daysBeforeYear year ≤ daysBeforeYear later := by
  unfold daysBeforeYear
  omega

namespace Date

/-- The year of a day number is the one that the day lies in. -/
theorem yearOf_spec (n : Int) :
    daysBeforeYear (yearOf n) ≤ n ∧ n < daysBeforeYear (yearOf n + 1) := by
  have hbelow : daysBeforeYear (400 * n / 146097 - 1) ≤ n := by
    unfold daysBeforeYear
    omega
  have habove : n < daysBeforeYear (400 * n / 146097 + 1 + 1) := by
    unfold daysBeforeYear
    omega
  unfold yearOf
  dsimp only
  split_ifs with hearly hlate
  · exact ⟨hbelow, by rwa [Int.sub_add_cancel]⟩
  · exact ⟨hlate, habove⟩
  · exact ⟨Int.not_lt.mp hearly, Int.not_le.mp hlate⟩

/-! ### Months -/

/-- The month of a day is the one that the day lies in, and the days before it are those of the
months before it and of the month. -/
theorem monthDay_spec {lengths : List Nat} {day : Nat} (hday : day < lengths.foldr (· + ·) 0)
    (first : Nat) : ∃ passed within, monthDay lengths first day = (first + passed, within + 1) ∧
      passed < lengths.length ∧ within < lengths[passed]?.getD 0 ∧
      day = (lengths.take passed).foldr (· + ·) 0 + within := by
  induction lengths generalizing day first with
  | nil => simp at hday
  | cons length lengths ih =>
    simp only [monthDay]
    split_ifs with hwithin
    · exact ⟨0, day, rfl, by simp, by simpa using hwithin, by simp⟩
    · rw [List.foldr_cons] at hday
      have hleft : day - length < lengths.foldr (· + ·) 0 := by omega
      obtain ⟨passed, within, hmonth, hpassed, hlength, hsum⟩ := ih hleft (first + 1)
      refine ⟨passed + 1, within, ?_, by simpa using hpassed, by simpa using hlength, ?_⟩
      · rw [hmonth, Nat.add_assoc, Nat.add_comm 1]
      · rw [List.take_succ_cons, List.foldr_cons]
        omega

theorem sum_monthLengths (leap : Bool) :
    (monthLengths leap).foldr (· + ·) 0 = yearLength leap := by
  cases leap <;> rfl

theorem length_monthLengths (leap : Bool) : (monthLengths leap).length = 12 := by
  cases leap <;> rfl

theorem monthLength_le (leap : Bool) (month : Nat) : (monthLengths leap)[month]?.getD 0 ≤ 31 := by
  rw [List.getD_getElem?]
  split
  · rename_i hmonth
    have hall : ∀ leap, ∀ length ∈ monthLengths leap, length ≤ 31 := by decide
    exact hall leap _ (List.getElem_mem hmonth)
  · exact Nat.zero_le _

/-! ### Dates -/

/-- What is known of the date of a day number: its month and day are in the calendar, and the days
before it are those of the years, months and days before it. -/
theorem ofDayNumber_spec (n : Int) : (ofDayNumber n).year = yearOf n ∧
    1 ≤ (ofDayNumber n).month ∧ (ofDayNumber n).month ≤ 12 ∧ 1 ≤ (ofDayNumber n).day ∧
    (ofDayNumber n).day ≤
      (monthLengths (isLeap (yearOf n)))[(ofDayNumber n).month - 1]?.getD 0 ∧
    (ofDayNumber n).dayNumber = n := by
  obtain ⟨hbegun, hends⟩ := yearOf_spec n
  rw [daysBeforeYear_succ] at hends
  have hday : (n - daysBeforeYear (yearOf n)).toNat <
      (monthLengths (isLeap (yearOf n))).foldr (· + ·) 0 := by
    rw [sum_monthLengths]
    omega
  obtain ⟨passed, within, hmonth, hpassed, hlength, hsum⟩ := monthDay_spec hday 1
  rw [length_monthLengths] at hpassed
  have hdate : ofDayNumber n = ⟨yearOf n, 1 + passed, within + 1⟩ := by
    simp only [ofDayNumber, hmonth]
  rw [hdate]
  refine ⟨rfl, Nat.le_add_right .., ?_, Nat.le_add_left .., ?_, ?_⟩
  · dsimp only
    omega
  · simpa [Nat.succ_le_iff] using hlength
  · simp only [dayNumber, daysBeforeMonth, Nat.add_sub_cancel_left, Nat.add_sub_cancel]
    omega

theorem dayNumber_ofDayNumber (n : Int) : (ofDayNumber n).dayNumber = n :=
  (ofDayNumber_spec n).2.2.2.2.2

/-- The date of a day number is one that the calendar has, if its year is kept. -/
theorem isValid_ofDayNumber {n : Int} (hleast : leastYear ≤ (ofDayNumber n).year)
    (hgreatest : (ofDayNumber n).year ≤ greatestYear) : (ofDayNumber n).IsValid := by
  obtain ⟨hyear, hmonth, hmonth', hday, hday', -⟩ := ofDayNumber_spec n
  exact ⟨hleast, hgreatest, hmonth, hmonth', hday, hyear ▸ hday'⟩

theorem IsValid.day_le {d : Date} (h : d.IsValid) : d.day ≤ 31 :=
  Nat.le_trans h.2.2.2.2.2 (monthLength_le ..)

/-- No day of a year that is kept comes before the first of them. -/
theorem IsValid.le_dayNumber {d : Date} (h : d.IsValid) :
    daysBeforeYear leastYear ≤ d.dayNumber := by
  have hyear := daysBeforeYear_mono h.1
  unfold dayNumber
  omega

end Date

end SearchClient.Calendar

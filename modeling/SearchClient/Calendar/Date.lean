/-!
# Calendar dates

Dates of the proleptic Gregorian calendar, with the year before year one called zero, and their day
numbers counted from the first of January of the year zero. `Date.ofDayNumber` finds the date of a
day number: a year is guessed from the mean length of a year and is off by at most one.
-/

set_option autoImplicit false
set_option relaxedAutoImplicit false

namespace SearchClient.Calendar

/-- A date. -/
structure Date where
  year : Int
  month : Nat
  day : Nat
  deriving DecidableEq, Repr, Inhabited

/-- A leap year has a twenty-ninth of February. -/
def isLeap (year : Int) : Bool :=
  year % 4 = 0 && (year % 100 ≠ 0 || year % 400 = 0)

/-- The lengths of the months of a year. -/
def monthLengths (leap : Bool) : List Nat :=
  [31, if leap then 29 else 28, 31, 30, 31, 30, 31, 31, 30, 31, 30, 31]

/-- How many days lie before a year, counted from the year zero, which is a leap year. -/
def daysBeforeYear (year : Int) : Int :=
  365 * year + (year + 3) / 4 - (year + 99) / 100 + (year + 399) / 400

/-- How many days of a year lie before a month. -/
def daysBeforeMonth (leap : Bool) (month : Nat) : Nat :=
  ((monthLengths leap).take (month - 1)).foldr (· + ·) 0

/-- The years in which dates are kept. -/
def leastYear : Int := -262143

/-- The last year in which dates are kept. -/
def greatestYear : Int := 262142

namespace Date

/-- A date that the calendar has. -/
def IsValid (d : Date) : Prop :=
  leastYear ≤ d.year ∧ d.year ≤ greatestYear ∧ 1 ≤ d.month ∧ d.month ≤ 12 ∧ 1 ≤ d.day ∧
    d.day ≤ (monthLengths (isLeap d.year))[d.month - 1]?.getD 0

instance (d : Date) : Decidable d.IsValid := by
  unfold IsValid
  infer_instance

/-- The number of a day. -/
def dayNumber (d : Date) : Int :=
  daysBeforeYear d.year + daysBeforeMonth (isLeap d.year) d.month + (d.day - 1 : Nat)

/-- The month and day of a day of the year, counted from zero, in months of these lengths. -/
def monthDay : (lengths : List Nat) → (month day : Nat) → Nat × Nat
  | [], month, day => (month, day + 1)
  | length :: lengths, month, day =>
    if day < length then (month, day + 1) else monthDay lengths (month + 1) (day - length)

/-- The year of a day number. -/
def yearOf (n : Int) : Int :=
  let guess := 400 * n / 146097
  if n < daysBeforeYear guess then guess - 1
  else if daysBeforeYear (guess + 1) ≤ n then guess + 1
  else guess

/-- The date of a day number. -/
def ofDayNumber (n : Int) : Date :=
  let year := yearOf n
  let (month, day) := monthDay (monthLengths (isLeap year)) 1 (n - daysBeforeYear year).toNat
  ⟨year, month, day⟩

end Date

/-- The day number of the first of January 1970. -/
def epochDay : Int := 719528

end SearchClient.Calendar

import SearchClient.Number.Shortest

/-!
# Sizes and lengths of time for people

A size is told in the largest unit that it fills, with two places, and a length of time as on a
clock.
-/

set_option autoImplicit false
set_option relaxedAutoImplicit false

namespace SearchClient.Display

/-- A number with a count of places. -/
def decimal (places : Nat) (x : Binary64) : String := String.ofList (x.fixed places)

def kibi : Nat := 1024

def mebi : Nat := 1024 * kibi

def gibi : Nat := 1024 * mebi

/-- A count of bytes in words. -/
def size (bytes : Nat) : String :=
  let inUnits (unit : Nat) : String := decimal 2 (.ofNat bytes / .ofNat unit)
  if gibi ≤ bytes then inUnits gibi ++ " GiB"
  else if mebi ≤ bytes then inUnits mebi ++ " MiB"
  else if kibi ≤ bytes then inUnits kibi ++ " KiB"
  else toString bytes ++ " bytes"

/-- At least two digits. -/
def twoDigits (n : Nat) : String := String.ofList (Decimal.padded 2 n)

/-- A count of seconds as on a clock, the hours only if there are any. -/
def clock (seconds : Nat) : String :=
  let hours := seconds / 3600
  let rest := twoDigits (seconds % 3600 / 60) ++ ":" ++ twoDigits (seconds % 60)
  if 0 < hours then twoDigits hours ++ ":" ++ rest else rest

end SearchClient.Display

import SearchClient.Json.Kind
import SearchClient.Text.Blank
import SearchClient.Text.Split

/-!
# Time spans

A span of time is spelled as a number with a unit (`30s`, `1.5h`), as `0`, or as `-1` for no limit.
`TimeSpan.parse` reads every such spelling, `TimeSpan.text` writes a whole number of the largest
unit that the span fills exactly, and `TimeSpan.nanos?` says how long the span is. As a document a
span is its text, or an integer that counts milliseconds.
-/

set_option autoImplicit false
set_option relaxedAutoImplicit false

namespace SearchClient

/-- The units of a time span, smallest first. -/
inductive TimeUnit where
  | nanos
  | micros
  | millis
  | seconds
  | minutes
  | hours
  | days
  deriving DecidableEq, Repr, Inhabited

namespace TimeUnit

/-- The units in the order in which suffixes are tried: a suffix stands before any that it ends
with. -/
def bySuffix : List TimeUnit := [nanos, micros, millis, days, hours, seconds, minutes]

/-- The units, largest first. -/
def descending : List TimeUnit := [days, hours, minutes, seconds, millis, micros, nanos]

def suffix : TimeUnit → String
  | nanos => "nanos"
  | micros => "micros"
  | millis => "ms"
  | seconds => "s"
  | minutes => "m"
  | hours => "h"
  | days => "d"

/-- The length of a unit in nanoseconds. -/
def length : TimeUnit → Nat
  | nanos => 1
  | micros => 1000
  | millis => 1000000
  | seconds => 1000000000
  | minutes => 60 * 1000000000
  | hours => 60 * 60 * 1000000000
  | days => 24 * 60 * 60 * 1000000000

end TimeUnit

/-- A span of time: no limit, nothing, or a factor of a unit. -/
inductive TimeSpan where
  | minusOne
  | zero
  | value (factor : Binary64) (unit : TimeUnit)
  deriving DecidableEq, Repr, Inhabited

namespace TimeSpan

/-- The largest count of nanoseconds that a length is given in; a longer span has this length. -/
def greatest : Nat := greatestUnsigned

/-- A factor of a unit. No factor is no time. -/
def of (factor : Binary64) (unit : TimeUnit) : TimeSpan :=
  if factor.isZero then .zero else .value factor unit

/-- A count of milliseconds. -/
def ofMillis (count : Int) : TimeSpan := of (.ofInt count) .millis

/-- The length in nanoseconds, to the nearest one. A span without limit has none. -/
def nanos? : TimeSpan → Option Nat
  | .minusOne => none
  | .zero => some 0
  | .value factor unit => some ((factor * Binary64.ofNat unit.length).round.toNatUpTo greatest)

/-- The span of a length in nanoseconds, in the largest unit that divides it. -/
def ofNanos (length : Nat) : TimeSpan :=
  if length = 0 then .zero
  else
    let unit := (TimeUnit.descending.find? fun u ↦ length % u.length == 0).getD .nanos
    .value (.ofNat (length / unit.length)) unit

/-! ### Reading -/

/-- Why a text is no time span. -/
inductive Flaw where
  | empty
  | missingUnit
  | notANumber
  | notALength
  deriving DecidableEq, Repr, Inhabited

def Flaw.reason : Flaw → String
  | .empty => "empty string"
  | .missingUnit => "missing unit (expected one of d, h, m, s, ms, micros, nanos)"
  | .notANumber => "factor is not a number"
  | .notALength => "factor must be a finite, non-negative number"

/-- The text in front of a unit, and the unit. -/
def splitUnit (cs : List Char) : Option (List Char × TimeUnit) :=
  TimeUnit.bySuffix.findSome? fun u ↦
    (Text.dropSuffix? u.suffix.toList cs).map fun number ↦ (number, u)

/-- The span that a text spells. Blanks around the text and in front of the unit do not count. -/
def parse (text : String) : Except Flaw TimeSpan :=
  let cs := Text.trim text.toList
  if cs = [] then .error .empty
  else if cs = ['-', '1'] then .ok .minusOne
  else if cs = ['0'] then .ok .zero
  else
    match splitUnit cs with
    | none => .error .missingUnit
    | some (number, unit) =>
      match Decimal.readFloat? (Text.trim number) with
      | none => .error .notANumber
      | some factor =>
        if !factor.isFinite || factor.lt (.zero false) then .error .notALength
        else .ok (of factor unit)

/-- The message about a text that is no time span. -/
def Flaw.message (flaw : Flaw) (text : String) : String :=
  "invalid time value '" ++ text ++ "': " ++ flaw.reason

/-! ### Writing -/

/-- The whole number and unit that a span is written with: the largest unit, not above its own, that
it fills exactly, or else the nearest count of nanoseconds. -/
def wholeUnits (factor : Binary64) (unit : TimeUnit) : Nat × TimeUnit :=
  let scaled := fun u : TimeUnit ↦ factor * Binary64.ofNat (unit.length / u.length)
  match TimeUnit.descending.find? fun u ↦ u.length ≤ unit.length && (scaled u).isWhole with
  | some u => ((scaled u).toNatUpTo greatest, u)
  | none => ((factor * Binary64.ofNat unit.length).round.toNatUpTo greatest, .nanos)

/-- The text of a span. -/
def text : TimeSpan → String
  | .minusOne => "-1"
  | .zero => "0"
  | .value factor unit =>
    let (count, u) := wholeUnits factor unit
    String.ofList (Decimal.digits count) ++ u.suffix

/-! ### Documents -/

/-- Why a document is no time span. -/
inductive Misread where
  | misspelled (flaw : Flaw) (text : String)
  | negative
  | kind (found : Json)
  deriving Repr, Inhabited

def Misread.message : Misread → String
  | .misspelled flaw text => flaw.message text
  | .negative => "negative time values other than -1 are invalid"
  | .kind found =>
    found.wrongKind "a time value such as \"30s\", \"-1\" or a number of milliseconds"

/-- The span that a document gives: a text, or an integer in milliseconds. -/
def ofJson : Json → Except Misread TimeSpan
  | .string s =>
    match parse s with
    | .ok span => .ok span
    | .error flaw => .error (.misspelled flaw s)
  | .number (.integer i) =>
    if i = -1 then .ok .minusOne
    else if i < 0 then .error .negative
    else .ok (ofMillis i)
  | found => .error (.kind found)

/-- A span as a document. -/
def toJson (span : TimeSpan) : Json := .string span.text

end TimeSpan

end SearchClient

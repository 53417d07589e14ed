import SearchClient.Calendar.Date
import SearchClient.Json.Kind
import SearchClient.Text.Blank

/-!
# Moments

A moment is a count of seconds since the first of January 1970 in UTC, and nanoseconds. A leap
second is kept as the second before it with a thousand million nanoseconds or more.

The cluster spells moments in many ways: epoch milliseconds as a number or as text, dates with and
without a time, with a blank or a `T` in between, with and without an offset. `Moment.parse?` reads
all of them; `Moment.text` writes one, with milliseconds and a `Z`.
-/

set_option autoImplicit false
set_option relaxedAutoImplicit false

namespace SearchClient

/-- A moment in UTC. -/
structure Moment where
  seconds : Int
  nanos : Nat
  deriving DecidableEq, Repr, Inhabited

namespace Moment

open Calendar

/-- A thousand million. -/
def giga : Nat := 1000000000

/-- Milliseconds since the beginning of 1970; what is smaller is cut off. -/
def millis (m : Moment) : Int := m.seconds * 1000 + (m.nanos / 1000000 : Nat)

/-- The least and the greatest count of milliseconds of a moment in a year that is kept. -/
def leastMillis : Int := -8334601228800000

/-- The greatest count of milliseconds of a moment. -/
def greatestMillis : Int := 8210266876799999

/-- The moment of a count of milliseconds. -/
def ofMillis? (millis : Int) : Option Moment :=
  if leastMillis ≤ millis ∧ millis ≤ greatestMillis then
    some ⟨millis / 1000, (millis % 1000).toNat * 1000000⟩
  else none

/-- A date with a time of day, as read from a text. The second `60` is a leap second. -/
structure Reading where
  date : Date
  hour : Nat
  minute : Nat
  second : Nat
  nanos : Nat
  deriving DecidableEq, Repr, Inhabited

/-- The moment of a date and time in UTC, if the calendar has it. -/
def Reading.moment? (r : Reading) : Option Moment :=
  if r.date.IsValid ∧ r.hour < 24 ∧ r.minute < 60 ∧ r.second ≤ 60 then
    let second := min r.second 59
    some ⟨(r.date.dayNumber - epochDay) * 86400 + (r.hour * 3600 + r.minute * 60 + second : Nat),
      r.nanos + (if r.second = 60 then giga else 0)⟩
  else none

/-! ### Scanning -/

/-- At least `least` and at most `most` digits in front, as a number. -/
def scanDigits (least most : Nat) (cs : List Char) : Option (Nat × List Char) :=
  let digits := (cs.takeWhile Decimal.isDigit).take most
  if digits.length < least then none
  else some (Decimal.value digits, cs.drop digits.length)

/-- A character that has to stand in front. -/
def scanChar (c : Char) : List Char → Option (List Char)
  | d :: cs => if c = d then some cs else none
  | [] => none

/-- A fraction of a second: a point and digits, of which nine count. Without a point there is
none. -/
def scanFraction : List Char → Option (Nat × List Char)
  | '.' :: cs =>
    match (cs.takeWhile Decimal.isDigit).take 9 with
    | [] => none
    | digits =>
      some (Decimal.value digits * tenTo (9 - digits.length), cs.dropWhile Decimal.isDigit)
  | cs => some (0, cs)

/-- An offset from UTC in seconds: `Z`, or a sign with hours and minutes. -/
def scanOffset : List Char → Option (Int × List Char)
  | [] => none
  | c :: cs =>
    if c = 'Z' ∨ c = 'z' then some (0, cs)
    else if c = '+' ∨ c = '-' ∨ c.toNat = 0x2212 then do
      let (hours, cs) ← scanDigits 2 2 cs
      let cs ← scanChar ':' cs
      let (minutes, cs) ← scanDigits 2 2 cs
      if hours < 24 ∧ minutes < 60 then
        let seconds : Int := (hours * 3600 + minutes * 60 : Nat)
        some (if c = '+' then seconds else -seconds, cs)
      else none
    else none

/-- A moment with an offset, every field at its full width. -/
def parseWithOffset? (cs : List Char) : Option Moment := do
  let (year, cs) ← scanDigits 4 4 cs
  let cs ← scanChar '-' cs
  let (month, cs) ← scanDigits 2 2 cs
  let cs ← scanChar '-' cs
  let (day, cs) ← scanDigits 2 2 cs
  let cs ← scanChar 'T' cs <|> scanChar 't' cs <|> scanChar ' ' cs
  let (hour, cs) ← scanDigits 2 2 cs
  let cs ← scanChar ':' cs
  let (minute, cs) ← scanDigits 2 2 cs
  let cs ← scanChar ':' cs
  let (second, cs) ← scanDigits 2 2 cs
  let (nanos, cs) ← scanFraction cs
  let (offset, cs) ← scanOffset cs
  let m ← Reading.moment? ⟨⟨year, month, day⟩, hour, minute, second, nanos⟩
  if cs = [] then some { m with seconds := m.seconds - offset } else none

/-- A field of one or two digits, with blanks allowed in front. -/
def scanField (cs : List Char) : Option (Nat × List Char) :=
  scanDigits 1 2 (cs.dropWhile Text.isBlank)

/-- A year: up to four digits, or a sign and any count of them; blanks allowed in front. -/
def scanYear (cs : List Char) : Option (Int × List Char) :=
  match cs.dropWhile Text.isBlank with
  | '-' :: cs => (scanDigits 1 cs.length cs).map fun (y, cs) ↦ (-(y : Int), cs)
  | '+' :: cs => (scanDigits 1 cs.length cs).map fun (y, cs) ↦ ((y : Int), cs)
  | cs => (scanDigits 1 4 cs).map fun (y, cs) ↦ ((y : Int), cs)

/-- A date with its fields at any width. -/
def scanDate (cs : List Char) : Option (Date × List Char) := do
  let (year, cs) ← scanYear cs
  let cs ← scanChar '-' cs
  let (month, cs) ← scanField cs
  let cs ← scanChar '-' cs
  let (day, cs) ← scanField cs
  some (⟨year, month, day⟩, cs)

/-- A date and a time without an offset, read as UTC. -/
def parseLocal? (separator : List Char → Option (List Char)) (cs : List Char) : Option Moment := do
  let (date, cs) ← scanDate cs
  let cs ← separator cs
  let (hour, cs) ← scanField cs
  let cs ← scanChar ':' cs
  let (minute, cs) ← scanField cs
  let cs ← scanChar ':' cs
  let (second, cs) ← scanField cs
  let (nanos, cs) ← scanFraction cs
  if cs = [] then Reading.moment? ⟨date, hour, minute, second, nanos⟩ else none

/-- A date alone is its first moment in UTC. -/
def parseDate? (cs : List Char) : Option Moment := do
  let (date, cs) ← scanDate cs
  if cs = [] then Reading.moment? ⟨date, 0, 0, 0, 0⟩ else none

/-- The moment that a text spells in one of the dialects, tried in this order: epoch milliseconds; a
time with an offset; a date and a time joined by `T`; the same joined by blanks; a date. -/
def parse? (text : String) : Option Moment :=
  let cs := Text.trim text.toList
  match Decimal.readInt? cs with
  | some i =>
    if leastSigned ≤ i ∧ i ≤ greatestSigned then ofMillis? i else none
  | none =>
    parseWithOffset? cs <|> parseLocal? (scanChar 'T') cs <|>
      parseLocal? (fun cs ↦ some (cs.dropWhile Text.isBlank)) cs <|> parseDate? cs

/-! ### Writing -/

/-- A year has four digits at least, and a sign when it is negative or has more. -/
def yearText (year : Int) : List Char :=
  if 0 ≤ year ∧ year ≤ 9999 then Decimal.padded 4 year.toNat
  else (if year < 0 then '-' else '+') :: Decimal.padded 4 year.natAbs

/-- The date of a moment in UTC. -/
def dateChars (m : Moment) : List Char :=
  let date := Date.ofDayNumber (m.seconds / 86400 + epochDay)
  yearText date.year ++ '-' :: (Decimal.padded 2 date.month ++ '-' :: Decimal.padded 2 date.day)

/-- The hour, minute and second of a moment in UTC. -/
def clockChars (m : Moment) : List Char :=
  let time := (m.seconds % 86400).toNat
  Decimal.padded 2 (time / 3600) ++ ':' :: (Decimal.padded 2 (time / 60 % 60) ++
    ':' :: Decimal.padded 2 (time % 60 + m.nanos / giga))

/-- The moment with its milliseconds, in UTC. -/
def chars (m : Moment) : List Char :=
  m.dateChars ++ 'T' :: (m.clockChars ++ '.' ::
    (Decimal.padded 3 (m.nanos % giga / 1000000) ++ ['Z']))

/-- The moment with its milliseconds, in UTC. -/
def text (m : Moment) : String := String.ofList m.chars

/-! ### Documents -/

/-- Why a document is no moment. -/
inductive Misread where
  | outOfRange (millis : Int)
  | tooLarge
  | unrecognised (text : String)
  | kind (found : Json)
  deriving Repr, Inhabited

def Misread.message : Misread → String
  | .outOfRange i => "epoch millis " ++ String.ofList (Decimal.writeInt i) ++ " out of range"
  | .tooLarge => "epoch millis out of range"
  | .unrecognised text => "unrecognised date '" ++ text ++ "'"
  | .kind found => found.wrongKind "epoch milliseconds or an ISO-8601 date string"

/-- The whole number nearest to a binary64 number, within the integers of sixty-four bits. -/
def roundedInteger (x : Binary64) : Int :=
  if x.isNegative then -((-x).round.toNatUpTo leastSigned.natAbs)
  else x.round.toNatUpTo greatestSigned.toNat

/-- The moment that a document gives: epoch milliseconds, or a text. -/
def ofJson : Json → Except Misread Moment
  | .string s =>
    match parse? s with
    | some m => .ok m
    | none => .error (.unrecognised s)
  | .number (.integer i) =>
    if greatestSigned < i then .error .tooLarge
    else
      match ofMillis? i with
      | some m => .ok m
      | none => .error (.outOfRange i)
  | .number (.float x) =>
    let i := roundedInteger x
    match ofMillis? i with
    | some m => .ok m
    | none => .error (.outOfRange i)
  | found => .error (.kind found)

/-- The forms in which a moment is written into a document. -/
inductive Form where
  | epochMillis
  | text
  deriving DecidableEq, Repr, Inhabited

/-- A moment as a document. -/
def toJson (form : Form) (m : Moment) : Json :=
  match form with
  | .epochMillis => .integer m.millis
  | .text => .string m.text

/-- A moment that may be missing: null is none. -/
def ofJsonOrNull : Json → Except Misread (Option Moment)
  | .null => .ok none
  | j => (ofJson j).map some

/-- A moment that may be missing, as a document. -/
def optionToJson (form : Form) : Option Moment → Json
  | none => .null
  | some m => m.toJson form

/-- The first moment of 1970. -/
def epoch : Moment := ⟨0, 0⟩

end Moment

end SearchClient

import SearchClient.Json.Basic
import SearchClient.Calendar.Date
import SearchClient.Number.Decimal
import SearchClient.Text.Split

/-!
# Scalars of a TOML text

Numbers, truth values and dates are words: rows of letters, digits and a few marks. `word?` says
which value a word spells. A date is kept as its spelling, under a name that no key is likely to
have, for a document has no dates of its own.
-/

set_option autoImplicit false
set_option relaxedAutoImplicit false

namespace SearchClient.Toml

/-- The characters of which words are made. -/
def isWordChar (c : Char) : Bool :=
  c.isAlphanum || c == '_' || c == '+' || c == '-' || c == '.' || c == ':'

/-- The digits of a number without the lines that may stand between two of them. -/
def plainDigits? (isDigit : Char → Bool) : List Char → Option (List Char)
  | [] => none
  | [c] => if isDigit c then some [c] else none
  | c :: '_' :: rest =>
    if isDigit c then (plainDigits? isDigit rest).map (c :: ·) else none
  | c :: rest => if isDigit c then (plainDigits? isDigit rest).map (c :: ·) else none

/-- A sign in front of a text, and what follows it. -/
def splitSign : List Char → Bool × List Char
  | '-' :: rest => (true, rest)
  | '+' :: rest => (false, rest)
  | cs => (false, cs)

/-- The digits of a number that has no zero in front. -/
def wholeDigits? (cs : List Char) : Option (List Char) := do
  let digits ← plainDigits? Decimal.isDigit cs
  match digits with
  | '0' :: _ :: _ => none
  | digits => some digits

/-! ### Integers -/

/-- The value of a digit to a base up to sixteen. -/
def digitValue (c : Char) : Nat :=
  if c.isDigit then c.toNat - '0'.toNat else c.toLower.toNat - 'a'.toNat + 10

/-- Whether a character is a digit to a base up to sixteen. -/
def isDigitTo (base : Nat) (c : Char) : Bool :=
  (c.isDigit || ('a' ≤ c.toLower && c.toLower ≤ 'f')) && digitValue c < base

/-- A number to a base. -/
def readTo (base : Nat) (cs : List Char) : Option Int := do
  let digits ← plainDigits? (isDigitTo base) cs
  some ((digits.foldl (fun n c ↦ base * n + digitValue c) 0 : Nat) : Int)

/-- An integer of sixty-four bits. -/
def integer? (cs : List Char) : Option Int := do
  let i ←
    match cs with
    | '0' :: 'x' :: rest => readTo 16 rest
    | '0' :: 'o' :: rest => readTo 8 rest
    | '0' :: 'b' :: rest => readTo 2 rest
    | cs => do
      let (negative, rest) := splitSign cs
      let n : Int := (Decimal.value (← wholeDigits? rest) : Nat)
      some (if negative then -n else n)
  if leastSigned ≤ i ∧ i ≤ greatestSigned then some i else none

/-! ### Floating-point numbers -/

/-- The exponent behind a number, zero when there is none. -/
def exponent? : List Char → Option Int
  | [] => some 0
  | mark :: rest =>
    if mark = 'e' ∨ mark = 'E' then do
      let (negative, digits) := splitSign rest
      let n : Int := (Decimal.value (← plainDigits? Decimal.isDigit digits) : Nat)
      some (if negative then -n else n)
    else none

/-- Whether a character marks an exponent. -/
def isExponentMark (c : Char) : Bool := c == 'e' || c == 'E'

/-- A number with a point, an exponent or both. One beyond the largest is refused. -/
def decimal? (negative : Bool) (cs : List Char) : Option Binary64 := do
  let mantissa := cs.takeWhile (!isExponentMark ·)
  let rest := cs.dropWhile (!isExponentMark ·)
  let (whole, fraction) ←
    match Text.splitFirst '.' mantissa with
    | some (whole, fraction) => do
      some (← wholeDigits? whole, ← plainDigits? Decimal.isDigit fraction)
    | none => if rest.isEmpty then none else do some (← wholeDigits? mantissa, [])
  let x := Decimal.nearest negative (Decimal.value (whole ++ fraction))
    ((← exponent? rest) - fraction.length)
  if x = .infinite false then none else some x

/-- A floating-point number. -/
def float? (cs : List Char) : Option Binary64 :=
  let (negative, rest) := splitSign cs
  if rest = "inf".toList then some (.infinite negative)
  else if rest = "nan".toList then some .nan
  else decimal? negative rest

/-! ### Dates -/

/-- So many digits, as a number. -/
def digits? (count : Nat) (cs : List Char) : Option (Nat × List Char) := do
  let digits := cs.take count
  if digits.length = count then some (← Decimal.readNat? digits, cs.drop count) else none

/-- What follows a character. -/
def after? (c : Char) : List Char → Option (List Char)
  | d :: rest => if c = d then some rest else none
  | [] => none

/-- A day of the calendar, and what follows it. -/
def day? (cs : List Char) : Option (List Char) := do
  let (year, cs) ← digits? 4 cs
  let (month, cs) ← digits? 2 (← after? '-' cs)
  let (day, cs) ← digits? 2 (← after? '-' cs)
  if (Calendar.Date.mk year month day).IsValid then some cs else none

/-- A time of the day, and what follows it. -/
def timeOfDay? (cs : List Char) : Option (List Char) := do
  let (hour, cs) ← digits? 2 cs
  let (minute, cs) ← digits? 2 (← after? ':' cs)
  let (second, cs) ← digits? 2 (← after? ':' cs)
  if hour ≤ 23 ∧ minute ≤ 59 ∧ second ≤ 60 then
    match cs with
    | '.' :: rest =>
      if (rest.takeWhile Decimal.isDigit).isEmpty then none
      else some (rest.dropWhile Decimal.isDigit)
    | cs => some cs
  else none

/-- The distance from Greenwich, up to the end of the text. -/
def isOffset (cs : List Char) : Bool :=
  match cs with
  | [] => true
  | ['Z'] | ['z'] => true
  | sign :: rest =>
    (sign == '+' || sign == '-') &&
      match digits? 2 rest with
      | some (hour, ':' :: rest) =>
        match digits? 2 rest with
        | some (minute, []) => hour ≤ 23 && minute ≤ 59
        | _ => false
      | _ => false

/-- Whether a text is a time of the day with or without its distance from Greenwich. -/
def isZonedTime (cs : List Char) : Bool :=
  match timeOfDay? cs with
  | some rest => isOffset rest
  | none => false

/-- Whether a text is a day, a time, or a day and a time. -/
def isMoment (cs : List Char) : Bool :=
  match day? cs with
  | some [] => true
  | some (mark :: rest) => (mark == 'T' || mark == 't' || mark == ' ') && isZonedTime rest
  | none =>
    match timeOfDay? cs with
    | some [] => true
    | _ => false

/-- The name under which the spelling of a date stands. -/
def dateKey : String := "$__toml_private_datetime"

/-- A date. -/
def date (cs : List Char) : Json := .object [(dateKey, .string (String.ofList cs))]

/-- The value that a word spells. -/
def word? (cs : List Char) : Option Json :=
  if cs = "true".toList then some (.bool true)
  else if cs = "false".toList then some (.bool false)
  else if isMoment cs then some (date cs)
  else
    match integer? cs with
    | some i => some (.integer i)
    | none => (float? cs).map fun x ↦ .number (.float x)

end SearchClient.Toml

import SearchClient.Number.Binary64

/-!
# Decimal texts

Digits and the numbers they name: natural numbers (`readNat?`), and texts with a point and an
exponent (`readFloat?`), whose binary64 number is the one nearest to the exact decimal value.
-/

set_option autoImplicit false
set_option relaxedAutoImplicit false

namespace SearchClient.Decimal

def isDigit (c : Char) : Bool := '0' ≤ c && c ≤ '9'

/-- The number that a digit stands for. -/
def digitValue (c : Char) : Nat := c.toNat - '0'.toNat

/-- The number that a row of digits names, the first digit leading. -/
def value (digits : List Char) : Nat :=
  digits.foldl (fun n c ↦ 10 * n + digitValue c) 0

/-- The number named by a text of one or more digits and nothing else. -/
def readNat? (cs : List Char) : Option Nat :=
  if cs ≠ [] ∧ cs.all isDigit then some (value cs) else none

/-- The digits of a number, without leading zeros. -/
def digits (n : Nat) : List Char := Nat.toDigits 10 n

/-- The digits of a number, with zeros in front up to a width. -/
def padded (width n : Nat) : List Char :=
  List.replicate (width - (digits n).length) '0' ++ digits n

/-- An integer named by digits with an optional sign in front. -/
def readInt? : List Char → Option Int
  | '-' :: cs => (readNat? cs).map fun n ↦ -(n : Int)
  | '+' :: cs => (readNat? cs).map fun n ↦ (n : Int)
  | cs => (readNat? cs).map fun n ↦ (n : Int)

/-- The integer as text. -/
def writeInt (i : Int) : List Char :=
  if i < 0 then '-' :: digits i.natAbs else digits i.natAbs

/-- The binary64 number nearest to `significand * 10 ^ exponent`. Beyond the range of the format the
power of ten is never computed. -/
def nearest (negative : Bool) (significand : Nat) (exponent : Int) : Binary64 :=
  if significand = 0 then Binary64.zero negative
  else
    let magnitude := ((digits significand).length : Int) + exponent
    if 310 < magnitude then .infinite negative
    else if magnitude < -330 then Binary64.zero negative
    else if 0 ≤ exponent then Binary64.ofRatio negative (significand * tenTo exponent.toNat) 1
    else Binary64.ofRatio negative significand (tenTo (-exponent).toNat)

/-- An exponent: a mark, an optional sign, and digits up to the end of the text. Nothing at all is
the exponent zero. -/
def readExponent? : List Char → Option Int
  | [] => some 0
  | mark :: cs => if mark = 'e' ∨ mark = 'E' then readInt? cs else none

/-- Digits with an optional point and exponent; at least one digit stands before the exponent. -/
def readMagnitude? (negative : Bool) (cs : List Char) : Option Binary64 :=
  let whole := cs.takeWhile isDigit
  let (fraction, rest) :=
    match cs.dropWhile isDigit with
    | '.' :: rest => (rest.takeWhile isDigit, rest.dropWhile isDigit)
    | rest => ([], rest)
  if whole = [] ∧ fraction = [] then none
  else (readExponent? rest).map fun e ↦
    nearest negative (value (whole ++ fraction)) (e - fraction.length)

/-- A number with an optional sign: decimal digits, or a word for infinity or for no number, in
letters of either case. -/
def readFloat? (cs : List Char) : Option Binary64 :=
  let (negative, body) :=
    match cs with
    | '-' :: rest => (true, rest)
    | '+' :: rest => (false, rest)
    | _ => (false, cs)
  let word := String.ofList (body.map Char.toLower)
  if word = "inf" ∨ word = "infinity" then some (.infinite negative)
  else if word = "nan" then some .nan
  else readMagnitude? negative body

end SearchClient.Decimal

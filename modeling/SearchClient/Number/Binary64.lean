import SearchClient.Number.Bounds

/-!
# Binary64 numbers

A finite number is a signed mantissa times a power of two. Every operation is the exact result on
rational numbers, rounded to the nearest representable number, an exact half to the even mantissa
(`ofRatio`), so nothing here depends on the machine. Finite numbers are kept in one form only: the
mantissa is below `2 ^ 53`, and it is at least `2 ^ 52` unless the exponent is the least one. Equal
numbers of one sign are therefore equal as values.
-/

set_option autoImplicit false
set_option relaxedAutoImplicit false

namespace SearchClient

/-- A number of the format binary64: `mantissa * 2 ^ exponent` with a sign, an infinity, or no
number. -/
inductive Binary64 where
  | finite (negative : Bool) (mantissa : Nat) (exponent : Int)
  | infinite (negative : Bool)
  | nan
  deriving DecidableEq, Repr, Inhabited

namespace Binary64

/-- The exponent of the smallest numbers. -/
def leastExponent : Int := -1074

/-- The exponent of the largest numbers. -/
def greatestExponent : Int := 971

/-- Two to the fifty-second power: mantissas that are not below it fill all their bits. -/
def hiddenBit : Nat := 4503599627370496

/-- The zero of a sign. -/
def zero (negative : Bool) : Binary64 := .finite negative 0 leastExponent

/-- The quotient as a whole number, a half rounded to the even neighbour. -/
def roundQuotient (num den : Nat) : Nat :=
  let q := num / den
  let twice := 2 * (num % den)
  if twice < den then q
  else if den < twice then q + 1
  else if q % 2 = 0 then q else q + 1

/-- The fraction `num / den` divided by `2 ^ exponent`, as a fraction again. -/
def scale (num den : Nat) (exponent : Int) : Nat × Nat :=
  if 0 ≤ exponent then (num, den * twoTo exponent.toNat) else (num * twoTo (-exponent).toNat, den)

/-- The exponent that gives the mantissa of `num / den` fifty-three bits, or the least one. -/
def exponentOf (num den : Nat) : Int :=
  let guess : Int := (num.log2 : Int) - den.log2 - 53
  let (n, d) := scale num den guess
  max leastExponent (if 2 * hiddenBit * d ≤ n then guess + 1 else guess)

/-- A rounded mantissa in its one form. Rounding up may have given it a fifty-fourth bit, and a
number beyond the largest finite one is infinite. -/
def pack (negative : Bool) (mantissa : Nat) (exponent : Int) : Binary64 :=
  let (m, e) := if mantissa = 2 * hiddenBit then (hiddenBit, exponent + 1) else (mantissa, exponent)
  if m = 0 then zero negative
  else if greatestExponent < e then .infinite negative
  else .finite negative m e

/-- The number nearest to `num / den`, of the given sign. -/
def ofRatio (negative : Bool) (num den : Nat) : Binary64 :=
  if num = 0 then zero negative
  else
    let e := exponentOf num den
    let (n, d) := scale num den e
    pack negative (roundQuotient n d) e

/-- The number nearest to a natural number. -/
def ofNat (n : Nat) : Binary64 := ofRatio false n 1

/-- The number nearest to an integer. -/
def ofInt (i : Int) : Binary64 := ofRatio (i < 0) i.natAbs 1

/-- The magnitude of `mantissa * 2 ^ exponent` as a fraction. -/
def ratio (mantissa : Nat) (exponent : Int) : Nat × Nat :=
  if 0 ≤ exponent then (mantissa * twoTo exponent.toNat, 1) else (mantissa, twoTo (-exponent).toNat)

def isFinite : Binary64 → Bool
  | .finite .. => true
  | _ => false

/-- Both zeros are zero. -/
def isZero : Binary64 → Bool
  | .finite _ 0 _ => true
  | _ => false

/-- The sign bit of a number. -/
def isNegative : Binary64 → Bool
  | .finite s .. => s
  | .infinite s => s
  | .nan => false

def neg : Binary64 → Binary64
  | .finite s m e => .finite (!s) m e
  | .infinite s => .infinite (!s)
  | .nan => .nan

def mul : Binary64 → Binary64 → Binary64
  | .finite s m e, .finite t n f =>
    let (a, b) := ratio (m * n) (e + f)
    ofRatio (s != t) a b
  | .finite s m _, .infinite t => if m = 0 then .nan else .infinite (s != t)
  | .infinite s, .finite t m _ => if m = 0 then .nan else .infinite (s != t)
  | .infinite s, .infinite t => .infinite (s != t)
  | _, _ => .nan

def div : Binary64 → Binary64 → Binary64
  | .finite s m e, .finite t n f =>
    if n = 0 then if m = 0 then .nan else .infinite (s != t)
    else
      let (a, b) := ratio m (e - f)
      ofRatio (s != t) a (b * n)
  | .finite s _ _, .infinite t => zero (s != t)
  | .infinite s, .finite t _ _ => .infinite (s != t)
  | _, _ => .nan

/-- The order of numbers. Nothing is below or above what is no number. -/
def lt : Binary64 → Binary64 → Bool
  | .finite s m e, .finite t n f =>
    let low := min e f
    let a : Int := (m * twoTo (e - low).toNat : Nat)
    let b : Int := (n * twoTo (f - low).toNat : Nat)
    decide ((if s then -a else a) < (if t then -b else b))
  | .infinite s, .finite .. => s
  | .finite .., .infinite t => !t
  | .infinite s, .infinite t => s && !t
  | _, _ => false

/-- A finite number without a fractional part. -/
def isWhole : Binary64 → Bool
  | .finite _ m e => decide (0 ≤ e) || m % twoTo (-e).toNat == 0
  | _ => false

/-- The magnitude of a finite number as the nearest whole number, a half away from zero. -/
def roundedMagnitude (mantissa : Nat) (exponent : Int) : Nat :=
  let (n, d) := ratio mantissa exponent
  (2 * n + d) / (2 * d)

/-- The nearest whole number, a half away from zero. -/
def round : Binary64 → Binary64
  | .finite s m e => ofRatio s (roundedMagnitude m e) 1
  | x => x

/-- The whole part of a number within `0` and `limit`; what lies outside goes to the nearer end, and
what is no number to `0`. -/
def toNatUpTo (limit : Nat) : Binary64 → Nat
  | .finite s m e =>
    if s then 0
    else
      let (n, d) := ratio m e
      min limit (n / d)
  | .infinite s => if s then 0 else limit
  | .nan => 0

instance : Neg Binary64 := ⟨neg⟩
instance : Mul Binary64 := ⟨mul⟩
instance : Div Binary64 := ⟨div⟩

/-- The number one. -/
def one : Binary64 := .finite false hiddenBit (-52)

end Binary64

end SearchClient

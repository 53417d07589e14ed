import SearchClient.Number.Decimal

/-!
# The fewest digits that read back

A binary64 number is written with the shortest row of digits that still rounds to it, and of the
rows of that length the one nearest to it (`shortest`). Two notations use those digits: positional
for all numbers (`plain`), and one that turns to an exponent when the point is far off (`json`).
They differ too in the row they take for a number that lies halfway between two (`Halfway`). A third
notation writes a fixed count of places (`fixed`).
-/

set_option autoImplicit false
set_option relaxedAutoImplicit false

namespace SearchClient.Binary64

/-- A row of digits and where the point stands: the number is `0.digits * 10 ^ point`. -/
structure DigitRow where
  digits : List Char
  point : Int
  deriving DecidableEq, Repr

/-- Which of two neighbouring rows of digits stands for a number halfway between them: the one that
ends in an even digit, or the one farther from zero. -/
inductive Halfway where
  | even
  | away
  deriving DecidableEq, Repr

/-- Whether `candidate * 10 ^ power` rounds to the number with this mantissa and exponent: it lies
between the midpoints to the two neighbours, ends included when the mantissa is even. All sides are
measured in quarters of the last place. -/
def readsBack (mantissa : Nat) (exponent : Int) (candidate : Nat) (power : Int) : Bool :=
  let below :=
    if mantissa = hiddenBit ∧ leastExponent < exponent then 4 * mantissa - 1 else 4 * mantissa - 2
  let above := 4 * mantissa + 2
  let two := exponent - 2
  let left := candidate * tenTo power.toNat * twoTo (-two).toNat
  let right := fun quarter ↦ quarter * tenTo (-power).toNat * twoTo two.toNat
  if mantissa % 2 = 0 then right below ≤ left && left ≤ right above
  else right below < left && left < right above

/-- The least `p` with `num / den < 10 ^ p`, for a positive fraction. -/
def decimalPoint (num den : Nat) : Int :=
  if den ≤ num then (Decimal.digits (num / den)).length
  else
    let j := (Decimal.digits (den / num)).length - 1
    if num * tenTo j = den then 1 - (j : Int) else -(j : Int)

/-- Whether `num / den` is nearer to its whole part than to the next whole number, or as near and
the rule for that case takes it. -/
def Halfway.takesLower (halfway : Halfway) (num den : Nat) : Bool :=
  let twice := 2 * (num % den)
  twice < den || (twice == den && halfway == .even && num / den % 2 == 0)

/-- On the grid of `count` digits, the neighbours of the number that read back, the nearer first. -/
def candidates (halfway : Halfway) (mantissa : Nat) (exponent : Int) (point : Int) (count : Nat) :
    List Nat :=
  let (num, den) := ratio mantissa exponent
  let power := point - count
  let n := num * tenTo (-power).toNat
  let d := den * tenTo power.toNat
  let low := n / d
  let order := if halfway.takesLower n d then [low, low + 1] else [low + 1, low]
  order.filter fun c ↦ readsBack mantissa exponent c power

/-- The first grid with a neighbour that reads back, of at most `fuel` grids from `count` on. -/
def search (halfway : Halfway) (mantissa : Nat) (exponent : Int) (point : Int) :
    (fuel count : Nat) → Nat × Nat
  | 0, count => (mantissa, count)
  | fuel + 1, count =>
    match candidates halfway mantissa exponent point count with
    | c :: _ => (c, count)
    | [] => search halfway mantissa exponent point fuel (count + 1)

/-- The shortest digits of a positive finite number. Seventeen digits are always enough. -/
def shortest (halfway : Halfway) (mantissa : Nat) (exponent : Int) : DigitRow :=
  let (num, den) := ratio mantissa exponent
  let point := decimalPoint num den
  let (c, count) := search halfway mantissa exponent point 17 1
  let row := Decimal.digits c
  let kept := (row.reverse.dropWhile (· == '0')).reverse
  ⟨kept, point + ((row.length : Int) - count)⟩

/-- Positional notation: the whole part, and a point with the rest if there is any. -/
def DigitRow.positional (row : DigitRow) : List Char :=
  if row.point ≤ 0 then
    '0' :: '.' :: (List.replicate (-row.point).toNat '0' ++ row.digits)
  else
    let whole := row.digits.take row.point.toNat
    let rest := row.digits.drop row.point.toNat
    let zeros := List.replicate (row.point.toNat - row.digits.length) '0'
    if rest.isEmpty then whole ++ zeros else whole ++ '.' :: rest

/-- One digit before the point, and the power of ten behind a mark, with its sign. -/
def DigitRow.scientific (row : DigitRow) : List Char :=
  let e := row.point - 1
  let tail := row.digits.drop 1
  row.digits.take 1 ++ (if tail.isEmpty then [] else '.' :: tail) ++
    'e' :: (if 0 ≤ e then '+' :: Decimal.digits e.natAbs else '-' :: Decimal.digits e.natAbs)

/-- A sign in front of the text of a magnitude. -/
def signed (negative : Bool) (cs : List Char) : List Char :=
  if negative then '-' :: cs else cs

/-- The number in positional notation; a whole number has no point, and halfway between two rows of
digits the one farther from zero is taken. -/
def plain : Binary64 → List Char
  | .finite s m e => signed s (if m = 0 then ['0'] else (shortest .away m e).positional)
  | .infinite s => signed s "inf".toList
  | .nan => "NaN".toList

/-- The number as a document has it: always with a point or an exponent, and with an exponent when
the first digit stands beyond sixteen places before the point or five behind it. Halfway between two
rows of digits the even one is taken. What is not finite is no number of a document and reads
`null`. -/
def json : Binary64 → List Char
  | .finite s m e =>
    if m = 0 then signed s "0.0".toList
    else
      let row := shortest .even m e
      signed s <|
        if -5 < row.point ∧ row.point ≤ 16 then
          let text := row.positional
          if text.contains '.' then text else text ++ ".0".toList
        else row.scientific
  | _ => "null".toList

/-- The number with a fixed count of places, rounded from its exact value, a half to the even
digit. -/
def fixed (places : Nat) : Binary64 → List Char
  | .finite s m e =>
    let (num, den) := ratio m e
    let scaled := roundQuotient (num * tenTo places) den
    let whole := Decimal.digits (scaled / tenTo places)
    signed s <|
      if places = 0 then whole else whole ++ '.' :: Decimal.padded places (scaled % tenTo places)
  | .infinite s => signed s "inf".toList
  | .nan => "NaN".toList

end SearchClient.Binary64

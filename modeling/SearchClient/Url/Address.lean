import SearchClient.Number.Decimal
import SearchClient.Text.Percent
import SearchClient.Text.Split

/-!
# Addresses of hosts

Addresses of thirty-two bits are written as four numbers with dots, and read with up to four, in
decimal, octal or hexadecimal. Addresses of one hundred and twenty-eight bits are eight groups with
colons; the longest run of zeros may be left out.
-/

set_option autoImplicit false
set_option relaxedAutoImplicit false

namespace SearchClient.Url.Address

open Text

/-- The value of digits in a base, if all are digits of it. -/
def digits? (base : Nat) (cs : List Char) : Option Nat :=
  cs.foldlM (fun n c ↦ do
    let d ← Percent.hexValue? c
    if d < base then some (n * base + d) else none) 0

/-! ### Four numbers -/

/-- A part of an address: a mark may say that it is octal or hexadecimal. -/
def readPart (cs : List Char) : Option Nat :=
  match cs with
  | [] => none
  | '0' :: 'x' :: rest | '0' :: 'X' :: rest => digits? 16 rest
  | '0' :: c :: rest => digits? 8 (c :: rest)
  | cs => digits? 10 cs

/-- A name whose last label is a number is an address, well formed or not. -/
def looksNumeric (name : List Char) : Bool :=
  let parts := (split '.' name).reverse
  let last :=
    match parts with
    | [] :: last :: _ => last
    | [[]] => []
    | last :: _ => last
    | [] => []
  last ≠ [] && (last.all Decimal.isDigit || (readPart last).isSome)

/-- The address that a name with a number at its end gives. -/
def read32 (name : List Char) : Option Nat := do
  let parts := split '.' name
  let parts := if parts.getLast? = some [] then parts.dropLast else parts
  if 4 < parts.length then none
  else
    let numbers ← parts.mapM readPart
    let last ← numbers.getLast?
    let front := numbers.dropLast
    if front.any (255 < ·) || twoTo (8 * (4 - front.length)) ≤ last then none
    else
      some (last +
        (front.zipIdx.map fun (n, place) ↦ n * twoTo (8 * (3 - place))).foldr (· + ·) 0)

/-- An address as four numbers. -/
def write32 (address : Nat) : List Char :=
  join ['.'] ([16777216, 65536, 256, 1].map fun weight ↦ Decimal.digits (address / weight % 256))

/-! ### Eight groups -/

/-- One group of up to four hexadecimal digits. -/
def readGroup (cs : List Char) : Option Nat :=
  if cs = [] ∨ 4 < cs.length then none else digits? 16 cs

/-- A number of an address inside an address: at most 255, without a zero in front. -/
def readOctet (cs : List Char) : Option Nat :=
  if cs = [] ∨ 3 < cs.length ∨ (cs.head? = some '0' ∧ 1 < cs.length) then none
  else do
    let n ← digits? 10 cs
    if n ≤ 255 then some n else none

/-- Groups between colons. The last two of an address may be written as four numbers. -/
def readGroups (mayEndInNumbers : Bool) : List (List Char) → Option (List Nat)
  | [] => some []
  | [last] =>
    if mayEndInNumbers && last.contains '.' then do
      match ← (split '.' last).mapM readOctet with
      | [a, b, c, d] => some [a * 256 + b, c * 256 + d]
      | _ => none
    else (readGroup last).map fun g ↦ [g]
  | group :: groups => do
    let g ← readGroup group
    let rest ← readGroups mayEndInNumbers groups
    some (g :: rest)

/-- The text before and after the first two colons. -/
def splitGap : List Char → Option (List Char × List Char)
  | ':' :: ':' :: rest => some ([], rest)
  | c :: rest => (splitGap rest).map fun (before, after) ↦ (c :: before, after)
  | [] => none

/-- Groups of a side of a gap, which may be empty. -/
def readSide (mayEndInNumbers : Bool) (cs : List Char) : Option (List Nat) :=
  if cs = [] then some [] else readGroups mayEndInNumbers (split ':' cs)

/-- The eight groups of an address. A gap stands for one or more zeros. -/
def read128 (cs : List Char) : Option (List Nat) :=
  match splitGap cs with
  | none => do
    let groups ← readGroups true (split ':' cs)
    if groups.length = 8 then some groups else none
  | some (before, after) => do
    let front ← readSide false before
    let back ← readSide true after
    if front.length + back.length ≤ 7 then
      some (front ++ List.replicate (8 - front.length - back.length) 0 ++ back)
    else none

/-- A number in hexadecimal digits. -/
def hex (n : Nat) : List Char := Nat.toDigits 16 n

/-- How many zeros stand at the beginning. -/
def zeros (groups : List Nat) : Nat := (groups.takeWhile (· = 0)).length

/-- Where the first of the longest runs of zeros begins, and its length. -/
def longestRun (groups : List Nat) : Nat × Nat :=
  (List.range 8).foldl (fun (best, length) start ↦
    let here := zeros (groups.drop start)
    if length < here then (start, here) else (best, length)) (0, 0)

/-- An address as groups; a run of two or more zeros is left out. -/
def write128 (groups : List Nat) : List Char :=
  let (start, length) := longestRun groups
  if length < 2 then join [':'] (groups.map hex)
  else
    join [':'] ((groups.take start).map hex) ++ ':' :: ':' ::
      join [':'] ((groups.drop (start + length)).map hex)

end SearchClient.Url.Address

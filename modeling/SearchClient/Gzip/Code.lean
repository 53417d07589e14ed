import SearchClient.Gzip.Bits

/-!
# Codes of differing lengths

Each symbol has a code of its own length, and no code begins like another one. Codes of one length
are consecutive numbers, in the order of symbols, and shorter codes come before longer ones; so the
lengths alone tell the codes (`Code.ofLengths?`), and a symbol is read by comparing the bits so far
with the codes of their length (`Code.read?`).
-/

set_option autoImplicit false
set_option relaxedAutoImplicit false

namespace SearchClient.Gzip

/-- How many codes there are of each length from one on, and the symbols in the order of codes. -/
structure Code where
  counts : List Nat
  symbols : Array Nat
  deriving Repr, Inhabited

namespace Code

/-- The greatest length of a code. -/
def greatestLength : Nat := 15

/-- How many codes are left after codes of these counts, if they do not run out. -/
def left? (room : Nat) : List Nat → Option Nat
  | [] => some room
  | count :: counts => if 2 * room < count then none else left? (2 * room - count) counts

/-- The codes of symbols with these lengths, no length meaning no code. All bits have to be used,
but for a single symbol. -/
def ofLengths? (lengths : List Nat) : Option Code :=
  let widths := (List.range greatestLength).map (· + 1)
  let ofWidth (width : Nat) : List Nat :=
    (lengths.zipIdx.filter fun (length, _) ↦ length == width).map (·.2)
  let symbols := widths.flatMap ofWidth
  let code : Code := ⟨widths.map fun width ↦ (ofWidth width).length, symbols.toArray⟩
  match left? 1 code.counts with
  | none => none
  | some left => if left = 0 ∨ symbols.length ≤ 1 then some code else none

/-- The next symbol, given the bits so far as a number, the first code of their length, and how many
symbols have shorter codes. -/
def readFrom? (symbols : Array Nat) :
    (counts : List Nat) → (code first shorter : Nat) → List Bool → Option (Nat × List Bool)
  | [], _, _, _, _ => none
  | _ :: _, _, _, _, [] => none
  | count :: counts, code, first, shorter, bit :: bits =>
    let code := 2 * code + bit.toNat
    if code < first + count then
      symbols[shorter + (code - first)]?.map fun symbol ↦ (symbol, bits)
    else readFrom? symbols counts code (2 * (first + count)) (shorter + count) bits

/-- The next symbol, and the bits after it. -/
def read? (c : Code) (bits : List Bool) : Option (Nat × List Bool) :=
  readFrom? c.symbols c.counts 0 0 0 bits

end Code

end SearchClient.Gzip

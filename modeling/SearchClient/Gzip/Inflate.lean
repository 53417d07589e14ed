import SearchClient.Gzip.Code

/-!
# Inflating

A compressed content is a row of blocks: bytes as they are, or symbols in a code that the block
brings along or that is always the same. A symbol is a byte, the end of the block, or the length of
a stretch that is copied from what came before, followed by how far back it is.
-/

set_option autoImplicit false
set_option relaxedAutoImplicit false

namespace SearchClient.Gzip

/-- A number of a range: where the range begins, and the bits that tell where in it the number is.
-/
structure Range where
  base : Nat
  extra : Nat
  deriving DecidableEq, Repr, Inhabited

/-- Ranges one behind the other. -/
def rangesFrom (base : Nat) : List Nat → List Range
  | [] => []
  | extra :: extras => ⟨base, extra⟩ :: rangesFrom (base + twoTo extra) extras

/-- The lengths of stretches. The greatest one has a symbol of its own. -/
def lengthRanges : List Range :=
  rangesFrom 3
    [0, 0, 0, 0, 0, 0, 0, 0, 1, 1, 1, 1, 2, 2, 2, 2, 3, 3, 3, 3, 4, 4, 4, 4, 5, 5, 5, 5] ++
      [⟨258, 0⟩]

/-- How far back stretches are. -/
def distanceRanges : List Range :=
  rangesFrom 1
    [0, 0, 0, 0, 1, 1, 2, 2, 3, 3, 4, 4, 5, 5, 6, 6, 7, 7, 8, 8, 9, 9, 10, 10, 11, 11, 12, 12, 13,
      13]

/-- The number of a range that the next bits tell. -/
def readRange? (ranges : List Range) (symbol : Nat) (bits : List Bool) :
    Option (Nat × List Bool) := do
  let range ← ranges[symbol]?
  let (offset, rest) ← number? range.extra bits
  some (range.base + offset, rest)

/-- A stretch is copied, byte by byte, so that it may go on into itself. -/
def copyBack (distance : Nat) : (length : Nat) → Array UInt8 → Array UInt8
  | 0, out => out
  | length + 1, out => copyBack distance length (out.push (out[out.size - distance]?.getD 0))

/-- What reading symbols leaves: the bits after them, and all bytes so far. -/
abbrev Progress := List Bool × Array UInt8

/-- The symbols of a block up to its end. Each takes a bit at least. -/
def readSymbols (literals distances : Code) : (fuel : Nat) → Progress → Option Progress
  | 0, _ => none
  | fuel + 1, (bits, out) => do
    let (symbol, bits) ← literals.read? bits
    if symbol < 256 then
      readSymbols literals distances fuel (bits, out.push (UInt8.ofNat symbol))
    else if symbol = 256 then some (bits, out)
    else
      let (length, bits) ← readRange? lengthRanges (symbol - 257) bits
      let (symbol, bits) ← distances.read? bits
      let (distance, bits) ← readRange? distanceRanges symbol bits
      if out.size < distance then none
      else readSymbols literals distances fuel (bits, copyBack distance length out)

/-! ### Blocks -/

/-- Bytes as they are: their count, the same count with all bits turned, and the bytes. -/
def readStored (p : Progress) : Option Progress := do
  let (count, bits) ← number? 16 (aligned p.1)
  let (turned, bits) ← number? 16 bits
  if count + turned ≠ 65535 then none
  else
    let (bytes, bits) ← takeBytes? count bits
    some (bits, p.2.appendList bytes)

/-- The lengths of the code for symbols that is always the same. -/
def usualLengths : List Nat :=
  List.replicate 144 8 ++ List.replicate 112 9 ++ List.replicate 24 7 ++ List.replicate 8 8

/-- The symbols for lengths of codes, in the order in which their own lengths stand in a block. -/
def lengthOrder : List Nat := [16, 17, 18, 0, 8, 7, 9, 6, 10, 5, 11, 4, 12, 3, 13, 2, 14, 1, 15]

/-- So many numbers of three bits. -/
def readThrees : (count : Nat) → List Bool → Option (List Nat × List Bool)
  | 0, bits => some ([], bits)
  | count + 1, bits => do
    let (n, bits) ← number? 3 bits
    let (ns, rest) ← readThrees count bits
    some (n :: ns, rest)

/-- The lengths of codes, the last one first, until there are so many. A length may be told to be
repeated, and so may having no code. -/
def readLengths (code : Code) (total : Nat) :
    (fuel : Nat) → List Nat → List Bool → Option (List Nat × List Bool)
  | 0, _, _ => none
  | fuel + 1, lengths, bits =>
    if lengths.length = total then some (lengths, bits)
    else if total < lengths.length then none
    else do
      let (symbol, bits) ← code.read? bits
      if symbol < 16 then readLengths code total fuel (symbol :: lengths) bits
      else
        let (again, width, least) ←
          match symbol with
          | 16 => lengths.head?.map fun last ↦ (last, 2, 3)
          | 17 => some (0, 3, 3)
          | _ => some (0, 7, 11)
        let (more, bits) ← number? width bits
        readLengths code total fuel (List.replicate (least + more) again ++ lengths) bits

/-- The two codes that a block brings along. -/
def readCodes (bits : List Bool) : Option (Code × Code × List Bool) := do
  let (literals, bits) ← number? 5 bits
  let (distances, bits) ← number? 5 bits
  let (threes, bits) ← number? 4 bits
  let (widths, bits) ← readThrees (threes + 4) bits
  let known := lengthOrder.zip widths
  let code ← Code.ofLengths? ((List.range 19).map fun symbol ↦
    ((known.find? (·.1 == symbol)).map (·.2)).getD 0)
  let (lengths, bits) ← readLengths code (literals + distances + 258) (bits.length + 1) [] bits
  let lengths := lengths.reverse
  some (← Code.ofLengths? (lengths.take (literals + 257)),
    ← Code.ofLengths? (lengths.drop (literals + 257)), bits)

/-- Blocks up to the last one. Each takes three bits at least. -/
def readBlocks : (fuel : Nat) → Progress → Option Progress
  | 0, _ => none
  | fuel + 1, (bits, out) => do
    let (last, bits) ← number? 1 bits
    let (kind, bits) ← number? 2 bits
    let p ←
      match kind with
      | 0 => readStored (bits, out)
      | 1 => do
        readSymbols (← Code.ofLengths? usualLengths) (← Code.ofLengths? (List.replicate 32 5))
          (bits.length + 1) (bits, out)
      | 2 => do
        let (literals, distances, bits) ← readCodes bits
        readSymbols literals distances (bits.length + 1) (bits, out)
      | _ => none
    if last = 1 then some p else readBlocks fuel p

/-- The content that bits stand for, and the bits after it. -/
def inflate? (bits : List Bool) : Option (Text.Bytes × List Bool) :=
  (readBlocks (bits.length + 1) (bits, #[])).map fun (bits, out) ↦ (out.toList, bits)

end SearchClient.Gzip

import SearchClient.Gzip.Inflate

/-!
# Gzip

A content with a header in front of it, and behind it a checksum and its length, by which damage is
found. `compress` packs a content into blocks of plain bytes, and `expand?` opens any packing.
-/

set_option autoImplicit false
set_option relaxedAutoImplicit false

namespace SearchClient.Gzip

/-! ### The checksum -/

/-- One bit of the checksum's division. -/
def divideBit (rest : UInt32) : UInt32 :=
  if rest &&& 1 = 1 then (rest >>> 1) ^^^ 0xEDB88320 else rest >>> 1

/-- The checksum after one more byte. -/
def addByte (rest : UInt32) (b : UInt8) : UInt32 :=
  (List.range 8).foldl (fun rest _ ↦ divideBit rest) (rest ^^^ b.toUInt32)

/-- The checksum of a content. -/
def checksum (content : Text.Bytes) : Nat :=
  (content.foldl addByte 0xFFFFFFFF ^^^ 0xFFFFFFFF).toNat

/-! ### Packing -/

/-- The greatest count of bytes in one block. -/
def greatestBlock : Nat := 65535

/-- A content in blocks of plain bytes, of at most so many blocks. -/
def storedBlocks : (fuel : Nat) → Text.Bytes → Text.Bytes
  | 0, _ => []
  | fuel + 1, content =>
    let block := content.take greatestBlock
    let rest := content.drop greatestBlock
    let last : UInt8 := if rest.isEmpty then 1 else 0
    last :: leastFirst 2 block.length ++ leastFirst 2 (greatestBlock - block.length) ++ block ++
      if rest.isEmpty then [] else storedBlocks fuel rest

/-- A content, packed. -/
def compress (content : Text.Bytes) : Text.Bytes :=
  [0x1F, 0x8B, 8, 0, 0, 0, 0, 0, 0, 255] ++ storedBlocks (content.length + 1) content ++
    leastFirst 4 (checksum content) ++ leastFirst 4 content.length

/-! ### Opening -/

/-- What follows a text that ends in a zero. -/
def afterText? (bytes : Text.Bytes) : Option Text.Bytes :=
  match bytes.dropWhile (· ≠ 0) with
  | [] => none
  | _ :: rest => some rest

/-- What follows an additional field with its length in front. -/
def afterField? : Text.Bytes → Option Text.Bytes
  | low :: high :: rest =>
    let length := low.toNat + 256 * high.toNat
    if rest.length < length then none else some (rest.drop length)
  | _ => none

/-- What follows the header. Its marks tell whether there is an additional field, a name, a remark,
and a checksum of the header. -/
def afterHeader? : Text.Bytes → Option Text.Bytes
  | 0x1F :: 0x8B :: 8 :: marks :: _ :: _ :: _ :: _ :: _ :: _ :: rest => do
    let rest ← if marks &&& 4 ≠ 0 then afterField? rest else some rest
    let rest ← if marks &&& 8 ≠ 0 then afterText? rest else some rest
    let rest ← if marks &&& 16 ≠ 0 then afterText? rest else some rest
    if marks &&& 2 ≠ 0 then (if rest.length < 2 then none else some (rest.drop 2)) else some rest
  | _ => none

/-- The content of a packing, if it is whole and undamaged. -/
def expand? (bytes : Text.Bytes) : Option Text.Bytes := do
  let rest ← afterHeader? bytes
  let (content, bits) ← inflate? (bitsOf rest)
  let (sum, bits) ← number? 32 (aligned bits)
  let (length, _) ← number? 32 bits
  if sum = checksum content ∧ length = content.length % 4294967296 then some content else none

end SearchClient.Gzip

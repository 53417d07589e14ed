import SearchClient.Number.Bounds
import SearchClient.Text.Utf8

/-!
# Bits of bytes

A compressed content is a row of bits, those of each byte with the least one first. Numbers stand in
it with their least bit first, and in bytes with their least byte first (`number?`, `leastFirst`).
-/

set_option autoImplicit false
set_option relaxedAutoImplicit false

namespace SearchClient.Gzip

/-- The bits of a byte, the least one first. -/
def byteBits (b : UInt8) : List Bool := (List.range 8).map b.toNat.testBit

/-- The bits of bytes. -/
def bitsOf (bytes : Text.Bytes) : List Bool := bytes.flatMap byteBits

/-- The number that the next bits are, and the bits after them. -/
def number? : (width : Nat) → List Bool → Option (Nat × List Bool)
  | 0, bits => some (0, bits)
  | _ + 1, [] => none
  | width + 1, bit :: bits =>
    (number? width bits).map fun (n, rest) ↦ (bit.toNat + 2 * n, rest)

/-- The bits from the next whole byte on. -/
def aligned (bits : List Bool) : List Bool := bits.drop (bits.length % 8)

/-- So many bytes of a number, the least one first. -/
def leastFirst : (count : Nat) → Nat → Text.Bytes
  | 0, _ => []
  | count + 1, n => UInt8.ofNat n :: leastFirst count (n / 256)

/-- The next bytes, and the bits after them. -/
def takeBytes? : (count : Nat) → List Bool → Option (Text.Bytes × List Bool)
  | 0, bits => some ([], bits)
  | count + 1, bits => do
    let (b, bits) ← number? 8 bits
    let (bytes, rest) ← takeBytes? count bits
    some (UInt8.ofNat b :: bytes, rest)

end SearchClient.Gzip

import SearchClient.Text.Utf8

/-!
# Percent encoding

A character that cannot stand for itself is written as its bytes, each as a percent sign and two
hexadecimal digits. Which characters those are depends on the place, so `encode` takes them as a
predicate; characters beyond ASCII are always written as bytes. Reading gives bytes back, and a
percent sign without two digits stands for itself.
-/

set_option autoImplicit false
set_option relaxedAutoImplicit false

namespace SearchClient.Text.Percent

/-- The hexadecimal digit of a number below sixteen. -/
def hexDigit (n : Nat) : Char :=
  Char.ofNat (if n < 10 then '0'.toNat + n else 'A'.toNat + (n - 10))

/-- The number that a hexadecimal digit stands for. -/
def hexValue? (c : Char) : Option Nat :=
  if '0' ≤ c ∧ c ≤ '9' then some (c.toNat - '0'.toNat)
  else if 'a' ≤ c ∧ c ≤ 'f' then some (c.toNat - 'a'.toNat + 10)
  else if 'A' ≤ c ∧ c ≤ 'F' then some (c.toNat - 'A'.toNat + 10)
  else none

/-- A byte in written form. -/
def encodeByte (b : UInt8) : List Char :=
  ['%', hexDigit (b.toNat / 16), hexDigit (b.toNat % 16)]

/-- A character as it stands where some characters have to be encoded. -/
def encodeChar (reserved : Char → Bool) (c : Char) : List Char :=
  if reserved c || 128 ≤ c.toNat then (String.utf8EncodeChar c).flatMap encodeByte else [c]

/-- A text as it stands where some characters have to be encoded. -/
def encode (reserved : Char → Bool) (cs : List Char) : List Char :=
  cs.flatMap (encodeChar reserved)

/-- The bytes of a text, a written byte being read as the byte. -/
def decode : List Char → Bytes
  | [] => []
  | '%' :: high :: low :: rest =>
    match hexValue? high, hexValue? low with
    | some h, some l => UInt8.ofNat (h * 16 + l) :: decode rest
    | _, _ => 37 :: decode (high :: low :: rest)
  | c :: rest => String.utf8EncodeChar c ++ decode rest

/-- The characters that can be seen in no text. -/
def control (c : Char) : Bool := c.toNat < 32 || c.toNat == 127

end SearchClient.Text.Percent

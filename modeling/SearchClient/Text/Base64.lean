import SearchClient.Text.Utf8

/-!
# Base64

Three bytes are written as four characters of six bits each; what is missing at the end is filled up
with equals signs.
-/

set_option autoImplicit false
set_option relaxedAutoImplicit false

namespace SearchClient.Text.Base64

/-- The characters for the numbers below sixty-four. -/
def alphabet : List Char :=
  "ABCDEFGHIJKLMNOPQRSTUVWXYZabcdefghijklmnopqrstuvwxyz0123456789+/".toList

/-- The character for six bits. -/
def character (n : Nat) : Char := alphabet[n % 64]?.getD '='

def encode : Bytes → List Char
  | [] => []
  | [a] => [character (a.toNat / 4), character (a.toNat * 16), '=', '=']
  | [a, b] =>
    [character (a.toNat / 4), character (a.toNat * 16 + b.toNat / 16), character (b.toNat * 4), '=']
  | a :: b :: c :: rest =>
    character (a.toNat / 4) :: character (a.toNat * 16 + b.toNat / 16) ::
      character (b.toNat * 4 + c.toNat / 64) :: character c.toNat :: encode rest

end SearchClient.Text.Base64

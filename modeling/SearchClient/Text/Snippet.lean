/-!
# Beginnings of texts

A message quotes a long body only up to a limit, counted in bytes and cut between characters.
-/

set_option autoImplicit false
set_option relaxedAutoImplicit false

namespace SearchClient.Text

/-- The longest beginning whose characters take up no more bytes than the room. -/
def takeBytes (room : Nat) : List Char → List Char
  | [] => []
  | c :: cs => if c.utf8Size ≤ room then c :: takeBytes (room - c.utf8Size) cs else []

/-- The bytes that characters take up. -/
def byteLength : List Char → Nat
  | [] => 0
  | c :: cs => c.utf8Size + byteLength cs

/-- The room of a snippet in bytes. -/
def snippetRoom : Nat := 256

/-- A text that fits stays whole; of a longer one the beginning is shown, with three dots. -/
def snippet (s : String) : String :=
  if byteLength s.toList ≤ snippetRoom then s
  else String.ofList (takeBytes snippetRoom s.toList) ++ "..."

end SearchClient.Text

/-!
# White space

A character is blank when it has the Unicode property `White_Space`, twenty-five characters in
all. Trimming a text removes the blanks at its ends and keeps those inside.
-/

set_option autoImplicit false
set_option relaxedAutoImplicit false

namespace SearchClient.Text

/-- The characters with the property `White_Space`. -/
def isBlank (c : Char) : Bool :=
  (9 ≤ c.toNat && c.toNat ≤ 13) || c == ' ' || c.toNat == 0x85 || c.toNat == 0xA0 ||
    c.toNat == 0x1680 || (0x2000 ≤ c.toNat && c.toNat ≤ 0x200A) || c.toNat == 0x2028 ||
    c.toNat == 0x2029 || c.toNat == 0x202F || c.toNat == 0x205F || c.toNat == 0x3000

/-- Blanks at the end are dropped. -/
def trimRight (cs : List Char) : List Char :=
  (cs.reverse.dropWhile isBlank).reverse

/-- Blanks at both ends are dropped. -/
def trim (cs : List Char) : List Char :=
  trimRight (cs.dropWhile isBlank)

/-- Trimming on strings. -/
def trimmed (s : String) : String :=
  String.ofList (trim s.toList)

end SearchClient.Text

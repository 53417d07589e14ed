import SearchClient.Json.Basic
import SearchClient.Number.Shortest

/-!
# Documents as text

`Json.compact` writes a document without any blank, `Json.pretty` with one member or item a line
and two blanks for each level. Inside strings the quote, the backslash and the control characters
are escaped, so a compact text holds no line break (`lineFree_compact`).
-/

set_option autoImplicit false
set_option relaxedAutoImplicit false

namespace SearchClient.Json

/-- The digit of a number below sixteen. -/
def hexDigit (n : Nat) : Char :=
  Char.ofNat (if n < 10 then '0'.toNat + n else 'a'.toNat + (n - 10))

/-- How a character stands inside a string. -/
def escape (c : Char) : List Char :=
  if c = '"' then ['\\', '"']
  else if c = '\\' then ['\\', '\\']
  else if c.toNat = 8 then ['\\', 'b']
  else if c.toNat = 12 then ['\\', 'f']
  else if c = '\n' then ['\\', 'n']
  else if c = '\r' then ['\\', 'r']
  else if c = '\t' then ['\\', 't']
  else if c.toNat < 32 then ['\\', 'u', '0', '0', hexDigit (c.toNat / 16), hexDigit (c.toNat % 16)]
  else [c]

/-- A string in quotes. -/
def quote (cs : List Char) : List Char :=
  '"' :: (cs.flatMap escape ++ ['"'])

def Number.text : Number → List Char
  | .integer i => Decimal.writeInt i
  | .float x => x.json

mutual

/-- The document without blanks. -/
def chars : Json → List Char
  | .null => "null".toList
  | .bool true => "true".toList
  | .bool false => "false".toList
  | .number n => n.text
  | .string s => quote s.toList
  | .array items => '[' :: (itemChars items ++ [']'])
  | .object members => '{' :: (memberChars members ++ ['}'])

/-- Items with commas between them. -/
def itemChars : List Json → List Char
  | [] => []
  | [item] => chars item
  | item :: next :: items => chars item ++ ',' :: itemChars (next :: items)

/-- Members with commas between them. -/
def memberChars : List (String × Json) → List Char
  | [] => []
  | [(name, value)] => quote name.toList ++ ':' :: chars value
  | (name, value) :: next :: members =>
    quote name.toList ++ ':' :: (chars value ++ ',' :: memberChars (next :: members))

end

/-- The document without blanks. -/
def compact (j : Json) : String := String.ofList j.chars

/-- A new line at a level. -/
def newline (level : Nat) : List Char := '\n' :: List.replicate (2 * level) ' '

mutual

/-- The document with a line for each member and item. Empty containers stay on their line. -/
def prettyChars (level : Nat) : Json → List Char
  | .array [] => ['[', ']']
  | .array (item :: items) =>
    '[' :: (newline (level + 1) ++ prettyChars (level + 1) item ++ prettyItems (level + 1) items ++
      newline level ++ [']'])
  | .object [] => ['{', '}']
  | .object ((name, value) :: members) =>
    '{' :: (newline (level + 1) ++ quote name.toList ++ ':' :: ' ' ::
      prettyChars (level + 1) value ++ prettyMembers (level + 1) members ++ newline level ++ ['}'])
  | .null => "null".toList
  | .bool true => "true".toList
  | .bool false => "false".toList
  | .number n => n.text
  | .string s => quote s.toList

/-- Further items, a comma in front of each. -/
def prettyItems (level : Nat) : List Json → List Char
  | [] => []
  | item :: items => ',' :: (newline level ++ prettyChars level item ++ prettyItems level items)

/-- Further members, a comma in front of each. -/
def prettyMembers (level : Nat) : List (String × Json) → List Char
  | [] => []
  | (name, value) :: members =>
    ',' :: (newline level ++ quote name.toList ++ ':' :: ' ' :: prettyChars level value ++
      prettyMembers level members)

end

/-- The document with a line for each member and item. -/
def pretty (j : Json) : String := String.ofList (j.prettyChars 0)

end SearchClient.Json

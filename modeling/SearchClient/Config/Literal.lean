import SearchClient.Json.Basic
import SearchClient.Number.Decimal
import SearchClient.Text.Blank
import SearchClient.Toml.Quoted

/-!
# Values of environment variables

A variable holds a truth value, a number, a text in quotes, a list in brackets, a dictionary in
braces, or any other text. `Literal.read` says which value it is. What looks like one of the former
and is malformed is a text like any other, and then stands as it is, blanks included.
-/

set_option autoImplicit false
set_option relaxedAutoImplicit false

namespace SearchClient.Literal

/-- The blanks around values. -/
def isSpace (c : Char) : Bool :=
  c == ' ' || c == '\t' || c == '\n' || c == '\r' || c == '\x0c'

def skipSpace (cs : List Char) : List Char := cs.dropWhile isSpace

/-- The characters that end a plain value. -/
def isSeparator (c : Char) : Bool :=
  c == ',' || c == '\x7b' || c == '\x7d' || c == '[' || c == ']'

/-- The characters of keys without quotes. -/
def isKeyChar (c : Char) : Bool := c.isAlphanum || c == '_' || c == '-'

/-- What stands between quotes, escapes and all, and what follows the closing one. -/
def splitQuoted : List Char → Option (List Char × List Char)
  | [] => none
  | '"' :: rest => some ([], rest)
  | '\\' :: c :: rest => (splitQuoted rest).map fun (inner, rest) ↦ ('\\' :: c :: inner, rest)
  | c :: rest => (splitQuoted rest).map fun (inner, rest) ↦ (c :: inner, rest)

/-- The text of an inside with escapes. -/
def unescape : (fuel : Nat) → List Char → Option (List Char)
  | 0, _ => none
  | _, [] => some []
  | fuel + 1, c :: rest =>
    if c = '\\' then do
      let (c, rest) ← Toml.escape? rest
      (unescape fuel rest).map (c :: ·)
    else if Toml.isPlain c then (unescape fuel rest).map (c :: ·)
    else none

/-- A text, read behind its opening quote. -/
def readQuoted (cs : List Char) : Option (String × List Char) := do
  let (inner, rest) ← splitQuoted cs
  some (String.ofList (← unescape (inner.length + 1) inner), rest)

/-- A value without brackets, braces and quotes. -/
def plain (cs : List Char) : Json :=
  let cs := Text.trim cs
  let number : Option Json :=
    if cs.contains '.' then (Decimal.readFloat? cs).map fun x ↦ .number (.float x)
    else
      match Decimal.readInt? cs with
      | some i => if leastSigned ≤ i ∧ i ≤ greatestUnsigned then some (.integer i) else none
      | none => none
  number.getD (.string (String.ofList cs))

/-- The key of a dictionary. -/
def readKey (cs : List Char) : Option (String × List Char) :=
  match cs with
  | '"' :: rest => readQuoted rest
  | cs =>
    let key := cs.takeWhile isKeyChar
    if key.isEmpty then none else some (String.ofList key, cs.dropWhile isKeyChar)

mutual

/-- A value with the blanks around it. -/
def readValue (fuel : Nat) (cs : List Char) : Option (Json × List Char) :=
  match fuel with
  | 0 => none
  | fuel + 1 => do
    let cs := skipSpace cs
    let (v, rest) ←
      match Text.dropPrefix? "true".toList cs, Text.dropPrefix? "false".toList cs, cs with
      | some rest, _, _ => some (Json.bool true, rest)
      | none, some rest, _ => some (Json.bool false, rest)
      | none, none, '[' :: rest =>
        (readItems fuel rest).map fun (items, rest) ↦ (.array items, rest)
      | none, none, '\x7b' :: rest =>
        (readMembers fuel rest).map fun (members, rest) ↦ (Json.ofMembers members, rest)
      | none, none, '"' :: rest => (readQuoted rest).map fun (s, rest) ↦ (.string s, rest)
      | none, none, '\'' :: rest =>
        match rest with
        | c :: '\'' :: rest => some (.string (String.ofList [c]), rest)
        | _ => none
      | none, none, cs =>
        some (plain (cs.takeWhile (!isSeparator ·)), cs.dropWhile (!isSeparator ·))
    some (v, skipSpace rest)
  termination_by (fuel, 1)

/-- The items of a list up to its end. -/
def readItems (fuel : Nat) (cs : List Char) : Option (List Json × List Char) :=
  match fuel, cs with
  | 0, _ => none
  | _, ']' :: rest => some ([], rest)
  | fuel + 1, cs => do
    match ← readValue fuel cs with
    | (item, ',' :: rest) =>
      let (items, rest) ← readItems fuel rest
      some (item :: items, rest)
    | (item, ']' :: rest) => some ([item], rest)
    | _ => none
  termination_by (fuel, 0)

/-- The members of a dictionary up to its end. -/
def readMembers (fuel : Nat) (cs : List Char) : Option (List (String × Json) × List Char) :=
  match fuel, cs with
  | 0, _ => none
  | _, '\x7d' :: rest => some ([], rest)
  | fuel + 1, cs => do
    let (key, rest) ← readKey (skipSpace cs)
    match skipSpace rest with
    | '=' :: rest =>
      match ← readValue fuel rest with
      | (v, ',' :: rest) =>
        let (members, rest) ← readMembers fuel rest
        some ((key, v) :: members, rest)
      | (v, '\x7d' :: rest) => some ([(key, v)], rest)
      | _ => none
    | _ => none
  termination_by (fuel, 0)

end

/-- The value of a variable. -/
def read (text : String) : Json :=
  let cs := text.toList
  match readValue (2 * cs.length + 2) cs with
  | some (v, []) => v
  | _ => .string text

end SearchClient.Literal

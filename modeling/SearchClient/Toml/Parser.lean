import SearchClient.Toml.Quoted
import SearchClient.Toml.Scalar
import SearchClient.Toml.Table

/-!
# Reading TOML texts

A TOML text is a row of lines: a key with its value, the header of a table, or a comment. `parse?`
gives the document that the text describes, or nothing when some line is malformed or defines a
second time what has been defined.
-/

set_option autoImplicit false
set_option relaxedAutoImplicit false

namespace SearchClient.Toml

/-- What follows a comment, if one stands here. -/
def skipComment : List Char → List Char
  | '#' :: rest => rest.dropWhile isPlain
  | cs => cs

/-- What follows blanks. -/
def skipBlanks (cs : List Char) : List Char := cs.dropWhile isBlank

/-- What follows blanks, comments and line breaks. -/
def skipSpace : (fuel : Nat) → List Char → List Char
  | 0, cs => cs
  | fuel + 1, cs =>
    match newline? (skipComment (skipBlanks cs)) with
    | some rest => skipSpace fuel rest
    | none => skipBlanks cs

/-- What follows the end of a line, at which blanks and a comment may stand. -/
def endLine? (cs : List Char) : Option (List Char) :=
  match skipComment (skipBlanks cs) with
  | [] => some []
  | rest => newline? rest

/-- The characters of keys without quotes. -/
def isKeyChar (c : Char) : Bool := c.isAlphanum || c == '_' || c == '-'

/-- One part of a key. -/
def readKeyPart (cs : List Char) : Option (String × List Char) :=
  match readShort? cs with
  | some (key, rest) => some (String.ofList key, rest)
  | none =>
    let key := cs.takeWhile isKeyChar
    if key.isEmpty then none else some (String.ofList key, cs.dropWhile isKeyChar)

/-- A key: parts with dots between them. It is given as the parts before the last, and the last. -/
def readKey : (fuel : Nat) → List Char → Option (List String × String × List Char)
  | 0, _ => none
  | fuel + 1, cs => do
    let (part, rest) ← readKeyPart cs
    match skipBlanks rest with
    | '.' :: rest =>
      let (path, key, rest) ← readKey fuel (skipBlanks rest)
      some (part :: path, key, rest)
    | _ => some ([], part, rest)

/-- Nothing is nested deeper, and no key has more parts. -/
def depthLimit : Nat := 79

mutual

/-- A value, with so much room for what is nested in it. -/
def readValue (room fuel : Nat) (cs : List Char) : Option (Json × List Char) :=
  match fuel, cs with
  | 0, _ => none
  | _, [] => none
  | fuel + 1, c :: rest =>
    if c = '"' ∨ c = '\'' then
      (readQuoted? (c :: rest)).map fun (s, rest) ↦ (.string (String.ofList s), rest)
    else if c = '[' then
      match room with
      | 0 => none
      | room + 1 =>
        (readItems room fuel (skipSpace rest.length rest)).map fun (items, rest) ↦
          (.array items, rest)
    else if c = '\x7b' then
      match room with
      | 0 => none
      | room + 1 =>
        match skipBlanks rest with
        | '\x7d' :: rest => some (.object [], rest)
        | rest => (readMembers room fuel rest []).map fun (t, rest) ↦ (Table.toJson t, rest)
    else
      let word := (c :: rest).takeWhile isWordChar
      let rest := (c :: rest).dropWhile isWordChar
      let clock := (rest.drop 1).takeWhile isWordChar
      if day? word = some [] ∧ rest.head? = some ' ' ∧ isZonedTime clock then
        some (date (word ++ ' ' :: clock), (rest.drop 1).dropWhile isWordChar)
      else (word? word).map fun v ↦ (v, rest)
  termination_by (fuel, 1)

/-- The items of an array up to its end. -/
def readItems (room fuel : Nat) (cs : List Char) : Option (List Json × List Char) :=
  match fuel, cs with
  | 0, _ => none
  | _, ']' :: rest => some ([], rest)
  | fuel + 1, cs => do
    let (item, rest) ← readValue room fuel cs
    match skipSpace rest.length rest with
    | ',' :: rest =>
      let (items, rest) ← readItems room fuel (skipSpace rest.length rest)
      some (item :: items, rest)
    | ']' :: rest => some ([item], rest)
    | _ => none
  termination_by (fuel, 0)

/-- The members of a table on one line, up to its end. -/
def readMembers (room fuel : Nat) (cs : List Char) (t : Table) : Option (Table × List Char) :=
  match fuel with
  | 0 => none
  | fuel + 1 => do
    let (path, key, rest) ← readKey depthLimit cs
    match skipBlanks rest with
    | '=' :: rest =>
      let (v, rest) ← readValue room fuel (skipBlanks rest)
      let t ← t.put path key v
      match skipBlanks rest with
      | ',' :: rest => readMembers room fuel (skipBlanks rest) t
      | '\x7d' :: rest => some (t, rest)
      | _ => none
    | _ => none
  termination_by (fuel, 0)

end

/-- How far a text has been read: the document so far, and the path of the table that is open. -/
structure State where
  root : Table := []
  path : List String := []
  deriving Inhabited

/-- A header, read behind its first bracket. -/
def readHeader (s : State) (cs : List Char) : Option (State × List Char) :=
  match cs with
  | '[' :: rest => do
    let (path, key, rest) ← readKey depthLimit (skipBlanks rest)
    match skipBlanks rest with
    | ']' :: ']' :: rest =>
      some (⟨← Table.below (Table.openItem key) path s.root, path ++ [key]⟩, rest)
    | _ => none
  | cs => do
    let (path, key, rest) ← readKey depthLimit (skipBlanks cs)
    match skipBlanks rest with
    | ']' :: rest =>
      some (⟨← Table.below (Table.openTable key) path s.root, path ++ [key]⟩, rest)
    | _ => none

/-- A key with its value. -/
def readPair (s : State) (cs : List Char) : Option (State × List Char) := do
  let (path, key, rest) ← readKey depthLimit cs
  match skipBlanks rest with
  | '=' :: rest =>
    let (v, rest) ← readValue depthLimit (rest.length + 1) (skipBlanks rest)
    some ({ s with root := ← Table.below (Table.put path key v) s.path s.root }, rest)
  | _ => none

/-- The lines of a text. -/
def readLines : (fuel : Nat) → State → List Char → Option Table
  | 0, _, _ => none
  | fuel + 1, s, cs =>
    match skipSpace cs.length cs with
    | [] => some s.root
    | '#' :: rest => if (rest.dropWhile isPlain).isEmpty then some s.root else none
    | '[' :: rest => do
      let (s, rest) ← readHeader s rest
      readLines fuel s (← endLine? rest)
    | rest => do
      let (s, rest) ← readPair s rest
      readLines fuel s (← endLine? rest)

/-- The document that a text describes. A mark of the byte order in front does not count. -/
def parse? (text : String) : Option Json :=
  let cs :=
    match text.toList with
    | '\ufeff' :: rest => rest
    | cs => cs
  (readLines (cs.length + 1) {} cs).map Table.toJson

end SearchClient.Toml

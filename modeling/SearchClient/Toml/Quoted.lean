import SearchClient.Text.Split

/-!
# Quoted texts of a TOML text

A text in double quotes may hold escapes, one in single quotes is what it is. Three quotes enclose a
text of several lines, which loses a line break at its very beginning. Each reader begins behind the
opening quotes and gives the text and what follows the closing ones.
-/

set_option autoImplicit false
set_option relaxedAutoImplicit false

namespace SearchClient.Toml

/-- A blank within a line. -/
def isBlank (c : Char) : Bool := c == ' ' || c == '\t'

/-- What follows a line break. -/
def newline? : List Char → Option (List Char)
  | '\n' :: rest => some rest
  | '\r' :: '\n' :: rest => some rest
  | _ => none

/-- The characters that stand for themselves: no control character but the tab. -/
def isPlain (c : Char) : Bool := c == '\t' || (32 ≤ c.toNat && c.toNat ≠ 127)

/-- The value of a hexadecimal digit. -/
def hexDigit? (c : Char) : Option Nat :=
  if c.isDigit then some (c.toNat - '0'.toNat)
  else if 'a' ≤ c ∧ c ≤ 'f' then some (c.toNat - 'a'.toNat + 10)
  else if 'A' ≤ c ∧ c ≤ 'F' then some (c.toNat - 'A'.toNat + 10)
  else none

/-- The character of a row of hexadecimal digits. -/
def scalar? (count : Nat) (cs : List Char) : Option (Char × List Char) := do
  let digits := cs.take count
  if digits.length ≠ count then none
  else
    let n ← digits.foldlM (fun n c ↦ (hexDigit? c).map (16 * n + ·)) 0
    if n.isValidChar then some (Char.ofNat n, cs.drop count) else none

/-- The character of an escape, read behind the backslash. -/
def escape? : List Char → Option (Char × List Char)
  | 'b' :: rest => some ('\x08', rest)
  | 't' :: rest => some ('\t', rest)
  | 'n' :: rest => some ('\n', rest)
  | 'f' :: rest => some ('\x0c', rest)
  | 'r' :: rest => some ('\r', rest)
  | '"' :: rest => some ('"', rest)
  | '\\' :: rest => some ('\\', rest)
  | 'u' :: rest => scalar? 4 rest
  | 'U' :: rest => scalar? 8 rest
  | _ => none

/-- A character in front of a text that has been read. -/
def push (c : Char) (r : List Char × List Char) : List Char × List Char := (c :: r.1, r.2)

/-- A text in double quotes. -/
def readBasic : (fuel : Nat) → List Char → Option (List Char × List Char)
  | 0, _ => none
  | _, [] => none
  | fuel + 1, c :: rest =>
    if c = '"' then some ([], rest)
    else if c = '\\' then do
      let (c, rest) ← escape? rest
      (readBasic fuel rest).map (push c)
    else if isPlain c then (readBasic fuel rest).map (push c)
    else none

/-- A text in single quotes. -/
def readLiteral : List Char → Option (List Char × List Char)
  | [] => none
  | c :: rest =>
    if c = '\'' then some ([], rest)
    else if isPlain c then (readLiteral rest).map (push c)
    else none

/-- Where a text of several lines ends: up to two quotes before the closing three belong to it. -/
def closing? (quote : Char) (cs : List Char) : Option (List Char × List Char) :=
  let run := (cs.takeWhile (· == quote)).length
  if run < 3 then none
  else some (List.replicate (min (run - 3) 2) quote, cs.drop (min run 5))

/-- What follows a line break and all blanks and line breaks behind it. -/
def skipLines : (fuel : Nat) → List Char → List Char
  | 0, cs => cs
  | fuel + 1, cs =>
    match newline? cs, cs with
    | some rest, _ => skipLines fuel rest
    | none, c :: rest => if isBlank c then skipLines fuel rest else c :: rest
    | none, [] => []

/-- A text of several lines in double quotes. A backslash at the end of a line joins it to the next
one. -/
def readLongBasic : (fuel : Nat) → List Char → Option (List Char × List Char)
  | 0, _ => none
  | fuel + 1, cs =>
    match closing? '"' cs, newline? cs, cs with
    | some found, _, _ => some found
    | none, some rest, _ => (readLongBasic fuel rest).map (push '\n')
    | none, none, [] => none
    | none, none, c :: rest =>
      if c = '\\' then
        match newline? (rest.dropWhile isBlank) with
        | some below => readLongBasic fuel (skipLines fuel below)
        | none => do
          let (c, rest) ← escape? rest
          (readLongBasic fuel rest).map (push c)
      else if isPlain c then (readLongBasic fuel rest).map (push c)
      else none

/-- A text of several lines in single quotes. -/
def readLongLiteral : (fuel : Nat) → List Char → Option (List Char × List Char)
  | 0, _ => none
  | fuel + 1, cs =>
    match closing? '\'' cs, newline? cs, cs with
    | some found, _, _ => some found
    | none, some rest, _ => (readLongLiteral fuel rest).map (push '\n')
    | none, none, [] => none
    | none, none, c :: rest =>
      if isPlain c then (readLongLiteral fuel rest).map (push c) else none

/-- What follows a line break at the beginning, or the text itself. -/
def dropNewline (cs : List Char) : List Char := (newline? cs).getD cs

/-- A text in quotes on one line, if one stands here. -/
def readShort? : List Char → Option (List Char × List Char)
  | '"' :: rest => readBasic (rest.length + 1) rest
  | '\'' :: rest => readLiteral rest
  | _ => none

/-- A text in quotes, if one stands here. -/
def readQuoted? (cs : List Char) : Option (List Char × List Char) :=
  match cs with
  | '"' :: '"' :: '"' :: rest => readLongBasic (rest.length + 1) (dropNewline rest)
  | '\'' :: '\'' :: '\'' :: rest => readLongLiteral (rest.length + 1) (dropNewline rest)
  | cs => readShort? cs

end SearchClient.Toml

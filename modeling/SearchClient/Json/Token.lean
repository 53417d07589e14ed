import SearchClient.Json.Basic
import SearchClient.Number.Decimal
import SearchClient.Text.Utf8

/-!
# Tokens of a JSON text

A text is cut into pieces, each a token with the blanks in front of it. Cutting never fails: where
the text stops being JSON, a last token says so. A number or a string may be well formed for a
reader that only passes over it and still hold no value (a number out of range, half of a surrogate
pair, bytes that are no character); such a token is kept and refused when its value is asked for.
-/

set_option autoImplicit false
set_option relaxedAutoImplicit false

namespace SearchClient.Json

open Text

/-- Why a text could not be read. -/
inductive Fault where
  /-- The text is no JSON. -/
  | malformed
  /-- The text ends too early. -/
  | truncated
  /-- The text is JSON of another shape than the one asked for. -/
  | mismatch
  deriving DecidableEq, Repr, Inhabited

/-- A place where the text stops being JSON: the fault for one who reads the value there and for one
who passes over it. -/
structure Break where
  read : Fault
  skipped : Fault
  deriving DecidableEq, Repr, Inhabited

/-- The text goes wrong. -/
def Break.malformed : Break := ⟨.malformed, .malformed⟩

/-- The text ends. -/
def Break.truncated : Break := ⟨.truncated, .truncated⟩

/-- The text ends inside a number, which one who passes over it takes for a malformed one. -/
def Break.halfNumber : Break := ⟨.truncated, .malformed⟩

/-- A well-formed number as spelled: sign, digits before the point, digits behind it, and the mark,
sign and digits of the exponent. -/
structure Numeral where
  negative : Bool
  whole : List Char
  fraction : Option (List Char)
  exponent : Option (Char × Option Char × List Char)
  deriving DecidableEq, Repr, Inhabited

/-- The spelling of a numeral. -/
def Numeral.spelling (n : Numeral) : List Char :=
  (if n.negative then ['-'] else []) ++ n.whole ++
    (match n.fraction with
      | none => []
      | some digits => '.' :: digits) ++
    (match n.exponent with
      | none => []
      | some (mark, sign, digits) => mark :: (sign.toList ++ digits))

/-- A string in quotes: its spelling, and what it says. -/
structure Quoted where
  spelling : List Glyph
  content : Except Fault String
  deriving Repr, Inhabited

/-- A token. -/
inductive Token where
  | openBrace
  | closeBrace
  | openBracket
  | closeBracket
  | colon
  | comma
  | null
  | bool (b : Bool)
  | number (n : Numeral)
  | string (s : Quoted)
  | broken (b : Break)
  deriving Repr, Inhabited

/-- The spelling of a token. A broken one has none. -/
def Token.spelling : Token → List Glyph
  | openBrace => [.char '{']
  | closeBrace => [.char '}']
  | openBracket => [.char '[']
  | closeBracket => [.char ']']
  | colon => [.char ':']
  | comma => [.char ',']
  | null => "null".toList.map .char
  | bool true => "true".toList.map .char
  | bool false => "false".toList.map .char
  | number n => n.spelling.map .char
  | string s => s.spelling
  | broken _ => []

/-- A token with the blanks in front of it. -/
structure Piece where
  blank : List Glyph
  token : Token
  deriving Repr, Inhabited

/-- The spelling of a piece, its blanks apart. -/
def Piece.spelling (p : Piece) : List Glyph := p.token.spelling

/-! ### Blanks and words -/

/-- The four blanks between tokens. -/
def isBlank : Glyph → Bool
  | .char c => c = ' ' || c = '\n' || c = '\t' || c = '\r'
  | .stray _ => false

/-- The rest of a word whose first letter has been seen. -/
def readWord : (letters : List Char) → List Glyph → Except Fault (List Glyph)
  | [], rest => .ok rest
  | _ :: _, [] => .error .truncated
  | l :: letters, g :: rest => if g = .char l then readWord letters rest else .error .malformed

/-! ### Numbers -/

/-- The digits in front, and the rest. -/
def readDigits : List Glyph → List Char × List Glyph
  | .char c :: rest =>
    if Decimal.isDigit c then
      let (digits, rest) := readDigits rest
      (c :: digits, rest)
    else ([], .char c :: rest)
  | rest => ([], rest)

/-- Digits that have to be there. -/
def needDigits (input : List Glyph) : Except Break (List Char × List Glyph) :=
  match readDigits input with
  | ([], []) => .error .halfNumber
  | ([], _) => .error .malformed
  | found => .ok found

/-- The digits before the point: a single zero, or digits that do not begin with zero. -/
def readWhole (input : List Glyph) : Except Break (List Char × List Glyph) := do
  let (digits, rest) ← needDigits input
  match digits with
  | '0' :: _ :: _ => .error .malformed
  | _ => .ok (digits, rest)

/-- A point with digits behind it, or nothing. -/
def readFraction : List Glyph → Except Break (Option (List Char) × List Glyph)
  | .char '.' :: rest => do
    let (digits, rest) ← needDigits rest
    .ok (some digits, rest)
  | rest => .ok (none, rest)

/-- An optional sign. -/
def readSign : List Glyph → Option Char × List Glyph
  | .char '+' :: rest => (some '+', rest)
  | .char '-' :: rest => (some '-', rest)
  | rest => (none, rest)

/-- A mark with a sign and digits behind it, or nothing. -/
def readExponent : List Glyph → Except Break (Option (Char × Option Char × List Char) × List Glyph)
  | .char c :: rest =>
    if c = 'e' ∨ c = 'E' then do
      let (sign, rest) := readSign rest
      let (digits, rest) ← needDigits rest
      .ok (some (c, sign, digits), rest)
    else .ok (none, .char c :: rest)
  | rest => .ok (none, rest)

/-- A number behind its sign. -/
def readNumeral (negative : Bool) (input : List Glyph) : Except Break (Numeral × List Glyph) := do
  let (whole, rest) ← readWhole input
  let (fraction, rest) ← readFraction rest
  let (exponent, rest) ← readExponent rest
  .ok (⟨negative, whole, fraction, exponent⟩, rest)

/-! ### Strings -/

/-- A string being read: closed, with the spelling and content from here on and what follows it, or
broken. -/
inductive Scan where
  | closed (spelling : List Glyph) (content : Except Fault (List Char)) (rest : List Glyph)
  | broken (b : Break)

/-- A character spelled in some way stands in front. -/
def Scan.push (spelling : List Glyph) (c : Char) : Scan → Scan
  | .closed s content rest => .closed (spelling ++ s) (content.map (c :: ·)) rest
  | .broken b => .broken b

/-- Bytes that are no character stand in front: the content is lost when the string closes. -/
def Scan.pushStray (run : Bytes) : Scan → Scan
  | .closed s _ rest => .closed (.stray run :: s) (.error .malformed) rest
  | .broken b => .broken b

/-- Half of a surrogate pair stands in front: the content is lost at once. -/
def Scan.pushHalf (spelling : List Glyph) : Scan → Scan
  | .closed s _ rest => .closed (spelling ++ s) (.error .malformed) rest
  | .broken b => .broken { b with read := .malformed }

/-- The number that a hexadecimal digit stands for. -/
def hexValue? (c : Char) : Option Nat :=
  if Decimal.isDigit c then some (Decimal.digitValue c)
  else if 'a' ≤ c && c ≤ 'f' then some (c.toNat - 'a'.toNat + 10)
  else if 'A' ≤ c && c ≤ 'F' then some (c.toNat - 'A'.toNat + 10)
  else none

/-- The number that four hexadecimal digits stand for. -/
def hexFour? (a b c d : Char) : Option Nat := do
  let a ← hexValue? a
  let b ← hexValue? b
  let c ← hexValue? c
  let d ← hexValue? d
  some (((a * 16 + b) * 16 + c) * 16 + d)

/-- The characters that stand for themselves or for a control character behind a backslash. -/
def escaped? (c : Char) : Option Char :=
  if c = '"' ∨ c = '\\' ∨ c = '/' then some c
  else if c = 'b' then some (Char.ofNat 8)
  else if c = 'f' then some (Char.ofNat 12)
  else if c = 'n' then some '\n'
  else if c = 'r' then some '\r'
  else if c = 't' then some '\t'
  else none

/-- How many bytes a glyph has. -/
def glyphSize : Glyph → Nat
  | .char c => c.utf8Size
  | .stray run => run.length

/-- Four hexadecimal digits were due and are not there: the text ends within four bytes, or has
something else. -/
def hexBreak (rest : List Glyph) : Break :=
  if (rest.map glyphSize).foldr (· + ·) 0 < 4 then .truncated else .malformed

/-- Whether a number is the first half of a surrogate pair. -/
def isHighHalf (n : Nat) : Bool := 0xD800 ≤ n && n ≤ 0xDBFF

/-- Whether a number is the second half of a surrogate pair. -/
def isLowHalf (n : Nat) : Bool := 0xDC00 ≤ n && n ≤ 0xDFFF

/-- The character of a surrogate pair. -/
def joinHalves (high low : Nat) : Char :=
  Char.ofNat (0x10000 + (high - 0xD800) * 1024 + (low - 0xDC00))

/-- What stands behind the first half of a surrogate pair. -/
inductive PairRest where
  | low (n : Nat) (spelling rest : List Glyph)
  | broken (b : Break)
  | other

/-- The second half of a surrogate pair, if it follows. -/
def pairRest : List Glyph → PairRest
  | [] => .broken .truncated
  | [.char '\\'] => .broken .truncated
  | .char '\\' :: .char 'u' :: rest =>
    match rest with
    | .char a :: .char b :: .char c :: .char d :: rest' =>
      match hexFour? a b c d with
      | some n =>
        if isLowHalf n then
          .low n [.char '\\', .char 'u', .char a, .char b, .char c, .char d] rest'
        else .other
      | none => .other
    | _ => if hexBreak rest = .truncated then .broken .truncated else .other
  | _ => .other

/-- The string from behind its opening quote on. -/
def scan : (fuel : Nat) → List Glyph → Scan
  | 0, _ => .broken .truncated
  | _, [] => .broken .truncated
  | _, .char '"' :: rest => .closed [.char '"'] (.ok []) rest
  | _, [.char '\\'] => .broken .truncated
  | fuel + 1, .char '\\' :: .char 'u' :: rest =>
    match rest with
    | .char a :: .char b :: .char c :: .char d :: rest' =>
      match hexFour? a b c d with
      | none => .broken .malformed
      | some n =>
        let spelling := [.char '\\', .char 'u', .char a, .char b, .char c, .char d]
        if isLowHalf n then (scan fuel rest').pushHalf spelling
        else if isHighHalf n then
          match pairRest rest' with
          | .low m more rest'' => (scan fuel rest'').push (spelling ++ more) (joinHalves n m)
          | .broken b => .broken b
          | .other => (scan fuel rest').pushHalf spelling
        else (scan fuel rest').push spelling (Char.ofNat n)
    | _ => .broken (hexBreak rest)
  | fuel + 1, .char '\\' :: .char c :: rest =>
    match escaped? c with
    | some d => (scan fuel rest).push [.char '\\', .char c] d
    | none => .broken .malformed
  | _, .char '\\' :: .stray _ :: _ => .broken .malformed
  | fuel + 1, .char c :: rest =>
    if c.toNat < 32 then .broken .malformed else (scan fuel rest).push [.char c] c
  | fuel + 1, .stray run :: rest => (scan fuel rest).pushStray run

/-! ### Pieces -/

/-- The token in front of a text that does not begin with a blank, and the rest behind it. A broken
token is the last one. -/
def readToken : List Glyph → Token × List Glyph
  | [] => (.broken .truncated, [])
  | .stray _ :: _ => (.broken .malformed, [])
  | .char c :: rest =>
    let word (letters : String) (token : Token) : Token × List Glyph :=
      match readWord letters.toList rest with
      | .ok rest => (token, rest)
      | .error fault => (.broken ⟨fault, fault⟩, [])
    let numeral (negative : Bool) (input : List Glyph) : Token × List Glyph :=
      match readNumeral negative input with
      | .ok (n, rest) => (.number n, rest)
      | .error b => (.broken b, [])
    if c = '{' then (.openBrace, rest)
    else if c = '}' then (.closeBrace, rest)
    else if c = '[' then (.openBracket, rest)
    else if c = ']' then (.closeBracket, rest)
    else if c = ':' then (.colon, rest)
    else if c = ',' then (.comma, rest)
    else if c = '"' then
      match scan (rest.length + 1) rest with
      | .closed spelling content rest =>
        (.string ⟨.char '"' :: spelling, content.map String.ofList⟩, rest)
      | .broken b => (.broken b, [])
    else if c = 'n' then word "ull" .null
    else if c = 't' then word "rue" (.bool true)
    else if c = 'f' then word "alse" (.bool false)
    else if c = '-' then numeral true rest
    else if Decimal.isDigit c then numeral false (.char c :: rest)
    else (.broken .malformed, [])

/-- The pieces of a text, at most `fuel` of them. -/
def piecesUpTo : (fuel : Nat) → List Glyph → List Piece
  | 0, _ => []
  | fuel + 1, input =>
    let blank := input.takeWhile isBlank
    match input.dropWhile isBlank with
    | [] => []
    | body =>
      let (token, rest) := readToken body
      ⟨blank, token⟩ :: piecesUpTo fuel rest

/-- The pieces of a text. Each has at least one glyph, so there are no more of them than glyphs. -/
def pieces (input : List Glyph) : List Piece :=
  piecesUpTo input.length input

/-! ### Numbers and their values -/

/-- The product of the significand with a power of ten, computed on binary64 numbers: one rounding
for the significand and one for each power. Steps of `10 ^ 308` are taken while the exponent is
beyond the powers that are numbers themselves. A result beyond the range is refused. -/
def scaleUp : (fuel : Nat) → Binary64 → Int → Except Fault Binary64
  | 0, x, _ => .ok x
  | fuel + 1, x, exponent =>
    if exponent.natAbs ≤ 308 then
      let power := Decimal.nearest false 1 exponent.natAbs
      if 0 ≤ exponent then
        let y := x * power
        if y.isFinite then .ok y else .error .malformed
      else .ok (x / power)
    else if x.isZero then .ok x
    else if 0 ≤ exponent then .error .malformed
    else scaleUp fuel (x / Decimal.nearest false 1 308) (exponent + 308)

/-- Digits joined to a significand as long as it fits sixty-four bits; the count of those left over.
-/
def takeSignificand (significand : Nat) : List Char → Nat × List Char
  | [] => (significand, [])
  | c :: cs =>
    let next := significand * 10 + Decimal.digitValue c
    if greatestUnsigned < next then (significand, c :: cs) else takeSignificand next cs

/-- The largest exponent that is kept. -/
def greatestExponent : Nat := 2147483647

/-- A magnitude with point or exponent, or too long for an integer. -/
def Numeral.magnitude (n : Numeral) : Except Fault Binary64 :=
  let (significand, leftOver) := takeSignificand 0 n.whole
  let (significand, places) :=
    if leftOver.isEmpty then
      let fraction := n.fraction.getD []
      let (significand', unused) := takeSignificand significand fraction
      (significand', -((fraction.length - unused.length : Nat) : Int))
    else
      let fraction := n.fraction.getD []
      let (significand', unused) := takeSignificand significand fraction
      (significand', (leftOver.length : Int) - ((fraction.length - unused.length : Nat) : Int))
  match n.exponent with
  | none => scaleUp 8 (.ofNat significand) places
  | some (_, sign, digits) =>
    let e := Decimal.value digits
    if greatestExponent < e then
      if significand ≠ 0 ∧ sign ≠ some '-' then .error .malformed else .ok (.zero false)
    else scaleUp 8 (.ofNat significand) (if sign = some '-' then places - e else places + e)

/-- The value of a numeral: an integer of sixty-four bits if it is spelled as one and fits, else a
binary64 number. Minus zero is a binary64 number. -/
def Numeral.value (n : Numeral) : Except Fault Number :=
  let m := Decimal.value n.whole
  if n.fraction.isNone && n.exponent.isNone &&
      (if n.negative then 0 < m && leastSigned ≤ -(m : Int) else m ≤ greatestUnsigned) then
    .ok (.integer (if n.negative then -(m : Int) else m))
  else n.magnitude.map fun x ↦ .float (if n.negative then -x else x)

end SearchClient.Json

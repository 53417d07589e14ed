import SearchClient.Json.Tree
import Mathlib.Data.Rat.Defs
import Mathlib.Algebra.Field.Rat

/-!
# What a JSON text is and what it says

A grammar of JSON that knows nothing of readers. A document as written (`Written`) keeps the
spelling of its numbers and strings; a text of it has the document's tokens one after another and
blanks around them (`Spaced`). What it says (`Written.exact`) has numbers as exact fractions and the
members of an object in the order of their names, each name once, so neither spelling nor order
makes a difference (`Denotes`).

Line breaks may be put wherever there may be blanks (`Loosened`).
-/

set_option autoImplicit false
set_option relaxedAutoImplicit false

namespace SearchClient.Json

open Text

/-! ### Strings -/

/-- How a character may stand inside a string. -/
inductive Spells : List Char → Char → Prop where
  | itself {c : Char} (printable : 32 ≤ c.toNat) (quote : c ≠ '"') (backslash : c ≠ '\\') :
    Spells [c] c
  | short {mark c : Char} (escaped : escaped? mark = some c) : Spells ['\\', mark] c
  | code {a b c d : Char} {n : Nat} (hex : hexFour? a b c d = some n)
    (low : isLowHalf n = false) (high : isHighHalf n = false) :
    Spells ['\\', 'u', a, b, c, d] (Char.ofNat n)
  | pair {a b c d a' b' c' d' : Char} {high low : Nat} (hex : hexFour? a b c d = some high)
    (isHigh : isHighHalf high = true) (hex' : hexFour? a' b' c' d' = some low)
    (isLow : isLowHalf low = true) :
    Spells ['\\', 'u', a, b, c, d, '\\', 'u', a', b', c', d'] (joinHalves high low)

/-- A character with one of its spellings. -/
structure SpelledChar where
  spelling : List Char
  char : Char
  spells : Spells spelling char

/-- The inside of a string, each character with its spelling. -/
abbrev SpelledString := List SpelledChar

def SpelledString.text (s : SpelledString) : String := String.ofList (s.map SpelledChar.char)

def SpelledString.spelling (s : SpelledString) : List Char :=
  '"' :: (s.flatMap SpelledChar.spelling ++ ['"'])

/-- The string in quotes, and what it says. -/
def SpelledString.quoted (s : SpelledString) : Quoted := ⟨s.spelling.map .char, .ok s.text⟩

/-! ### Numbers -/

/-- One digit or more. -/
structure IsRow (digits : List Char) : Prop where
  ne_nil : digits ≠ []
  isDigit : ∀ c ∈ digits, Decimal.isDigit c = true

/-- A number of JSON: no zero leads other digits, and point and exponent have digits behind them. -/
structure Numeral.WellFormed (n : Numeral) : Prop where
  whole : IsRow n.whole
  lead : ∀ rest, n.whole = '0' :: rest → rest = []
  fraction : ∀ digits, n.fraction = some digits → IsRow digits
  exponent : ∀ mark sign digits, n.exponent = some (mark, sign, digits) →
    (mark = 'e' ∨ mark = 'E') ∧ (∀ c, sign = some c → c = '+' ∨ c = '-') ∧ IsRow digits

/-- The power of ten behind the mark. -/
def Numeral.shift (n : Numeral) : Int :=
  match n.exponent with
  | none => 0
  | some (_, sign, digits) =>
    if sign = some '-' then -(Decimal.value digits : Int) else Decimal.value digits

/-- The fraction that a numeral stands for, exactly. -/
def Numeral.rational (n : Numeral) : ℚ :=
  let fraction := n.fraction.getD []
  let magnitude : ℚ :=
    Decimal.value (n.whole ++ fraction) * 10 ^ (n.shift - (fraction.length : Int))
  if n.negative then -magnitude else magnitude

/-! ### Documents -/

/-- A document as written. -/
inductive Written where
  | null
  | bool (b : Bool)
  | number (n : Numeral) (wellFormed : n.WellFormed)
  | string (s : SpelledString)
  | array (items : List Written)
  | object (members : List (SpelledString × Written))

/-- A document with exact numbers. -/
inductive Exact where
  | null
  | bool (b : Bool)
  | number (q : ℚ)
  | string (s : String)
  | array (items : List Exact)
  | object (members : List (String × Exact))

mutual

/-- The tokens of a document, in order. -/
def Written.tokens : Written → List Token
  | .null => [.null]
  | .bool b => [.bool b]
  | .number n _ => [.number n]
  | .string s => [.string s.quoted]
  | .array items => .openBracket :: (itemTokens items ++ [.closeBracket])
  | .object members => .openBrace :: (memberTokens members ++ [.closeBrace])

/-- The tokens of items with commas between them. -/
def itemTokens : List Written → List Token
  | [] => []
  | [w] => w.tokens
  | w :: next :: items => w.tokens ++ .comma :: itemTokens (next :: items)

/-- The tokens of members with commas between them. -/
def memberTokens : List (SpelledString × Written) → List Token
  | [] => []
  | [(name, w)] => .string name.quoted :: .colon :: w.tokens
  | (name, w) :: next :: members =>
    .string name.quoted :: .colon :: (w.tokens ++ .comma :: memberTokens (next :: members))

end

mutual

/-- What a document says, with its numbers taken in some way. Of two members with one name the later
counts. -/
def Written.meaning (number : Numeral → Exact) : Written → Exact
  | .null => .null
  | .bool b => .bool b
  | .number n _ => number n
  | .string s => .string s.text
  | .array items => .array (itemMeanings number items)
  | .object members => .object (sortMembers (memberMeanings number members))

/-- What items say. -/
def itemMeanings (number : Numeral → Exact) : List Written → List Exact
  | [] => []
  | w :: items => w.meaning number :: itemMeanings number items

/-- What members say. -/
def memberMeanings (number : Numeral → Exact) :
    List (SpelledString × Written) → List (String × Exact)
  | [] => []
  | (name, w) :: members => (name.text, w.meaning number) :: memberMeanings number members

end

/-- What a document says. -/
def Written.exact (w : Written) : Exact := w.meaning fun n ↦ .number n.rational

mutual

/-- How many containers stand one inside the other. -/
def Written.depth : Written → Nat
  | .array items => itemsHeight items + 1
  | .object members => membersHeight members + 1
  | _ => 0

/-- The greatest depth of an item. -/
def itemsHeight : List Written → Nat
  | [] => 0
  | w :: items => max w.depth (itemsHeight items)

/-- The greatest depth of a member. -/
def membersHeight : List (SpelledString × Written) → Nat
  | [] => 0
  | (_, w) :: members => max w.depth (membersHeight members)

end

mutual

/-- The numbers of a document, in order. -/
def Written.numerals : Written → List Numeral
  | .number n _ => [n]
  | .array items => itemNumerals items
  | .object members => memberNumerals members
  | _ => []

/-- The numbers of items. -/
def itemNumerals : List Written → List Numeral
  | [] => []
  | w :: items => w.numerals ++ itemNumerals items

/-- The numbers of members. -/
def memberNumerals : List (SpelledString × Written) → List Numeral
  | [] => []
  | (_, w) :: members => w.numerals ++ memberNumerals members

end

/-! ### Texts -/

/-- Nothing but blanks. -/
def IsGap (cs : List Char) : Prop := ∀ c ∈ cs, isBlank (.char c) = true

/-- A text of tokens one after another, with blanks around them. -/
inductive Spaced : List Token → List Char → Prop where
  | done {gap : List Char} (blank : IsGap gap) : Spaced [] gap
  | token {token : Token} {tokens : List Token} {gap spelling rest : List Char}
    (blank : IsGap gap) (spelled : token.spelling = spelling.map .char)
    (more : Spaced tokens rest) : Spaced (token :: tokens) (gap ++ (spelling ++ rest))

/-- A text is JSON and says this. -/
def Denotes (text : String) (d : Exact) : Prop :=
  ∃ w : Written, Spaced w.tokens text.toList ∧ w.exact = d

def isLineBreak (c : Char) : Bool := c == '\n' || c == '\r'

/-- A text of tokens, and the same text with line breaks put between them, in front of them or
behind them: without its line breaks each gap of the second is the gap of the first. -/
inductive Loosened : List Token → List Char → List Char → Prop where
  | done {gap gap' : List Char} (blank : IsGap gap) (blank' : IsGap gap')
    (broken : gap'.filter (!isLineBreak ·) = gap) : Loosened [] gap gap'
  | token {token : Token} {tokens : List Token} {gap gap' spelling rest rest' : List Char}
    (blank : IsGap gap) (blank' : IsGap gap') (broken : gap'.filter (!isLineBreak ·) = gap)
    (spelled : token.spelling = spelling.map .char) (more : Loosened tokens rest rest') :
    Loosened (token :: tokens) (gap ++ (spelling ++ rest)) (gap' ++ (spelling ++ rest'))

variable {tokens : List Token} {text text' : List Char}

theorem Loosened.spaced (h : Loosened tokens text text') : Spaced tokens text := by
  induction h with
  | done blank _ _ => exact .done blank
  | token blank _ _ spelled _ ih => exact .token blank spelled ih

theorem Loosened.spaced_broken (h : Loosened tokens text text') : Spaced tokens text' := by
  induction h with
  | done _ blank' _ => exact .done blank'
  | token _ blank' _ spelled _ ih => exact .token blank' spelled ih

end SearchClient.Json

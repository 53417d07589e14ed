import SearchClient.Text.Percent
import SearchClient.Text.Split

/-!
# Form encoding

Pairs of keys and values as one text: an equals sign inside a pair, ampersands between pairs, a plus
sign for a blank, and all else but letters, digits and four marks as percent-encoded bytes.
-/

set_option autoImplicit false
set_option relaxedAutoImplicit false

namespace SearchClient.Text.Form

/-- Letters, digits and the four marks that stand for themselves. -/
def plain (c : Char) : Bool :=
  c.isAlphanum || c == '*' || c == '-' || c == '.' || c == '_'

/-- A key or a value as it is written. -/
def encodeText (s : String) : List Char :=
  s.toList.flatMap fun c ↦
    if c = ' ' then ['+'] else Percent.encodeChar (fun c ↦ !plain c) c

/-- A pair as it is written. -/
def encodePair (pair : String × String) : List Char :=
  encodeText pair.1 ++ '=' :: encodeText pair.2

/-- Pairs as they are written. -/
def encode (pairs : List (String × String)) : List Char :=
  join ['&'] (pairs.map encodePair)

/-- A written key or value. Bytes that are no text are replaced. -/
def decodeText (cs : List Char) : String :=
  Utf8.lossy (Percent.decode (cs.map fun c ↦ if c = '+' then ' ' else c))

/-- A written pair. Without an equals sign the value is empty. -/
def decodePair (cs : List Char) : String × String :=
  match splitFirst '=' cs with
  | some (key, value) => (decodeText key, decodeText value)
  | none => (decodeText cs, "")

/-- The pairs that are written in a text; empty places count for nothing. -/
def decode (cs : List Char) : List (String × String) :=
  ((split '&' cs).filter (· ≠ [])).map decodePair

end SearchClient.Text.Form

/-!
# Bytes as text

A body arrives as bytes. Read as UTF-8 it is a list of glyphs: characters, and between them runs of
bytes that belong to no character. Each such run is the longest beginning of a character that the
bytes offer, so a lossy reading writes one replacement character for each (`lossy`), and a strict
one refuses the body (`text?`).
-/

set_option autoImplicit false
set_option relaxedAutoImplicit false

namespace SearchClient.Text

/-- The contents of a message, byte by byte. -/
abbrev Bytes := List UInt8

/-- One unit of a body read as UTF-8. -/
inductive Glyph where
  | char (c : Char)
  | stray (run : Bytes)
  deriving DecidableEq, Repr, Inhabited

namespace Utf8

/-- A character that has begun: how many bytes are missing, the range of the next one, the bits so
far, and the bytes so far. -/
structure Pending where
  missing : Nat
  low : UInt8 := 0x80
  high : UInt8 := 0xBF
  bits : Nat
  seen : Bytes
  deriving Repr

/-- What a byte at the beginning of a unit is: a whole character, the beginning of one, or neither.
-/
inductive Lead where
  | char (c : Char)
  | pending (p : Pending)
  | stray

/-- The first byte of a character fixes its length and, where shorter or forbidden forms have to be
kept out, the range of the second byte. -/
def lead (b : UInt8) : Lead :=
  if b < 0x80 then .char (Char.ofNat b.toNat)
  else if b < 0xC2 then .stray
  else if b < 0xE0 then .pending { missing := 1, bits := b.toNat - 0xC0, seen := [b] }
  else if b < 0xF0 then
    .pending { missing := 2, low := if b = 0xE0 then 0xA0 else 0x80,
               high := if b = 0xED then 0x9F else 0xBF, bits := b.toNat - 0xE0, seen := [b] }
  else if b < 0xF5 then
    .pending { missing := 3, low := if b = 0xF0 then 0x90 else 0x80,
               high := if b = 0xF4 then 0x8F else 0xBF, bits := b.toNat - 0xF0, seen := [b] }
  else .stray

mutual

/-- Reading goes on at the beginning of a unit. -/
def decode : Bytes → List Glyph
  | [] => []
  | b :: rest =>
    match lead b with
    | .char c => .char c :: decode rest
    | .pending p => decodeFrom p rest
    | .stray => .stray [b] :: decode rest

/-- Reading goes on inside a character. A byte that does not continue it begins a new unit. -/
def decodeFrom (p : Pending) : Bytes → List Glyph
  | [] => [.stray p.seen]
  | b :: rest =>
    if p.low ≤ b && b ≤ p.high then
      let bits := p.bits * 64 + (b.toNat - 0x80)
      match p.missing with
      | 0 | 1 => .char (Char.ofNat bits) :: decode rest
      | missing + 1 =>
        decodeFrom { missing := missing, bits := bits, seen := p.seen ++ [b] } rest
    else
      .stray p.seen ::
        match lead b with
        | .char c => .char c :: decode rest
        | .pending q => decodeFrom q rest
        | .stray => .stray [b] :: decode rest

end

/-- The bytes of a text. -/
def encode (s : String) : Bytes :=
  s.toUTF8.data.toList

/-- The characters, if all bytes belong to characters. -/
def chars? (glyphs : List Glyph) : Option (List Char) :=
  glyphs.mapM fun
    | .char c => some c
    | .stray _ => none

/-- The text, if the bytes are UTF-8. -/
def text? (bytes : Bytes) : Option String :=
  (chars? (decode bytes)).map String.ofList

/-- The text with one replacement character for each run of bytes that is no character. -/
def lossy (bytes : Bytes) : String :=
  String.ofList <| (decode bytes).map fun
    | .char c => c
    | .stray _ => Char.ofNat 0xFFFD

/-- The glyphs of a text are its characters. -/
def glyphs (s : String) : List Glyph :=
  s.toList.map .char

end Utf8

end SearchClient.Text

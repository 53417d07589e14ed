import SearchClient.Display.Ranges

/-!
# How wide a text is

The width of a text is the sum of the widths of its characters, but for emoji: a selector makes two
cells of one, and an emoji that is joined to the one before it, or that only gives it its colour,
fills none.
-/

set_option autoImplicit false
set_option relaxedAutoImplicit false

namespace SearchClient.Display

/-- The cells that a character fills when it stands alone. -/
def charWidth (c : Char) : Nat :=
  if c.toNat < 0xA0 then 1
  else if isIn empty c then 0
  else if isIn wide c then 2
  else 1

/-- The character that joins two emoji into one. -/
def joiner : Char := '\u200d'

/-- The selector that asks for an emoji. -/
def emojiSelector : Char := '\ufe0f'

/-- Whether a character is a colour of skin. -/
def isSkin (c : Char) : Bool := 0x1F3FB ≤ c.toNat && c.toNat ≤ 0x1F3FF

/-- Whether a character is an emoji, at least when a selector asks for it. -/
def isEmoji (c : Char) : Bool :=
  isIn emojiOnDemand c ||
    (isIn wide c &&
      ((0x231A ≤ c.toNat && c.toNat ≤ 0x2B55) || 0x1F000 ≤ c.toNat && c.toNat < 0x20000))

/-- What stands before a character: nothing that counts, an emoji with the cells that it fills, or
an emoji with a joiner. -/
inductive Before where
  | other
  | emoji (cells : Nat)
  | joined
  deriving DecidableEq, Repr, Inhabited

/-- What a character adds to the width of what stands before it, and what then stands before the
next one. -/
def step (before : Before) (c : Char) : Nat × Before :=
  let alone := (charWidth c, if isEmoji c then Before.emoji (charWidth c) else .other)
  match before with
  | .emoji cells =>
    if c = emojiSelector ∨ isSkin c then (2 - cells, .emoji 2)
    else if c = joiner then (0, .joined)
    else alone
  | .joined => if isEmoji c then (0, .emoji 2) else alone
  | .other => alone

/-- The width of characters behind others. -/
def widthFrom (before : Before) : List Char → Nat
  | [] => 0
  | c :: cs =>
    let (added, before) := step before c
    added + widthFrom before cs

/-- The number of cells that a text fills. -/
def width (text : String) : Nat := widthFrom .other text.toList

end SearchClient.Display

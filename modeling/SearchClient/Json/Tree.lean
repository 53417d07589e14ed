import SearchClient.Json.Printer
import SearchClient.Json.Token

/-!
# The tree of a JSON text

A text is read into a tree as far as it is JSON; where it stops being JSON the tree has a broken
place and nothing after it. Whoever wants something from the text walks the tree in the order of the
text and gives the first fault on the way: a place of the wrong shape before the broken one, or the
broken one. So one tree serves readers that want any document (`Tree.toJson`), readers that want
records of a given shape, and readers that only pass over a value (`Tree.skip`).

Pieces are taken one at a time by a machine with a stack of open containers (`step`).
-/

set_option autoImplicit false
set_option relaxedAutoImplicit false

namespace SearchClient.Json

open Text

/-- How a container ends: with its closing bracket, or where the text breaks. -/
inductive Ending where
  | closed
  | broken (b : Break)
  deriving DecidableEq, Repr, Inhabited

/-- A JSON text as far as it is JSON. Numbers and containers keep their spelling. -/
inductive Tree where
  | null
  | bool (b : Bool)
  | number (spelling : List Char) (value : Except Fault Number)
  | string (s : Quoted)
  | array (spelling : List Glyph) (items : List Tree) (ending : Ending)
  | object (spelling : List Glyph) (members : List (Quoted × Tree)) (ending : Ending)
  | broken (b : Break)
  deriving Repr, Inhabited

/-- A text read as one value: the tree, and whether anything but blanks follows it. -/
structure Source where
  root : Tree
  trailing : Bool
  deriving Repr, Inhabited

/-! ### The machine -/

/-- An open container: its spelling so far, reversed, and what it holds, the newest first. -/
inductive Frame where
  | array (spelling : List Glyph) (items : List Tree)
  | object (spelling : List Glyph) (members : List (Quoted × Tree))

/-- What may come next. -/
inductive Phase where
  | value
  | valueOrClose
  | key
  | keyOrClose
  | colon (key : Quoted)
  | memberValue (key : Quoted)
  | separator

/-- A reading of pieces: under way inside open containers, complete, or decided. -/
inductive Reading where
  | underWay (stack : List Frame) (phase : Phase)
  | complete (root : Tree)
  | decided (source : Source)

/-- The spelling of the innermost open container goes on. -/
def extend (spelling : List Glyph) : List Frame → List Frame
  | [] => []
  | .array s items :: stack => .array (spelling.reverse ++ s) items :: stack
  | .object s members :: stack => .object (spelling.reverse ++ s) members :: stack

/-- A container as a tree. -/
def Frame.close (ending : Ending) : Frame → Tree
  | .array s items => .array s.reverse items.reverse ending
  | .object s members => .object s.reverse members.reverse ending

/-- The spelling of a container that has been opened, reversed. -/
def Frame.spelling : Frame → List Glyph
  | .array s _ => s
  | .object s _ => s

/-- A value is put where it was awaited. -/
def deliver (phase : Phase) (t : Tree) : List Frame → Reading
  | [] => .complete t
  | .array s items :: stack => .underWay (.array s (t :: items) :: stack) .separator
  | .object s members :: stack =>
    match phase with
    | .memberValue key => .underWay (.object s ((key, t) :: members) :: stack) .separator
    | _ => .underWay (.object s members :: stack) .separator

/-- The innermost container is closed and becomes a value of the next one. Which member of an object
it is has been kept as the first, still empty, of the members. -/
def closeTop (stack : List Frame) : Reading :=
  match stack with
  | [] => .decided ⟨.broken .malformed, false⟩
  | top :: below =>
    let t := top.close .closed
    match below with
    | [] => .complete t
    | .array s items :: stack =>
      .underWay (.array (top.spelling ++ s) (t :: items) :: stack) .separator
    | .object s ((key, _) :: members) :: stack =>
      .underWay (.object (top.spelling ++ s) ((key, t) :: members) :: stack) .separator
    | .object s [] :: stack => .underWay (.object (top.spelling ++ s) [] :: stack) .separator

/-- A tree that is broken somewhere, with the containers around it left open there. -/
def unwind (b : Break) (t : Tree) : List Frame → Tree
  | [] => t
  | .array s items :: stack => unwind b (.array s.reverse (t :: items).reverse (.broken b)) stack
  | .object s ((key, _) :: members) :: stack =>
    unwind b (.object s.reverse ((key, t) :: members).reverse (.broken b)) stack
  | .object s [] :: stack => unwind b (.object s.reverse [] (.broken b)) stack

/-- The text breaks. -/
def breakOff (b : Break) (stack : List Frame) (phase : Phase) : Source :=
  match phase, stack with
  | .value, _ | .valueOrClose, _ => ⟨unwind b (.broken b) stack, false⟩
  | .colon key, .object s members :: stack | .memberValue key, .object s members :: stack =>
    ⟨unwind b (Frame.close (.broken b) (.object s ((key, .broken b) :: members))) stack, false⟩
  | _, top :: stack => ⟨unwind b (top.close (.broken b)) stack, false⟩
  | _, [] => ⟨.broken b, false⟩

/-- A container is opened where a value was awaited. In an object its member is entered at once. -/
def openFrame (phase : Phase) (frame : Frame) (next : Phase) (stack : List Frame) : Reading :=
  match phase, stack with
  | .memberValue key, .object s members :: stack =>
    .underWay (frame :: .object s ((key, .null) :: members) :: stack) next
  | _, _ => .underWay (frame :: stack) next

/-- A token where a value is awaited. -/
def takeValue (p : Piece) (stack : List Frame) (phase : Phase) : Reading :=
  match p.token with
  | .null => deliver phase .null (extend (p.blank ++ p.spelling) stack)
  | .bool b => deliver phase (.bool b) (extend (p.blank ++ p.spelling) stack)
  | .number n => deliver phase (.number n.spelling n.value) (extend (p.blank ++ p.spelling) stack)
  | .string s => deliver phase (.string s) (extend (p.blank ++ p.spelling) stack)
  | .openBracket =>
    openFrame phase (.array p.spelling.reverse []) .valueOrClose (extend p.blank stack)
  | .openBrace =>
    openFrame phase (.object p.spelling.reverse []) .keyOrClose (extend p.blank stack)
  | .broken b => .decided (breakOff b stack phase)
  | _ => .decided (breakOff .malformed stack phase)

/-- The fault of a token that may not stand where it does. -/
def unexpected : Token → Break
  | .broken b => b
  | _ => .malformed

/-- A token behind a value inside a container. -/
def takeSeparator (p : Piece) (stack : List Frame) : Reading :=
  let extended := extend (p.blank ++ p.spelling) stack
  match p.token, extended with
  | .comma, .array .. :: _ => .underWay extended .value
  | .comma, .object .. :: _ => .underWay extended .key
  | .closeBracket, .array .. :: _ => closeTop extended
  | .closeBrace, .object .. :: _ => closeTop extended
  | _, _ => .decided (breakOff .malformed stack .separator)

/-- One piece is taken. -/
def step : Reading → Piece → Reading
  | .complete root, _ => .decided ⟨root, true⟩
  | .decided source, _ => .decided source
  | .underWay stack phase, p =>
    let extended := extend (p.blank ++ p.spelling) stack
    match phase with
    | .value | .memberValue _ => takeValue p stack phase
    | .valueOrClose =>
      match p.token with
      | .closeBracket => closeTop extended
      | _ => takeValue p stack phase
    | .key =>
      match p.token with
      | .string key => .underWay extended (.colon key)
      | t => .decided (breakOff (unexpected t) stack phase)
    | .keyOrClose =>
      match p.token with
      | .string key => .underWay extended (.colon key)
      | .closeBrace => closeTop extended
      | t => .decided (breakOff (unexpected t) stack phase)
    | .colon key =>
      match p.token with
      | .colon => .underWay extended (.memberValue key)
      | _ => .decided (breakOff .malformed stack phase)
    | .separator => takeSeparator p stack

/-- The text has ended. -/
def Reading.finish : Reading → Source
  | .complete root => ⟨root, false⟩
  | .decided source => source
  | .underWay stack phase => breakOff .truncated stack phase

/-- The tree of a text. -/
def Source.ofGlyphs (input : List Glyph) : Source :=
  ((pieces input).foldl step (.underWay [] .value)).finish

/-- The tree of a string. -/
def Source.ofString (s : String) : Source := .ofGlyphs (Utf8.glyphs s)

/-- The tree of a body. -/
def Source.ofBytes (bytes : Bytes) : Source := .ofGlyphs (Utf8.decode bytes)

/-! ### Walks -/

/-- How many containers a reader may enter one inside the other. -/
def depthLimit : Nat := 127

/-- The fault at the end of a container. -/
def Ending.check : Ending → Except Fault Unit
  | .closed => .ok ()
  | .broken b => .error b.read

mutual

/-- The document of a tree, entering at most `room` containers. -/
def Tree.toJson (room : Nat) : Tree → Except Fault Json
  | .null => .ok .null
  | .bool b => .ok (.bool b)
  | .number _ value => value.map .number
  | .string s => s.content.map .string
  | .array _ items ending =>
    match room with
    | 0 => .error .malformed
    | room + 1 => do
      let items ← itemsToJson room items
      ending.check
      .ok (.array items)
  | .object _ members ending =>
    match room with
    | 0 => .error .malformed
    | room + 1 => do
      let members ← membersToJson room members
      ending.check
      .ok (ofMembers members)
  | .broken b => .error b.read

/-- The documents of the items of an array. -/
def itemsToJson (room : Nat) : List Tree → Except Fault (List Json)
  | [] => .ok []
  | t :: rest => do
    let item ← t.toJson room
    let items ← itemsToJson room rest
    .ok (item :: items)

/-- The documents of the members of an object. -/
def membersToJson (room : Nat) : List (Quoted × Tree) → Except Fault (List (String × Json))
  | [] => .ok []
  | (key, t) :: rest => do
    let name ← key.content
    let value ← t.toJson room
    let members ← membersToJson room rest
    .ok ((name, value) :: members)

end

mutual

/-- The fault that one who only passes over a tree meets. -/
def Tree.skip : Tree → Except Fault Unit
  | .array _ items ending => do
    skipItems items
    match ending with
    | .closed => .ok ()
    | .broken b => .error b.skipped
  | .object _ members ending => do
    skipMembers members
    match ending with
    | .closed => .ok ()
    | .broken b => .error b.skipped
  | .broken b => .error b.skipped
  | _ => .ok ()

/-- Passing over the items of an array. -/
def skipItems : List Tree → Except Fault Unit
  | [] => .ok ()
  | t :: rest => do
    t.skip
    skipItems rest

/-- Passing over the members of an object. -/
def skipMembers : List (Quoted × Tree) → Except Fault Unit
  | [] => .ok ()
  | (_, t) :: rest => do
    t.skip
    skipMembers rest

end

/-- The spelling of a value. -/
def Tree.spelling : Tree → List Glyph
  | .null => Utf8.glyphs "null"
  | .bool true => Utf8.glyphs "true"
  | .bool false => Utf8.glyphs "false"
  | .number spelling _ => spelling.map .char
  | .string s => s.spelling
  | .array spelling .. => spelling
  | .object spelling .. => spelling
  | .broken _ => []

/-- The spelling of a value one has passed over, if it is text. -/
def Tree.raw (t : Tree) : Except Fault String := do
  t.skip
  match Utf8.chars? t.spelling with
  | some cs => .ok (String.ofList cs)
  | none => .error .malformed

mutual

/-- The tree of a document's own text. -/
def toTree : Json → Tree
  | .null => .null
  | .bool b => .bool b
  | .number n => .number n.text (.ok n)
  | .string s => .string ⟨(quote s.toList).map .char, .ok s⟩
  | .array items => .array ((chars (.array items)).map .char) (itemTrees items) .closed
  | .object members => .object ((chars (.object members)).map .char) (memberTrees members) .closed

/-- The trees of the items of an array. -/
def itemTrees : List Json → List Tree
  | [] => []
  | item :: items => item.toTree :: itemTrees items

/-- The trees of the members of an object. -/
def memberTrees : List (String × Json) → List (Quoted × Tree)
  | [] => []
  | (name, value) :: members =>
    (⟨(quote name.toList).map .char, .ok name⟩, value.toTree) :: memberTrees members

end

mutual

/-- How many containers stand one inside the other. -/
def depth : Json → Nat
  | .array items => itemsDepth items + 1
  | .object members => membersDepth members + 1
  | _ => 0

/-- The greatest depth of an item. -/
def itemsDepth : List Json → Nat
  | [] => 0
  | item :: items => max item.depth (itemsDepth items)

/-- The greatest depth of a member. -/
def membersDepth : List (String × Json) → Nat
  | [] => 0
  | (_, value) :: members => max value.depth (membersDepth members)

end

/-- What a reader makes of a text: nothing may follow the value it read. -/
def Source.read {α : Type} (source : Source) (reader : Tree → Except Fault α) : Except Fault α := do
  let value ← reader source.root
  if source.trailing then .error .malformed else .ok value

/-- The document of a text. -/
def ofSource (source : Source) : Except Fault Json :=
  source.read (Tree.toJson depthLimit)

/-- The document of a string. -/
def parse (s : String) : Except Fault Json := ofSource (.ofString s)

/-- The document of a body. -/
def parseBytes (bytes : Bytes) : Except Fault Json := ofSource (.ofBytes bytes)

end SearchClient.Json

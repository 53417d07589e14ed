import SearchClient.Calendar.Moment
import SearchClient.Json.Printer

/-!
# Answers as documents

What a reader makes of an answer: records with their members in a fixed order, lists, plain
documents, moments, and sources that are kept as they were spelled.
-/

set_option autoImplicit false
set_option relaxedAutoImplicit false

namespace SearchClient

/-- An answer that has been read. -/
inductive Document where
  | json (value : Json)
  | source (spelling : String)
  | moment (form : Moment.Form) (m : Moment)
  | list (items : List Document)
  | record (members : List (String × Document))
  deriving Repr, Inhabited

namespace Document

/-- No value. -/
def null : Document := .json .null

def isNull : Document → Bool
  | .json .null => true
  | _ => false

/-- A list or record without anything in it. -/
def isEmpty : Document → Bool
  | .list [] => true
  | .record [] => true
  | _ => false

mutual

/-- The text of a document, without blanks of its own. -/
def chars : Document → List Char
  | .json value => value.chars
  | .source spelling => spelling.toList
  | .moment form m => (m.toJson form).chars
  | .list items => '[' :: (itemChars items ++ [']'])
  | .record members => '{' :: (memberChars members ++ ['}'])

/-- Items with commas between them. -/
def itemChars : List Document → List Char
  | [] => []
  | [item] => chars item
  | item :: next :: items => chars item ++ ',' :: itemChars (next :: items)

/-- Members with commas between them. -/
def memberChars : List (String × Document) → List Char
  | [] => []
  | [(name, value)] => Json.quote name.toList ++ ':' :: chars value
  | (name, value) :: next :: members =>
    Json.quote name.toList ++ ':' :: (chars value ++ ',' :: memberChars (next :: members))

end

/-- The text of a document. -/
def text (d : Document) : String := String.ofList d.chars

mutual

/-- A document without kept sources as a plain one. -/
def toJson : Document → Json
  | .json value => value
  | .source spelling => .string spelling
  | .moment form m => m.toJson form
  | .list items => .array (itemsToJson items)
  | .record members => .object (membersToJson members)

/-- Items as plain documents. -/
def itemsToJson : List Document → List Json
  | [] => []
  | item :: items => item.toJson :: itemsToJson items

/-- Members as plain documents. -/
def membersToJson : List (String × Document) → List (String × Json)
  | [] => []
  | (name, value) :: members => (name, value.toJson) :: membersToJson members

end

/-! ### Looking inside -/

/-- The member of a name, if there is one that is not null. -/
def get? (name : String) : Document → Option Document
  | .record members =>
    match members.find? (·.1 == name) with
    | some (_, value) => if value.isNull then none else some value
    | none => none
  | .json (.object members) =>
    match members.find? (·.1 == name) with
    | some (_, .null) => none
    | some (_, value) => some (.json value)
    | none => none
  | _ => none

/-- The items of a list. -/
def items : Document → List Document
  | .list items => items
  | .json (.array items) => items.map .json
  | _ => []

/-- The members of a record. -/
def members : Document → List (String × Document)
  | .record members => members
  | .json (.object members) => members.map fun (name, value) ↦ (name, .json value)
  | _ => []

def string? : Document → Option String
  | .json (.string s) => some s
  | _ => none

def moment? : Document → Option Moment
  | .moment _ m => some m
  | _ => none

def integer? : Document → Option Int
  | .json (.number (.integer i)) => some i
  | _ => none

def float? : Document → Option Binary64
  | .json (.number n) => some n.toBinary64
  | _ => none

/-- The text of a member, empty when there is none. -/
def textOf (name : String) (d : Document) : String :=
  ((d.get? name).bind string?).getD ""

/-- The text of a member, or a stand-in. -/
def textOr (name standIn : String) (d : Document) : String :=
  ((d.get? name).bind string?).getD standIn

/-- The number of a member, zero when there is none. -/
def countOf (name : String) (d : Document) : Nat :=
  (((d.get? name).bind integer?).map Int.toNat).getD 0

end Document

end SearchClient

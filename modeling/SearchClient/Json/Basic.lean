import SearchClient.Number.Binary64

/-!
# Documents

A JSON value with integers and binary64 numbers kept apart. The members of an object stand in the
order of their names, each name once, when the object was built by `Json.ofMembers`, which lets a
later member replace an earlier one of its name.
-/

set_option autoImplicit false
set_option relaxedAutoImplicit false

namespace SearchClient

/-- A number of a document. -/
inductive Json.Number where
  | integer (i : Int)
  | float (x : Binary64)
  deriving DecidableEq, Repr, Inhabited

/-- A document. -/
inductive Json where
  | null
  | bool (b : Bool)
  | number (n : Json.Number)
  | string (s : String)
  | array (items : List Json)
  | object (members : List (String × Json))
  deriving Repr, Inhabited, BEq

namespace Json

/-- An integer as a document. -/
def integer (i : Int) : Json := .number (.integer i)

/-- The number nearest to which a number of a document is read. -/
def Number.toBinary64 : Number → Binary64
  | .integer i => .ofInt i
  | .float x => x

/-- A member added in the order of names; one of the same name is replaced. -/
def insertMember {α : Type} (key : String) (value : α) : List (String × α) → List (String × α)
  | [] => [(key, value)]
  | (k, v) :: rest =>
    if key < k then (key, value) :: (k, v) :: rest
    else if key = k then (key, value) :: rest
    else (k, v) :: insertMember key value rest

/-- Members in the order of their names; of two with one name the later stays. -/
def sortMembers {α : Type} (members : List (String × α)) : List (String × α) :=
  members.foldl (fun sorted (k, v) ↦ insertMember k v sorted) []

/-- The object with these members. -/
def ofMembers (members : List (String × Json)) : Json := .object (sortMembers members)

mutual

/-- The document with the members of all its objects in the order of their names. -/
def sorted : Json → Json
  | .array items => .array (sortedItems items)
  | .object members => ofMembers (sortedMembers members)
  | j => j

/-- Items with their members in order. -/
def sortedItems : List Json → List Json
  | [] => []
  | item :: items => item.sorted :: sortedItems items

/-- Members with the members below them in order. -/
def sortedMembers : List (String × Json) → List (String × Json)
  | [] => []
  | (name, value) :: members => (name, value.sorted) :: sortedMembers members

end

/-- The member of a name. -/
def get? (name : String) : Json → Option Json
  | .object members => (members.find? (·.1 == name)).map (·.2)
  | _ => none

/-- A member that is there and not null. -/
def present? (name : String) (j : Json) : Option Json :=
  match j.get? name with
  | some .null => none
  | found => found

def string? : Json → Option String
  | .string s => some s
  | _ => none

def integer? : Json → Option Int
  | .number (.integer i) => some i
  | _ => none

def bool? : Json → Option Bool
  | .bool b => some b
  | _ => none

def array? : Json → Option (List Json)
  | .array items => some items
  | _ => none

def isNull : Json → Bool
  | .null => true
  | _ => false

/-- The text, or null when there is none. -/
def ofOption (s : Option String) : Json :=
  (s.map Json.string).getD .null

end Json

end SearchClient

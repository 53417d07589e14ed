import SearchClient.Calendar.TimeSpan
import SearchClient.Request.Names
import SearchClient.Request.Word

/-!
# Query parameters

A bag of parameters with one text for each key, kept in the order of keys. Values of other kinds
come into the bag as texts.
-/

set_option autoImplicit false
set_option relaxedAutoImplicit false

namespace SearchClient

/-- A value that a parameter can have. -/
inductive Parameter where
  | bool (b : Bool)
  | integer (i : Int)
  | float (x : Binary64)
  | text (s : String)
  | span (t : TimeSpan)
  | names (n : Names)
  | list (items : List Parameter)
  deriving Repr, Inhabited

namespace Parameter

mutual

/-- The text of a value. -/
def render : Parameter → String
  | .bool true => "true"
  | .bool false => "false"
  | .integer i => String.ofList (Decimal.writeInt i)
  | .float x => String.ofList x.plain
  | .text s => s
  | .span t => t.text
  | .names n => n.text
  | .list items => ",".intercalate (renderAll items)

/-- The texts of values. -/
def renderAll : List Parameter → List String
  | [] => []
  | item :: items => item.render :: renderAll items

end

end Parameter

/-- Parameters by key, in the order of keys. -/
structure Query where
  pairs : List (String × String)
  deriving DecidableEq, Repr, Inhabited

namespace Query

def empty : Query := ⟨[]⟩

/-- A parameter is set; an earlier value of its key is replaced. -/
def set (q : Query) (key : String) (value : Parameter) : Query :=
  ⟨Json.insertMember key value.render q.pairs⟩

def get? (q : Query) (key : String) : Option String :=
  (q.pairs.find? (·.1 == key)).map (·.2)

def contains (q : Query) (key : String) : Bool := (q.get? key).isSome

/-- The bag without a key. -/
def erase (q : Query) (key : String) : Query := ⟨q.pairs.filter (·.1 != key)⟩

def isEmpty (q : Query) : Bool := q.pairs.isEmpty

/-- A parameter read back as an integer within bounds. A sign may stand in front, a minus only where
the bounds admit negative numbers. -/
def getInteger? (q : Query) (key : String) (least greatest : Int) : Option Int := do
  let text ← q.get? key
  let i ← Decimal.readInt? text.toList
  if text.toList.head? = some '-' ∧ 0 ≤ least then none
  else if least ≤ i ∧ i ≤ greatest then some i else none

/-- A parameter read back as a truth value. -/
def getBool? (q : Query) (key : String) : Option Bool :=
  match q.get? key with
  | some "true" => some true
  | some "false" => some false
  | _ => none

/-- A parameter read back as a time span. -/
def getSpan? (q : Query) (key : String) : Option TimeSpan := do
  (TimeSpan.parse (← q.get? key)).toOption

/-- A parameter read back as a word. -/
def getWord? (q : Query) (v : Vocabulary) (key : String) : Option String := do
  (v.parse (← q.get? key)).toOption

end Query

end SearchClient

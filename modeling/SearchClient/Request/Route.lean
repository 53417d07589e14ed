import SearchClient.Json.Basic
import SearchClient.Text.Split

/-!
# Routes

An operation has one or more templates of paths, with places for values in them. A request brings
values for some keys, and the first template whose places are exactly those keys gives the path, one
segment for each piece of the template. A value fills its segment whole, whatever it contains.
-/

set_option autoImplicit false
set_option relaxedAutoImplicit false

namespace SearchClient

/-- One piece of a template: a fixed text, or a place for the value of a key. -/
inductive RoutePiece where
  | text (s : String)
  | value (key : String)
  deriving DecidableEq, Repr, Inhabited

/-- A template of a path, with the text it is shown as. -/
structure RouteTemplate where
  shown : String
  pieces : List RoutePiece
  deriving DecidableEq, Repr, Inhabited

/-- The templates of an operation, in the order in which they are tried. -/
structure RouteTable where
  operation : String
  templates : List RouteTemplate
  deriving DecidableEq, Repr, Inhabited

/-- Values by key, in the order of keys; none is empty. -/
structure RouteValues where
  pairs : List (String × String)
  deriving DecidableEq, Repr, Inhabited

/-- No template of an operation fits the values of a request. -/
structure RouteMismatch where
  operation : String
  provided : List String
  templates : List String
  deriving DecidableEq, Repr, Inhabited

def RouteMismatch.message (e : RouteMismatch) : String :=
  "no url template of `" ++ e.operation ++ "` accepts route values [" ++
    ", ".intercalate e.provided ++ "]; templates: " ++ " | ".intercalate e.templates

instance : Coe String RoutePiece := ⟨.text⟩

namespace RoutePiece

/-- The piece that a text between slashes is: a place if it stands in braces. -/
def parse (cs : List Char) : RoutePiece :=
  match Text.dropPrefix? ['{'] cs with
  | some inner =>
    match Text.dropSuffix? ['}'] inner with
    | some key => .value (String.ofList key)
    | none => .text (String.ofList cs)
  | none => .text (String.ofList cs)

/-- The text of a piece. -/
def shown : RoutePiece → String
  | .text s => s
  | .value key => "\x7b" ++ key ++ "\x7d"

/-- The key of a place. -/
def key? : RoutePiece → Option String
  | .text _ => none
  | .value key => some key

end RoutePiece

namespace RouteTemplate

/-- The template with these pieces. -/
def of (pieces : List RoutePiece) : RouteTemplate :=
  ⟨"/" ++ "/".intercalate (pieces.map RoutePiece.shown), pieces⟩

/-- The template that a text spells. Empty pieces do not count. -/
def parse (text : String) : RouteTemplate :=
  ⟨text, ((Text.split '/' text.toList).filter (· ≠ [])).map RoutePiece.parse⟩

/-- The keys of the places. -/
def keys (t : RouteTemplate) : List String := t.pieces.filterMap RoutePiece.key?

end RouteTemplate

namespace RouteValues

def empty : RouteValues := ⟨[]⟩

/-- A value is set for a key. An empty value takes the key away. -/
def set (values : RouteValues) (key value : String) : RouteValues :=
  if value = "" then ⟨values.pairs.filter (·.1 ≠ key)⟩
  else ⟨Json.insertMember key value values.pairs⟩

def get? (values : RouteValues) (key : String) : Option String :=
  (values.pairs.find? (·.1 = key)).map (·.2)

/-- The keys that have values. -/
def keys (values : RouteValues) : List String := values.pairs.map (·.1)

def isEmpty (values : RouteValues) : Bool := values.pairs.isEmpty

/-- The values that a template needs, no more and no less. -/
def Fits (values : RouteValues) (t : RouteTemplate) : Prop :=
  (∀ key ∈ t.keys, key ∈ values.keys) ∧ ∀ key ∈ values.keys, key ∈ t.keys

instance (values : RouteValues) (t : RouteTemplate) : Decidable (values.Fits t) := by
  unfold Fits
  infer_instance

/-- The segments of a template, each place filled with the value of its key. -/
def fill (values : RouteValues) (t : RouteTemplate) : List String :=
  t.pieces.map fun
    | .text s => s
    | .value key => (values.get? key).getD ""

end RouteValues

namespace RouteTable

/-- The segments of the first template that fits. -/
def resolve (table : RouteTable) (values : RouteValues) : Except RouteMismatch (List String) :=
  match table.templates.find? fun t ↦ decide (values.Fits t) with
  | some t => .ok (values.fill t)
  | none => .error ⟨table.operation, values.keys, table.templates.map (·.shown)⟩

end RouteTable

end SearchClient

import SearchClient.Json.Tree
import SearchClient.Request.Body

/-!
# Bulk bodies

Many writes travel in one body, a line for each action and a line for its source; a deletion has no
source. A source given as text stands as it is. One that holds a line break would be two lines, so
it is read and written again on one line.
-/

set_option autoImplicit false
set_option relaxedAutoImplicit false

namespace SearchClient

inductive BulkAction where
  | index
  | create
  | update
  | delete
  deriving DecidableEq, Repr, Inhabited

def BulkAction.name : BulkAction → String
  | .index => "index"
  | .create => "create"
  | .update => "update"
  | .delete => "delete"

/-- What an action is about: a text as it stands, or a document. -/
inductive BulkSource where
  | spelled (text : String)
  | document (j : Json)
  deriving Repr, Inhabited

structure BulkOperation where
  action : BulkAction
  metadata : List (String × Json) := []
  source : Option BulkSource := none
  deriving Repr, Inhabited

namespace BulkOperation

/-- A datum about an operation; a later one replaces an earlier one of its name. -/
def withMeta (op : BulkOperation) (key : String) (value : Json) : BulkOperation :=
  { op with metadata := Json.insertMember key value op.metadata }

def index (source : BulkSource) : BulkOperation := { action := .index, source := some source }

def create (source : BulkSource) : BulkOperation := { action := .create, source := some source }

def update (id : String) (source : BulkSource) : BulkOperation :=
  withMeta { action := .update, source := some source } "_id" (.string id)

def delete (id : String) : BulkOperation := withMeta { action := .delete } "_id" (.string id)

/-- The line that names the action. -/
def actionLine (op : BulkOperation) : String :=
  (Json.object [(op.action.name, .object op.metadata)]).compact

/-- Whether a text is more than one line. -/
def breaksLine (text : String) : Bool :=
  text.toList.any fun c ↦ c == '\n' || c == '\r'

/-- A source as one line. -/
def sourceLine : BulkSource → Except Json.Fault String
  | .document j => .ok j.compact
  | .spelled text =>
    if breaksLine text then (Json.parse text).map Json.compact else .ok text

/-- The lines of an operation. -/
def lines (op : BulkOperation) : Except Json.Fault (List String) :=
  match op.source with
  | none => .ok [op.actionLine]
  | some source => (sourceLine source).map fun line ↦ [op.actionLine, line]

/-- The lines of operations. The first source that cannot be written ends it. -/
def allLines : List BulkOperation → Except Json.Fault (List String)
  | [] => .ok []
  | op :: ops => do
    let here ← op.lines
    let rest ← allLines ops
    .ok (here ++ rest)

/-- The body of operations, a line break behind each line. -/
def render (ops : List BulkOperation) : Except Json.Fault String :=
  (allLines ops).map fun lines ↦ String.join (lines.map (· ++ "\n"))

end BulkOperation

end SearchClient

import SearchClient.Request.Body
import SearchClient.Request.Method
import SearchClient.Url.Join

/-!
# Requests

A request has a method, a path, parameters in order, perhaps a body, and overrides of the settings
of the client. Its path is a text that is encoded already, or a list of values that become one
segment each.
-/

set_option autoImplicit false
set_option relaxedAutoImplicit false

namespace SearchClient

/-- What a single request changes about the settings. Times are in nanoseconds. -/
structure Overrides where
  requestTimeout : Option Nat := none
  pingTimeout : Option Nat := none
  maxRetries : Option Nat := none
  disablePing : Bool := false
  disableSniff : Bool := false
  /-- The one node that the request goes to, once, past the pool. -/
  onlyNode : Option Url := none
  /-- The statuses that count as success beside those from 200 to 299. -/
  allowedStatuses : List Nat := []
  opaqueId : Option String := none
  headers : List (String × String) := []
  deriving Repr, Inhabited

/-- Whether a status counts as success although it is none. -/
def Overrides.allows (overrides : Overrides) (status : Nat) : Bool :=
  overrides.allowedStatuses.contains status

inductive RequestPath where
  | text (path : String)
  | values (segments : List String)
  deriving DecidableEq, Repr, Inhabited

namespace RequestPath

/-- The path as people read it. -/
def shown : RequestPath → String
  | .text path => if path.toList.head? = some '/' then path else "/" ++ path
  | .values segments => "/" ++ "/".intercalate segments

/-- The path below that of a node, if the node's locator can carry one. -/
def below (path : RequestPath) (node : Url) : Option Url :=
  match path with
  | .text path => some (node.joinPath path)
  | .values segments => node.extend segments

end RequestPath

structure Request where
  method : Method
  path : RequestPath
  query : List (String × String) := []
  body : Option RequestBody := none
  overrides : Overrides := {}
  deriving Repr, Inhabited

/-- A request for a written path. What follows the first question mark are parameters. -/
def Request.of (method : Method) (path : String) : Request :=
  match Text.splitFirst '?' path.toList with
  | some (path, query) =>
    { method := method, path := .text (String.ofList path), query := Text.Form.decode query }
  | none => { method := method, path := .text path }

end SearchClient

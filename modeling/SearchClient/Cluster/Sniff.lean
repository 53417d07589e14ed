import SearchClient.Calendar.TimeSpan
import SearchClient.Cluster.Pool
import SearchClient.Document.Shape
import SearchClient.Url.Parser

/-!
# Sniffing

A cluster that is asked for its nodes tells each one's address, roles and settings.
`Sniff.readNodes` makes nodes of those that can be reached: an address that gives a locator, HTTP
not turned off, and, if so wanted, not there to manage the cluster only.
-/

set_option autoImplicit false
set_option relaxedAutoImplicit false

namespace SearchClient.Sniff

open Text

/-- Where a cluster tells about its nodes. -/
def path : String := "_nodes/http,settings"

/-- The parameters of the question, given how long an answer may take. -/
def query (pingTimeout : Nat) : List (String × String) :=
  [("flat_settings", "true"), ("timeout", (TimeSpan.ofNanos pingTimeout).text)]

/-- A port of an address: digits, perhaps behind a plus sign. -/
def readPort (cs : List Char) : Option Nat :=
  let digits :=
    match cs with
    | '+' :: rest => rest
    | cs => cs
  match Decimal.readNat? digits with
  | some port => if port ≤ 65535 then some port else none
  | none => none

variable [Url.Domain.Spelling]

/-- The locator of an address: a name and an address with a slash between them, in which case the
name counts, or an address alone. The port stands behind the last colon. -/
def publishUrl? (address scheme : String) : Option Url := do
  let (name, address) :=
    match splitFirst '/' address.toList with
    | some (name, rest) => (name, rest)
    | none => ([], address.toList)
  let (ip, port) ← splitLast ':' address
  let port ← readPort port
  let host := if name = [] then ip else name
  let text := scheme.toList ++ "://".toList ++ host ++ ':' :: Decimal.digits port
  (Url.parse (String.ofList text)).toOption

/-- What a cluster tells about its nodes. -/
def nodesShape : Shape :=
  .fields
    [Shape.field "nodes" (.map (.fields
      [Shape.maybe "name" .text,
       Shape.maybe "roles" (.list .text),
       Shape.maybe "http" (.fields [Shape.need "publish_address" .text]),
       Shape.field "settings" (.map .any)]))]

/-- What a setting of a node says, if it is set: a truth value, a text other than the word for no,
or anything else. -/
def flag? (settings : Document) (key : String) : Option Bool :=
  (settings.members.find? (·.1 == key)).map fun (_, d) ↦
    match d with
    | .json (.bool b) => b
    | .json (.string s) => s.toList.map Char.toLower != "false".toList
    | _ => true

/-- The roles of a node, from their list or, where there is none, from settings. -/
def roles (node : Document) : Roles :=
  match node.get? "roles" with
  | some (.list names) => Roles.ofNames (names.filterMap Document.string?)
  | _ =>
    let settings := (node.get? "settings").getD .null
    let holds (key : String) : Bool := (flag? settings key).getD true
    { managerEligible :=
        match flag? settings "node.master", flag? settings "node.cluster_manager" with
        | none, none => true
        | first, second => first.getD false || second.getD false
      data := holds "node.data"
      ingest := holds "node.ingest"
      http := holds "http.enabled" }

/-- The node of an entry, if it can be used. -/
def node? (scheme : String) (skipManagerOnly : Bool) (id : String) (d : Document) :
    Option Node := do
  let http ← d.get? "http"
  let address ← (http.get? "publish_address").bind Document.string?
  let url ← publishUrl? address scheme
  let roles := roles d
  if roles.http && !(skipManagerOnly && roles.managerOnly) then
    some { url := url, id := some id, name := (d.get? "name").bind Document.string?
           roles := roles }
  else none

/-- Why an answer names no nodes. -/
inductive Flaw where
  | notNodes
  | noNodes
  deriving DecidableEq, Repr, Inhabited

def Flaw.message : Flaw → String
  | .notNodes => "sniff response is not a nodes info response"
  | .noNodes => "sniff response listed no node with a usable http publish address"

/-- The nodes of an answer, in the order of their names in it. -/
def readNodes (body : Bytes) (asked : Url) (skipManagerOnly : Bool) : Except Flaw (List Node) :=
  match nodesShape.read body with
  | .error _ => .error .notNodes
  | .ok d =>
    let entries := ((d.get? "nodes").map Document.members).getD []
    match entries.filterMap fun (id, node) ↦ node? asked.scheme skipManagerOnly id node with
    | [] => .error .noNodes
    | nodes => .ok nodes

end SearchClient.Sniff

import SearchClient.Calendar.TimeSpan
import SearchClient.Cluster.Pool
import SearchClient.Request.Names

/-!
# The configuration of a client

Which nodes there are, how they are chosen, who asks, and which times and limits there are. A
document gives a configuration in which everything it leaves out has its usual value
(`ClientConfig.ofJson?`), and `ClientConfig.toJson` writes one out.
-/

set_option autoImplicit false
set_option relaxedAutoImplicit false

namespace SearchClient

/-- The times and limits of a configuration. -/
structure TransportConfig where
  requestTimeout : TimeSpan := .value .one .minutes
  connectTimeout : TimeSpan := .value (.ofNat 10) .seconds
  pingTimeout : TimeSpan := .value (.ofNat 2) .seconds
  deadTimeout : TimeSpan := .value .one .minutes
  maxDeadTimeout : TimeSpan := .value (.ofNat 30) .minutes
  maxRetries : Option Nat := none
  maxRetryTimeout : Option TimeSpan := none
  sniffOnStartup : Bool := true
  sniffOnFault : Bool := true
  sniffLifespan : Option TimeSpan := none
  disablePings : Bool := false
  compression : Bool := false
  prettyJson : Bool := false
  skipManagerOnly : Bool := true
  deriving DecidableEq, Repr, Inhabited

structure ClientConfig where
  nodes : List String := ["http://localhost:9200"]
  pool : Option PoolKind := none
  username : Option String := none
  password : Option String := none
  apiKey : Option String := none
  proxy : Option String := none
  headers : List (String × String) := []
  query : List (String × String) := []
  transport : TransportConfig := {}
  deriving DecidableEq, Repr, Inhabited

namespace Json

/-- The members of a document by the names of fields: an object names them, an array has them in
order and no more than there are fields. -/
def fieldValues? (fields : List String) : Json → Option (List (String × Json))
  | .object members => some members
  | .array items => if items.length ≤ fields.length then some (fields.zip items) else none
  | _ => none

/-- A member that has another value than the usual one when it is there. -/
def field? {α : Type} (members : List (String × Json)) (name : String) (usual : α)
    (read : Json → Option α) : Option α :=
  match members.find? (·.1 == name) with
  | some (_, value) => read value
  | none => some usual

/-- What a document gives, or nothing for null. -/
def optional? {α : Type} (read : Json → Option α) : Json → Option (Option α)
  | .null => some none
  | value => (read value).map some

/-- A dictionary of texts, in the order of names. -/
def textMap? : Json → Option (List (String × String))
  | .object members => do
    let texts ← members.mapM fun (m : String × Json) ↦ (string? m.2).map fun text ↦ (m.1, text)
    some (texts.mergeSort fun a b ↦ decide (a.1 ≤ b.1))
  | _ => none

/-- A count of at most sixty-four bits. -/
def count? (j : Json) : Option Nat := do
  let i ← j.integer?
  if 0 ≤ i ∧ i ≤ greatestUnsigned then some i.toNat else none

/-- A time span. -/
def span? (j : Json) : Option TimeSpan := (TimeSpan.ofJson j).toOption

/-- A list of texts, or a text with commas between the items. -/
def nodeList? : Json → Option (List String)
  | .string s => some (Names.parse s).items
  | .array items => items.mapM string?
  | _ => none

/-- A kind of pool: its name, or the name with nothing else to be said. -/
def poolKind? : Json → Option PoolKind
  | .string s => PoolKind.parse? s
  | .object [(name, .null)] => PoolKind.parse? name
  | _ => none

end Json

open Json

namespace TransportConfig

/-- The names of the fields, in order. -/
def fields : List String :=
  ["request_timeout", "connect_timeout", "ping_timeout", "dead_timeout", "max_dead_timeout",
    "max_retries", "max_retry_timeout", "sniff_on_startup", "sniff_on_connection_fault",
    "sniff_lifespan", "disable_pings", "http_compression", "pretty_json",
    "skip_cluster_manager_only_nodes"]

/-- The times and limits that a document gives. -/
def ofJson? (j : Json) : Option TransportConfig := do
  let members ← fieldValues? fields j
  let usual : TransportConfig := {}
  some
    { requestTimeout := ← field? members "request_timeout" usual.requestTimeout span?
      connectTimeout := ← field? members "connect_timeout" usual.connectTimeout span?
      pingTimeout := ← field? members "ping_timeout" usual.pingTimeout span?
      deadTimeout := ← field? members "dead_timeout" usual.deadTimeout span?
      maxDeadTimeout := ← field? members "max_dead_timeout" usual.maxDeadTimeout span?
      maxRetries := ← field? members "max_retries" usual.maxRetries (optional? count?)
      maxRetryTimeout :=
        ← field? members "max_retry_timeout" usual.maxRetryTimeout (optional? span?)
      sniffOnStartup := ← field? members "sniff_on_startup" usual.sniffOnStartup bool?
      sniffOnFault := ← field? members "sniff_on_connection_fault" usual.sniffOnFault bool?
      sniffLifespan := ← field? members "sniff_lifespan" usual.sniffLifespan (optional? span?)
      disablePings := ← field? members "disable_pings" usual.disablePings bool?
      compression := ← field? members "http_compression" usual.compression bool?
      prettyJson := ← field? members "pretty_json" usual.prettyJson bool?
      skipManagerOnly :=
        ← field? members "skip_cluster_manager_only_nodes" usual.skipManagerOnly bool? }

/-- The times and limits as a document. -/
def toJson (c : TransportConfig) : Json :=
  let orNull (span : Option TimeSpan) : Json := (span.map TimeSpan.toJson).getD .null
  .object
    [("request_timeout", c.requestTimeout.toJson), ("connect_timeout", c.connectTimeout.toJson),
      ("ping_timeout", c.pingTimeout.toJson), ("dead_timeout", c.deadTimeout.toJson),
      ("max_dead_timeout", c.maxDeadTimeout.toJson),
      ("max_retries", (c.maxRetries.map fun n ↦ Json.integer n).getD .null),
      ("max_retry_timeout", orNull c.maxRetryTimeout), ("sniff_on_startup", .bool c.sniffOnStartup),
      ("sniff_on_connection_fault", .bool c.sniffOnFault),
      ("sniff_lifespan", orNull c.sniffLifespan), ("disable_pings", .bool c.disablePings),
      ("http_compression", .bool c.compression), ("pretty_json", .bool c.prettyJson),
      ("skip_cluster_manager_only_nodes", .bool c.skipManagerOnly)]

end TransportConfig

namespace ClientConfig

/-- The names of the fields, in order. -/
def fields : List String :=
  ["nodes", "pool", "username", "password", "api_key", "proxy", "headers", "query_params",
    "transport"]

/-- The configuration that a document gives. -/
def ofJson? (j : Json) : Option ClientConfig := do
  let members ← fieldValues? fields j
  let usual : ClientConfig := {}
  some
    { nodes := ← field? members "nodes" usual.nodes nodeList?
      pool := ← field? members "pool" usual.pool (optional? poolKind?)
      username := ← field? members "username" usual.username (optional? string?)
      password := ← field? members "password" usual.password (optional? string?)
      apiKey := ← field? members "api_key" usual.apiKey (optional? string?)
      proxy := ← field? members "proxy" usual.proxy (optional? string?)
      headers := ← field? members "headers" usual.headers textMap?
      query := ← field? members "query_params" usual.query textMap?
      transport := ← field? members "transport" usual.transport TransportConfig.ofJson? }

/-- A dictionary of texts as a document. -/
def textMapToJson (texts : List (String × String)) : Json :=
  .object (texts.map fun (name, text) ↦ (name, .string text))

/-- The configuration as a document. -/
def toJson (c : ClientConfig) : Json :=
  .object
    [("nodes", .array (c.nodes.map .string)), ("pool", .ofOption (c.pool.map PoolKind.name)),
      ("username", .ofOption c.username), ("password", .ofOption c.password),
      ("api_key", .ofOption c.apiKey), ("proxy", .ofOption c.proxy),
      ("headers", textMapToJson c.headers), ("query_params", textMapToJson c.query),
      ("transport", c.transport.toJson)]

end ClientConfig

end SearchClient

import SearchClient.Cluster.Failure
import SearchClient.Cluster.Http
import SearchClient.Config.Basic

/-!
# What a configuration comes to

The locators of its nodes, the kind of its pool, its credentials and its settings, or what is wrong
with them. `ClientConfig.connect` brings all of them together into the settings and the pool of a
client.
-/

set_option autoImplicit false
set_option relaxedAutoImplicit false

namespace SearchClient.ClientConfig

variable [Url.Domain.Spelling]

/-- The locators of texts; the first that is none is told. -/
def parseNodes : List String → Except Failure (List Url)
  | [] => .ok []
  | node :: nodes =>
    match Url.parse node with
    | .error flaw => .error (.url node flaw)
    | .ok url => (parseNodes nodes).map (url :: ·)

/-- The locators of the nodes. There is at least one. -/
def nodeUrls (c : ClientConfig) : Except Failure (List Url) :=
  if c.nodes.isEmpty then .error (.config .noNodes) else parseNodes c.nodes

/-- How nodes are chosen. If nothing is said about it, one node is a single one and several are
fixed. -/
def poolKind (c : ClientConfig) : PoolKind :=
  c.pool.getD (if c.nodes.length = 1 then .single else .fixed)

/-- Who asks. A key counts more than a name. -/
def credentials (c : ClientConfig) : Except Failure (Option Credentials) :=
  match c.apiKey, c.username, c.password with
  | some key, _, _ => .ok (some (.apiKey key))
  | none, some username, password => .ok (some (.basic username password))
  | none, none, some _ => .error (.config .passwordAlone)
  | none, none, none => .ok none

/-- The length of a time that has to end. -/
def finite (setting : String) (span : TimeSpan) : Except Failure Nat :=
  match span.nanos? with
  | some length => .ok length
  | none => .error (.config (.endlessTime setting span.text))

/-- The settings of a client. -/
def settings (c : ClientConfig) : Except Failure Settings := do
  let t := c.transport
  let requestTimeout ← finite "request_timeout" t.requestTimeout
  let connectTimeout ← finite "connect_timeout" t.connectTimeout
  let pingTimeout ← finite "ping_timeout" t.pingTimeout
  let deadTimeout ← finite "dead_timeout" t.deadTimeout
  let maxDeadTimeout ← finite "max_dead_timeout" t.maxDeadTimeout
  let maxRetryTimeout ← t.maxRetryTimeout.mapM (finite "max_retry_timeout")
  let credentials ← c.credentials
  .ok
    { requestTimeout := requestTimeout
      connectTimeout := connectTimeout
      pingTimeout := pingTimeout
      deadTimeout := deadTimeout
      maxDeadTimeout := maxDeadTimeout
      maxRetries := t.maxRetries
      maxRetryTimeout := maxRetryTimeout
      sniffOnStartup := t.sniffOnStartup
      sniffOnFault := t.sniffOnFault
      sniffLifespan := t.sniffLifespan.bind TimeSpan.nanos?
      disablePings := t.disablePings
      compression := t.compression
      prettyJson := t.prettyJson
      skipManagerOnly := t.skipManagerOnly
      credentials := credentials
      proxy := c.proxy
      headers := c.headers
      query := c.query }

/-- The pool of nodes that nothing is known about yet. -/
def makePool (kind : PoolKind) (urls : List Url) : Except Failure Pool :=
  match Pool.make kind urls with
  | .ok pool => .ok pool
  | .error flaw => .error (.config (.pool flaw))

/-- The settings and the pool of a client that asks over a network. -/
def connect (c : ClientConfig) : Except Failure (Settings × Pool) := do
  let settings ← c.settings
  let pool ← makePool c.poolKind (← c.nodeUrls)
  if settings.proxy.all Http.acceptsProxy then .ok (settings, pool) else .error .noConnection

end SearchClient.ClientConfig

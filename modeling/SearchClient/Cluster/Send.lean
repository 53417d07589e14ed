import SearchClient.Cluster.Sniff
import SearchClient.Cluster.Program

/-!
# Sending

A request walks the pool. A node that came back is pinged first; a node that does not answer, or
answers that a gateway failed, is dead for a while, and the request moves on to the next, as often
as its limits allow. A sniffing pool asks the cluster for its nodes before the first request, when
what it knows is old, and once for each request when a node fails. All this is written down in the
trail of the response or of the failure. The addresses that a cluster tells are read with a spelling
of names that is given (`Url.Domain.Spelling`).
-/

set_option autoImplicit false
set_option relaxedAutoImplicit false

namespace SearchClient

/-- The answer that a request brought back. -/
structure Response where
  method : Method
  url : Url
  status : Nat
  headers : Headers
  body : Text.Bytes
  trail : Trail
  deriving Repr, Inhabited

/-- Whether a status tells of success. -/
def isSuccess (status : Nat) : Bool := 200 ≤ status && status ≤ 299

/-- Whether a status tells that another node may do better. -/
def isRetryable (status : Nat) : Bool := 502 ≤ status && status ≤ 504

namespace Response

def success (r : Response) : Bool := isSuccess r.status

/-- The body as text. -/
def text (r : Response) : String := Text.Utf8.lossy r.body

def serverError? (r : Response) : Option ServerError := ServerError.ofBody? r.body r.status

/-- The failure that an answer is to a request that cannot accept it. -/
def toFailure (r : Response) : Failure :=
  .rejected { status := r.status, method := r.method, url := r.url
              serverError := r.serverError?, body := r.text, trail := r.trail }

/-- What a reader makes of the body. -/
def read {α : Type} (reader : Text.Bytes → Except Json.Fault α) (r : Response) :
    Except Failure α :=
  match reader r.body with
  | .ok a => .ok a
  | .error fault => .error (.unreadable fault (Text.snippet r.text))

end Response

variable [Url.Domain.Spelling]

namespace Send

/-- What a request is bound to, resolved from the settings and its overrides. -/
structure Limits where
  requestTimeout : Nat
  pingTimeout : Nat
  maxRetries : Nat
  maxRetryTimeout : Nat
  deriving DecidableEq, Repr, Inhabited

def limits (s : Settings) (pool : Pool) (o : Overrides) : Limits :=
  let requestTimeout := o.requestTimeout.getD s.requestTimeout
  { requestTimeout := requestTimeout
    pingTimeout := o.pingTimeout.getD s.pingTimeout
    maxRetries :=
      if pool.kind = .single then 0 else (o.maxRetries.or s.maxRetries).getD pool.maxRetries
    maxRetryTimeout := s.maxRetryTimeout.getD requestTimeout }

/-- What stays the same while a request is under way. -/
structure Course where
  settings : Settings
  request : Request
  payload : Option Payload
  limits : Limits
  began : Nat

/-- How far a request has come. -/
structure Progress where
  tried : Nat := 0
  sniffed : Bool := false
  lastStatus : Option Nat := none
  lastFault : Option LinkFault := none
  trail : Trail := []
  deriving Repr, Inhabited

namespace Progress

def record (p : Progress) (entry : TrailEntry) : Progress := { p with trail := p.trail ++ [entry] }

/-- The end of a request that found no answer. -/
def surrender (p : Progress) (why : Surrender) (event : Event) : Except Failure Response :=
  let p := p.record { event := event }
  .error (.givenUp { why := why, attempts := p.tried, lastStatus := p.lastStatus
                     lastFault := p.lastFault, trail := p.trail })

end Progress

/-- The entry about a status. -/
def statusEntry (event : Event) (node : Url) (status : Nat) : TrailEntry :=
  { event := event, node := some node, detail := some ("status " ++ toString status) }

/-- The entry about a fault. -/
def faultEntry (event : Event) (node : Url) (fault : LinkFault) : TrailEntry :=
  { event := event, node := some node, detail := some fault.message }

/-- The response of a node that answered. -/
def respond (c : Course) (node : Url) (reply : Reply) (trail : Trail) :
    Except Failure Response :=
  match Message.place node c.request.path with
  | .error what => .error (.config (.unsendable what))
  | .ok url =>
    .ok { method := c.request.method, url := url, status := reply.status
          headers := reply.headers, body := reply.body, trail := trail }

/-- The message of a request to a node. -/
def messageTo (c : Course) (node : Url) : Except Unsendable Message :=
  Message.prepare c.settings node c.request.method c.request.path c.request.query c.payload
    c.request.overrides c.limits.requestTimeout

/-! ### Pings -/

/-- The message that asks a node whether it is there. -/
def pingMessage (s : Settings) (node : Url) (timeout : Nat) : Except Unsendable Message :=
  Message.prepare s node .head (.text "/") [] none {} timeout

/-- The fault that a message is which cannot be sent at all. -/
def unsendableFault (what : Unsendable) : LinkFault :=
  .connect (Failure.config (.unsendable what)).message

/-- A node is asked whether it is there. -/
def ping (s : Settings) (node : Url) (timeout : Nat) (p : Progress) :
    Program (Option LinkFault × Progress) :=
  match pingMessage s node timeout with
  | .error what => return (some (unsendableFault what), p)
  | .ok message => do
    match ← Program.call message with
    | .ok reply =>
      if isSuccess reply.status then
        return (none, p.record { event := .pingSuccess, node := some node })
      else
        let fault := LinkFault.connect ("ping returned status " ++ toString reply.status)
        return (some fault, p.record (faultEntry .pingFailure node fault))
    | .error fault => return (some fault, p.record (faultEntry .pingFailure node fault))

/-! ### Sniffs -/

/-- The message that asks a node for the nodes of its cluster. -/
def sniffMessage (s : Settings) (node : Url) (timeout : Nat) : Except Unsendable Message :=
  Message.prepare s node .get (.text Sniff.path) (Sniff.query timeout) none {} timeout

/-- How a sniff ended: whether the pool was replaced, or with which fault of the link. -/
inductive SniffEnd where
  | replaced
  | failed (fault : Option LinkFault)
  deriving Repr, Inhabited

/-- Nodes are asked in turn until one tells of nodes that can be used. -/
def sniffAmong (s : Settings) (timeout : Nat) :
    List Url → Option LinkFault → Progress → Program (SniffEnd × Progress)
  | [], fault, p => return (.failed fault, p)
  | node :: nodes, fault, p => do
    let failure (detail : String) : TrailEntry :=
      { event := .sniffFailure, node := some node, detail := some detail }
    match sniffMessage s node timeout with
    | .error what =>
      sniffAmong s timeout nodes fault
        (p.record (failure (Failure.config (.unsendable what)).message))
    | .ok message =>
      match ← Program.call message with
      | .error fault => sniffAmong s timeout nodes (some fault) (p.record (failure fault.message))
      | .ok reply =>
        if isSuccess reply.status then
          match Sniff.readNodes reply.body node s.skipManagerOnly with
          | .ok found =>
            Program.change fun shared ↦ { shared with pool := (shared.pool.reseed found).1 }
            let detail := toString found.length ++ " node(s)"
            return (.replaced,
              p.record { event := .sniffSuccess, node := some node, detail := some detail })
          | .error flaw => sniffAmong s timeout nodes fault (p.record (failure flaw.message))
        else
          sniffAmong s timeout nodes fault
            (p.record (failure ("status " ++ toString reply.status)))

/-- The nodes in the order in which they are asked: those alive first. -/
def sniffOrder (pool : Pool) : List Url :=
  let (alive, dead) := pool.nodes.partition (·.health.alive)
  (alive ++ dead).map (·.url)

/-- The cluster is asked for its nodes. -/
def sniff (s : Settings) (timeout : Nat) (p : Progress) : Program (SniffEnd × Progress) := do
  let shared ← Program.look
  sniffAmong s timeout (sniffOrder shared.pool) none p

/-- The moment of a sniff that ended well is kept. -/
def keepSniffTime : Program Unit := do
  let moment ← Program.now
  Program.change fun shared ↦ { shared with lastSniff := moment }

/-- Before the first request the cluster is asked for its nodes. Requests that come meanwhile wait;
the one that asked fails if nobody told. -/
def sniffOnStartup (c : Course) (p : Progress) : Program (Except Failure Progress) := do
  let shared ← Program.look
  if shared.pool.kind.takesNewNodes && c.settings.sniffOnStartup &&
      !c.request.overrides.disableSniff then
    Program.acquire
    let shared ← Program.look
    if shared.started then
      Program.release
      return .ok p
    else
      Program.change fun shared ↦ { shared with started := true }
      match ← sniff c.settings c.limits.pingTimeout (p.record { event := .sniffOnStartup }) with
      | (.replaced, p) =>
        keepSniffTime
        Program.release
        return .ok p
      | (.failed fault, p) =>
        Program.release
        return .error (.givenUp { why := .couldNotSniffOnStartup, attempts := 0
                                  lastFault := fault, trail := p.trail })
  else return .ok p

/-- When the last sniff is too long ago the cluster is asked again. If nobody tells, the request
goes on with the nodes that are known. -/
def sniffIfStale (c : Course) (p : Progress) : Program Progress := do
  match c.settings.sniffLifespan with
  | none => return p
  | some lifespan =>
    let shared ← Program.look
    if shared.pool.kind.takesNewNodes && !c.request.overrides.disableSniff then
      Program.acquire
      let shared ← Program.look
      let moment ← Program.now
      if moment - shared.lastSniff < lifespan then
        Program.release
        return p
      else
        match ← sniff c.settings c.limits.pingTimeout
            (p.record { event := .sniffOnStaleCluster }) with
        | (.replaced, p) =>
          keepSniffTime
          Program.release
          return p
        | (.failed _, p) =>
          Program.release
          return p
    else return p

/-- After a node failed the cluster is asked for its nodes, once in a request. The answer tells
whether the walk begins anew. -/
def sniffOnFault (c : Course) (p : Progress) : Program (Bool × Progress) := do
  let shared ← Program.look
  if p.sniffed || !c.settings.sniffOnFault || !shared.pool.kind.takesNewNodes ||
      c.request.overrides.disableSniff then
    return (false, p)
  else
    let p := { p with sniffed := true }
    match ← sniff c.settings c.limits.pingTimeout (p.record { event := .sniffOnFail }) with
    | (.replaced, p) =>
      let moment ← Program.now
      Program.acquire
      Program.change fun shared ↦ { shared with lastSniff := moment }
      Program.release
      return (true, p)
    | (.failed _, p) => return (false, p)

/-! ### The walk -/

/-- How a visit to a node ended. -/
inductive Visit where
  | answered (result : Except Failure Response)
  | failed (p : Progress)

/-- The health of a node is changed. -/
def mark (number : Nat) (f : Health → Health) : Program Unit :=
  Program.change fun shared ↦ { shared with pool := shared.pool.changeHealth number f }

/-- A node failed. -/
def markDead (s : Settings) (number : Nat) : Program Unit := do
  let moment ← Program.now
  mark number fun h ↦ h.fail moment s.deadTimeout s.maxDeadTimeout

/-- A node answered. -/
def markAlive (number : Nat) : Program Unit := mark number fun _ ↦ Health.recovered

/-- The request itself is sent to a node. -/
def attempt (c : Course) (number : Nat) (node : Url) (p : Progress) : Program Visit :=
  match messageTo c node with
  | .error what => return .answered (.error (.config (.unsendable what)))
  | .ok message => do
    match ← Program.call message with
    | .ok reply =>
      if isRetryable reply.status then
        markDead c.settings number
        let p := p.record (statusEntry .badResponse node reply.status)
        return .failed { p with lastStatus := some reply.status }
      else
        markAlive number
        let event := if isSuccess reply.status then Event.healthyResponse else .badRequest
        return .answered
          (respond c node reply (p.record (statusEntry event node reply.status)).trail)
    | .error fault =>
      markDead c.settings number
      let p := p.record (faultEntry .badResponse node fault)
      return .failed { p with lastFault := some fault }

/-- Whether a node is pinged before it gets the request. -/
def isPinged (c : Course) (pool : Pool) (number : Nat) : Bool :=
  ((pool.node? number).map (·.health.resurrected)).getD false && pool.kind.pings &&
    !c.settings.disablePings && !c.request.overrides.disablePing

/-- A node is pinged, if it has to be, and gets the request. -/
def visit (c : Course) (number : Nat) (node : Url) (p : Progress) : Program Visit := do
  let shared ← Program.look
  if isPinged c shared.pool number then
    match ← ping c.settings node c.limits.pingTimeout p with
    | (none, p) => attempt c number node p
    | (some fault, p) =>
      markDead c.settings number
      return .failed { p with lastFault := some fault }
  else attempt c number node p

/-- The end of a walk that has no node left. -/
def runOut (c : Course) (p : Progress) : Except Failure Response :=
  if p.tried = 0 then p.surrender .noNodesAttempted .noNodesAttempted
  else if c.limits.maxRetries < p.tried then p.surrender .maxRetriesReached .maxRetriesReached
  else p.surrender .failedOverAllNodes .failedOverAllNodes

/-- The next node of a walk, with its locator, and the walk after it. -/
def stride (w : Walk) (p : Progress) : Program (Option (Nat × Url) × Walk × Progress) := do
  let moment ← Program.now
  let shared ← Program.look
  let stride := w.next shared.pool moment
  Program.change fun shared ↦ { shared with pool := stride.pool }
  let node := stride.node.bind fun number ↦
    (shared.pool.node? number).map fun node ↦ (number, node.url)
  return (node, stride.walk, { p with trail := p.trail ++ stride.entries })

/-- A walk of at most so many turns. Where new nodes were learnt, another walk takes over. -/
def walk (c : Course) (another : Progress → Program (Except Failure Response)) :
    Nat → Walk → Progress → Program (Except Failure Response)
  | 0, _, p => return runOut c p
  | turns + 1, w, p => do
    let (found, w, p) ← stride w p
    match found with
    | none => return runOut c p
    | some (number, node) =>
      let moment ← Program.now
      if c.limits.maxRetryTimeout < moment - c.began then
        return p.surrender .maxTimeoutReached .maxTimeoutReached
      else if c.limits.maxRetries < p.tried then
        return p.surrender .maxRetriesReached .maxRetriesReached
      else
        match ← visit c number node { p with tried := p.tried + 1 } with
        | .answered result => return result
        | .failed p =>
          let (learnt, p) ← sniffOnFault c p
          if learnt then another p else walk c another turns w p

/-- Walks, one after another as long as new nodes are learnt. -/
def walks (c : Course) : Nat → Progress → Program (Except Failure Response)
  | 0, p => return runOut c p
  | more + 1, p => do
    let shared ← Program.look
    let (w, pool) := shared.pool.walk
    Program.change fun shared ↦ { shared with pool := pool }
    walk c (walks c more) w.turnsLeft w p

/-- A request to one node that it names, past the pool. -/
def sendOnly (c : Course) (node : Url) : Program (Except Failure Response) :=
  match messageTo c node with
  | .error what => return .error (.config (.unsendable what))
  | .ok message => do
    match ← Program.call message with
    | .ok reply =>
      let event :=
        if isSuccess reply.status then Event.healthyResponse
        else if isRetryable reply.status then .badResponse
        else .badRequest
      return respond c node reply [statusEntry event node reply.status]
    | .error fault =>
      return .error (.givenUp { why := .badResponse, attempts := 1, lastFault := some fault
                                trail := [faultEntry .badResponse node fault] })

end Send

open Send in
/-- A request is sent. Whatever a node answers is a response, unless it says that a gateway
failed. -/
def send (s : Settings) (r : Request) : Program (Except Failure Response) := do
  let began ← Program.now
  let shared ← Program.look
  let c : Course :=
    { settings := s, request := r, payload := r.body.map (·.payload s.compression)
      limits := limits s shared.pool r.overrides, began := began }
  match r.overrides.onlyNode with
  | some node => sendOnly c node
  | none =>
    match ← sniffOnStartup c {} with
    | .error failure => return .error failure
    | .ok p =>
      let p ← sniffIfStale c p
      walks c 2 p

/-- How a node answered a ping that asked all, and after how many nanoseconds. -/
structure PingOutcome where
  node : Url
  result : Except LinkFault Nat
  took : Nat

def PingOutcome.isAlive (o : PingOutcome) : Bool :=
  match o.result with
  | .ok status => isSuccess status
  | .error _ => false

/-- Nodes are pinged whatever is known about them, and nothing is kept of the outcome. -/
def pingEach (s : Settings) : List Url → Program (List PingOutcome)
  | [] => return []
  | node :: nodes => do
    let began ← Program.now
    let result ←
      match Send.pingMessage s node s.pingTimeout with
      | .error what => pure (.error (Send.unsendableFault what))
      | .ok message => do
        match ← Program.call message with
        | .ok reply => pure (.ok reply.status)
        | .error fault => pure (.error fault)
    let ended ← Program.now
    let outcomes ← pingEach s nodes
    return ⟨node, result, ended - began⟩ :: outcomes

/-- All nodes of the pool are pinged. -/
def pingAll (s : Settings) : Program (List PingOutcome) := do
  let shared ← Program.look
  pingEach s (shared.pool.nodes.map (·.url))

end SearchClient

import SearchClient.Cluster.Program

/-!
# Scripted clusters

A cluster that answers from a script: each node has a row of outcomes, and when they have run out
all requests have the same outcome. Pings are answered well unless the node was told to refuse them.
It remembers every message that it got.
-/

set_option autoImplicit false
set_option relaxedAutoImplicit false

namespace SearchClient

/-- What becomes of a message. -/
inductive Outcome where
  | respond (status : Nat) (body : Text.Bytes)
  | fail (reason : String)
  deriving Repr, Inhabited

structure ScriptedCluster where
  /-- Outcomes by host and port, the next one first. -/
  scripts : List (String × List Outcome) := []
  refusesPings : List String := []
  fallback : Outcome := .respond 200 [0x7B, 0x7D]
  /-- The messages so far, the first one first. -/
  received : List Message := []
  deriving Inhabited

namespace ScriptedCluster

variable [Url.Domain.Spelling]

/-- Host and port of a node, given as a locator or as such. -/
def keyOf (node : String) : String :=
  match Url.parse node with
  | .ok url => url.endpoint
  | .error _ => node

/-- An outcome is added to the script of a node. -/
def script (c : ScriptedCluster) (node : String) (outcome : Outcome) : ScriptedCluster :=
  let key := keyOf node
  let earlier := ((c.scripts.find? (·.1 == key)).map (·.2)).getD []
  { c with scripts := (key, earlier ++ [outcome]) :: c.scripts.filter (·.1 != key) }

/-- A node refuses pings from now on. -/
def refusePings (c : ScriptedCluster) (node : String) : ScriptedCluster :=
  { c with refusesPings := keyOf node :: c.refusesPings }

/-- The next outcome of a node. -/
def take (c : ScriptedCluster) (key : String) : Outcome × ScriptedCluster :=
  match c.scripts.find? (·.1 == key) with
  | some (_, outcome :: rest) =>
    (outcome, { c with scripts := (key, rest) :: c.scripts.filter (·.1 != key) })
  | _ => (c.fallback, c)

def Outcome.reply : Outcome → Except LinkFault Reply
  | .respond status body => .ok { status := status, body := body }
  | .fail reason => .error (.scripted reason)

/-- What becomes of a message. -/
def answer (c : ScriptedCluster) (m : Message) : Except LinkFault Reply × ScriptedCluster :=
  let c := { c with received := c.received ++ [m] }
  let key := m.url.endpoint
  if m.isPing then
    if c.refusesPings.contains key then
      (.error (.scripted ("ping to " ++ key ++ " refused")), c)
    else (.ok { status := 200, body := [] }, c)
  else
    let (outcome, c) := c.take key
    (Outcome.reply outcome, c)

/-- Messages are carried to a scripted cluster in no time. -/
def link : Link ScriptedCluster where
  carry m c :=
    let (reply, c) := c.answer m
    (reply, 0, c)

/-- The messages that were no pings. -/
def calls (c : ScriptedCluster) : List Message := c.received.filter (!·.isPing)

end ScriptedCluster

end SearchClient

import SearchClient.Url.Basic

/-!
# Trails

Whatever happens to a request on its way is written down, in order: which node was pinged, which
failed, when the cluster was asked for its nodes, and why the client gave up.
-/

set_option autoImplicit false
set_option relaxedAutoImplicit false

namespace SearchClient

inductive Event where
  | sniffOnStartup
  | sniffOnFail
  | sniffOnStaleCluster
  | sniffSuccess
  | sniffFailure
  | pingSuccess
  | pingFailure
  | resurrection
  | allNodesDead
  | badResponse
  | healthyResponse
  | badRequest
  | maxTimeoutReached
  | maxRetriesReached
  | failedOverAllNodes
  | noNodesAttempted
  deriving DecidableEq, Repr, Inhabited

/-- The name under which an event is reported. -/
def Event.name : Event → String
  | .sniffOnStartup => "SniffOnStartup"
  | .sniffOnFail => "SniffOnFail"
  | .sniffOnStaleCluster => "SniffOnStaleCluster"
  | .sniffSuccess => "SniffSuccess"
  | .sniffFailure => "SniffFailure"
  | .pingSuccess => "PingSuccess"
  | .pingFailure => "PingFailure"
  | .resurrection => "Resurrection"
  | .allNodesDead => "AllNodesDead"
  | .badResponse => "BadResponse"
  | .healthyResponse => "HealthyResponse"
  | .badRequest => "BadRequest"
  | .maxTimeoutReached => "MaxTimeoutReached"
  | .maxRetriesReached => "MaxRetriesReached"
  | .failedOverAllNodes => "FailedOverAllNodes"
  | .noNodesAttempted => "NoNodesAttempted"

/-- One line of a trail: what happened, to which node, and what is to be said about it. -/
structure TrailEntry where
  event : Event
  node : Option Url := none
  detail : Option String := none
  deriving Repr, Inhabited

abbrev Trail := List TrailEntry

end SearchClient

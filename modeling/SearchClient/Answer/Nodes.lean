import SearchClient.Answer.Shards

/-!
# Answers about the nodes of a cluster
-/

set_option autoImplicit false
set_option relaxedAutoImplicit false

namespace SearchClient.Answer

open Shape

/-- Answers of several nodes, by their ids. -/
def perNode (node : Shape) : Shape :=
  fields [maybe "_nodes" nodeStatistics, maybe "cluster_name" .text, need "nodes" (.map node)]

/-- What a node is. -/
def nodeInfo : Shape :=
  perNode <| openFields [need "name" .text, maybe "transport_address" .text, maybe "host" .text,
    maybe "ip" .text, maybe "version" .text, maybe "build_type" .text, maybe "build_hash" .text,
    field "roles" (.list .text), field "attributes" (.map .text)]

/-- Figures about a node. -/
def nodeFigures : Shape :=
  perNode <| openFields [need "name" .text, maybe "timestamp" (.moment .epochMillis),
    maybe "transport_address" .text, maybe "host" .text, maybe "ip" .text,
    field "roles" (.list .text), field "attributes" (.map .text)]

/-- What a node has been used for. -/
def nodeUsage : Shape :=
  perNode <| fields [maybe "timestamp" (.moment .epochMillis), maybe "since" (.moment .epochMillis),
    field "rest_actions" (.map count), field "aggregations" .any]

/-- Whether a node has taken up its secure settings. -/
def secureSettings : Shape :=
  perNode <| fields [maybe "name" .text, maybe "reload_exception" .cause]

end SearchClient.Answer

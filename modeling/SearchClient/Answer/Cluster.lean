import SearchClient.Answer.Shards

/-!
# Answers about the whole cluster
-/

set_option autoImplicit false
set_option relaxedAutoImplicit false

namespace SearchClient.Answer

open Shape

/-- The health of a cluster or an index. -/
def healthStatus : Shape := .oneOf ["green", "yellow", "red"]

/-- The health of one index. -/
def indexHealth : Shape :=
  fields [need "status" healthStatus, field "number_of_shards" count,
    field "number_of_replicas" count, field "active_primary_shards" count,
    field "active_shards" count, field "relocating_shards" count,
    field "initializing_shards" count, field "unassigned_shards" count]

/-- The health of the cluster. -/
def health : Shape :=
  fields [need "cluster_name" .text, need "status" healthStatus, field "timed_out" .boolean,
    field "number_of_nodes" count, field "number_of_data_nodes" count,
    maybe "discovered_cluster_manager" .boolean, field "active_primary_shards" count,
    field "active_shards" count, field "relocating_shards" count,
    field "initializing_shards" count, field "unassigned_shards" count,
    field "delayed_unassigned_shards" count, field "number_of_pending_tasks" count,
    field "number_of_in_flight_fetch" count, field "task_max_waiting_in_queue_millis" count,
    field "active_shards_percent_as_number" .float, unlessEmpty "indices" (.map indexHealth)]

/-- Figures about the cluster. -/
def clusterStatistics : Shape :=
  fields [need "cluster_name" .text, maybe "cluster_uuid" .text,
    need "timestamp" (.moment .epochMillis), maybe "status" healthStatus,
    maybe "_nodes" nodeStatistics, field "indices" .any, field "nodes" .any]

/-- The state of the cluster, section by section. -/
def clusterState : Shape :=
  openFields [need "cluster_name" .text, maybe "cluster_uuid" .text, maybe "version" signed,
    maybe "state_uuid" .text, maybe "cluster_manager_node" .text]

/-- Settings of the cluster. -/
def clusterSettings : Shape :=
  fields [field "persistent" .any, field "transient" .any, maybe "defaults" .any]

/-- Settings of the cluster after a change. -/
def changedSettings : Shape :=
  fields [field "acknowledged" .boolean, field "persistent" .any, field "transient" .any]

/-- Changes that the cluster has not made yet. -/
def pendingTasks : Shape :=
  fields [field "tasks" (.list (fields [need "insert_order" signed, need "priority" .text,
    need "source" .text, field "executing" .boolean, field "time_in_queue_millis" count,
    maybe "time_in_queue" .text]))]

/-- Why a shard is where it is. -/
def allocation : Shape :=
  fields [maybe "index" .text, maybe "shard" signed, maybe "primary" .boolean,
    maybe "current_state" .text, maybe "current_node" .any, maybe "unassigned_info" .any,
    maybe "can_allocate" .text, maybe "can_remain_on_current_node" .text,
    maybe "allocate_explanation" .text, field "node_allocation_decisions" (.list .any)]

end SearchClient.Answer

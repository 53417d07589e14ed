import SearchClient.Answer.Documents

/-!
# Answers about machine learning models and the tasks behind them
-/

set_option autoImplicit false
set_option relaxedAutoImplicit false

namespace SearchClient.Answer

open Shape

/-- A group of models. -/
def modelGroup : Shape :=
  fields [need "name" .text, orNothing "description" .text, orNothing "access_mode" .text,
    unlessEmpty "backend_roles" (.list .text)]

/-- A group that has been made. -/
def modelGroupCreated : Shape := fields [need "model_group_id" .text, maybe "status" .text]

/-- A task that has been begun. -/
def taskHandle : Shape :=
  fields [maybe "task_id" .text, maybe "task_type" .text, maybe "status" .text,
    maybe "model_id" .text]

/-- A model. -/
def model : Shape :=
  fields [maybe "name" .text, maybe "model_group_id" .text, maybe "algorithm" .text,
    maybe "model_version" .text, maybe "model_format" .text, maybe "model_state" .text,
    maybe "model_content_size_in_bytes" count, maybe "model_content_hash_value" .text,
    maybe "model_config" .any, maybe "created_time" (.moment .epochMillis),
    maybe "last_updated_time" (.moment .epochMillis),
    maybe "last_registered_time" (.moment .epochMillis),
    maybe "last_deployed_time" (.moment .epochMillis), maybe "total_chunks" count,
    maybe "planning_worker_node_count" count, maybe "current_worker_node_count" count,
    field "planning_worker_nodes" (.list .text)]

/-- Models that a search has found. -/
def models : Shape := search model

/-- Models that have been withdrawn, by node. -/
def undeployed : Shape := .map .any

/-- A task. -/
def task : Shape :=
  fields [maybe "model_id" .text, maybe "task_type" .text, maybe "function_name" .text,
    need "state" .text, field "worker_node" (.list .text),
    maybe "create_time" (.moment .epochMillis), maybe "last_update_time" (.moment .epochMillis),
    maybe "error" .text, maybe "is_async" .boolean]

/-- Whether a task will not change any more. -/
def isTaskFinished (task : Document) : Bool :=
  ["COMPLETED", "COMPLETED_WITH_ERROR", "FAILED", "CANCELLED"].contains (task.textOf "state")

end SearchClient.Answer

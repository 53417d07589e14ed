import SearchClient.Document.Shape

/-!
# Answers in rows

Some answers are tables: a list of rows, each with texts under the names of the columns.
-/

set_option autoImplicit false
set_option relaxedAutoImplicit false

namespace SearchClient.Answer

open Shape

/-- A row of any table. -/
def row : Shape := .map .any

/-- A column whose text may be missing. A row given as an array has to have it. -/
def column (name : String) : FieldName × Shape :=
  ({ name := name, absent := .required }, .optional .text)

/-- A row with these columns. -/
def rowOf (columns : List String) : Shape := fields (columns.map column)

def aliasRow : Shape :=
  rowOf ["alias", "index", "filter", "routing.index", "routing.search", "is_write_index"]

def indexRow : Shape :=
  rowOf ["health", "status", "index", "uuid", "pri", "rep", "docs.count", "docs.deleted",
    "store.size", "pri.store.size"]

def healthRow : Shape :=
  rowOf ["epoch", "timestamp", "cluster", "status", "node.total", "node.data", "shards", "pri",
    "relo", "init", "unassign", "pending_tasks", "max_task_wait_time", "active_shards_percent"]

/-- A row about a node. The column that marks the cluster manager has had another name. -/
def nodeRow : Shape :=
  fields <| (["ip", "heap.percent", "ram.percent", "cpu", "load_1m", "load_5m", "load_15m",
    "node.role"].map column) ++
    [({ name := "cluster_manager", aliases := ["master"], absent := .required }, .optional .text),
      column "name"]

def countRow : Shape := rowOf ["epoch", "timestamp", "count"]

def shardRow : Shape :=
  rowOf ["index", "shard", "prirep", "state", "docs", "store", "ip", "node"]

def snapshotRow : Shape :=
  rowOf ["id", "status", "start_epoch", "start_time", "end_epoch", "end_time", "duration",
    "indices", "successful_shards", "failed_shards", "total_shards"]

end SearchClient.Answer

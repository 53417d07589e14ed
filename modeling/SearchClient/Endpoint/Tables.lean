import SearchClient.Answer.Tables
import SearchClient.Endpoint.Basic

/-!
# Endpoints for tables

Each table of the cluster has an endpoint of its own. Most can be narrowed to a target, and what the
target is, an index or a node or another thing, depends on the table.
-/

set_option autoImplicit false
set_option relaxedAutoImplicit false

namespace SearchClient.Endpoint.Tables

/-- What a table is narrowed to, if it can be. -/
def targetKey? (table : String) : Option String :=
  if ["aliases", "templates"].contains table then some "name"
  else if ["count", "indices", "recovery", "segments", "shards"].contains table then some "index"
  else if table = "allocation" then some "node_id"
  else if table = "snapshots" then some "repository"
  else if table = "thread_pool" then some "thread_pool_patterns"
  else none

/-- The routes of a table. -/
def routesOf (table : String) : List (List RoutePiece) :=
  match targetKey? table with
  | some key => [["_cat", table, slot key], ["_cat", table]]
  | none => [["_cat", table]]

/-- The target of a table. For a table without one the value fits no route. -/
def target (table : String) : Setter :=
  ⟨"target", .names, .route ((targetKey? table).getD "target")⟩

/-- A table, as rows of a shape. Rows are asked for as documents. -/
def rowsOf (table : String) (row : Shape) : Endpoint :=
  { name := "cat." ++ table
    table := routes ("cat." ++ table) (routesOf table)
    verb := .always .get
    takes :=
      [target table, .query "bytes" (.word .byteUnit), .renamed "columns" "h" .names,
        .renamed "sort" "s" .names, .renamed "verbose" "v" .boolean, boolean "local",
        managerTimeout, expandWildcards, .query "health" (.word .healthStatus), boolean "pri",
        string "time", boolean "ts", boolean "active_only", boolean "detailed", ignoreUnavailable]
    blank := { query := Query.empty.set "format" (.text "json") }
    answer := .document (.list row) }

/-- Any table. -/
def rows (table : String) : Endpoint := rowsOf table Answer.row

/-- The tables with rows of a known shape. That of snapshots always has a target. -/
def all : List Endpoint :=
  [rowsOf "aliases" Answer.aliasRow, rowsOf "indices" Answer.indexRow,
    rowsOf "health" Answer.healthRow, rowsOf "nodes" Answer.nodeRow,
    rowsOf "count" Answer.countRow, rowsOf "shards" Answer.shardRow,
    { rowsOf "snapshots" Answer.snapshotRow with needs := [target "snapshots"] }]

end SearchClient.Endpoint.Tables

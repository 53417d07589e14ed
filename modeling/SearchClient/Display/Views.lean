import SearchClient.Answer.Snapshots
import SearchClient.Cluster.Send
import SearchClient.Display.Figures
import SearchClient.Display.Grid

/-!
# Answers as grids

What the cluster answers, set out for people. The grid of any table has a column for every name that
occurs in a row, in the order in which they are met, and leaves a cell empty where a row has nothing
under that name.
-/

set_option autoImplicit false
set_option relaxedAutoImplicit false

namespace SearchClient.Display

/-- A cell on the right. -/
def onRight (text : String) : Cell := { text := text, side := .right }

/-- A count on the right. -/
def countCell (d : Document) (name : String) : Cell := onRight (toString (d.countOf name))

/-- Who the cluster is. -/
def info (d : Document) : Grid :=
  let version := (d.get? "version").getD .null
  let known : List (List Cell) :=
    [["cluster", d.textOf "cluster_name"], ["node", d.textOf "name"],
      ["distribution", version.textOr "distribution" "opensearch"],
      ["version", version.textOf "number"]]
  let lucene : List (List Cell) :=
    match version.get? "lucene_version" with
    | some _ => [["lucene", version.textOf "lucene_version"]]
    | none => []
  { header := ["field", "value"], rows := known ++ lucene }

/-- How the cluster is. -/
def health (d : Document) : Grid :=
  let percent :=
    ((d.get? "active_shards_percent_as_number").bind Document.float?).getD (.zero false)
  { header :=
      ["cluster", "status", "nodes", "data", "primaries", "active", "relocating", "initializing",
        "unassigned", "active %"]
    rows :=
      [[d.textOf "cluster_name", d.textOf "status", countCell d "number_of_nodes",
        countCell d "number_of_data_nodes", countCell d "active_primary_shards",
        countCell d "active_shards", countCell d "relocating_shards",
        countCell d "initializing_shards", countCell d "unassigned_shards",
        onRight (decimal 1 percent)]] }

/-- A row of a table: texts and other documents under names. -/
abbrev TableRow := List (String × Json)

/-- The names that occur in rows, in the order in which they are met. -/
def columns (rows : List TableRow) : List String :=
  (rows.flatMap fun row ↦ row.map (·.1)).eraseDups

/-- What stands in a cell: a text as it is, nothing for null, and any other document written
out. -/
def cellText : Json → String
  | .null => ""
  | .string s => s
  | other => other.compact

/-- The cell of a row under a name. -/
def tableCell (row : TableRow) (column : String) : Cell :=
  { text := ((row.find? (·.1 == column)).map fun (_, value) ↦ cellText value).getD "" }

/-- Any table. -/
def tableGrid (rows : List TableRow) : Grid :=
  let names := columns rows
  { header := names, rows := rows.map fun row ↦ names.map (tableCell row) }

/-- The rows of an answer. -/
def tableRows (d : Document) : List TableRow :=
  d.items.map fun row ↦ row.members.map fun (name, value) ↦ (name, value.toJson)

/-- The nodes of the cluster. -/
def nodes (d : Document) : Grid :=
  { header := ["id", "name", "ip", "version", "roles"]
    rows := ((d.get? "nodes").getD .null).members.map fun (id, node) ↦
      let roles := ((node.get? "roles").getD .null).items.filterMap Document.string?
      [id, node.textOf "name", node.textOf "ip", node.textOf "version", ",".intercalate roles] }

/-- How each node answered a ping. -/
def pings (outcomes : List PingOutcome) : Grid :=
  let answer (o : PingOutcome) : String :=
    match o.result with
    | .ok status => (if o.isAlive then "✅ " else "⚠️ ") ++ toString status
    | .error fault => "💀 " ++ fault.message
  { header := ["node", "answer", "took"]
    rows := outcomes.map fun o ↦
      [o.node.text, answer o, onRight (toString (o.took / 1000000) ++ " ms")] }

/-- When something began, to the second. -/
def momentText (m : Moment) : String := String.ofList (m.dateChars ++ ' ' :: m.clockChars)

/-- The snapshots of a repository. -/
def snapshots (listed : List Document) : Grid :=
  { header := ["snapshot", "state", "indices", "started", "took", "shards"]
    rows := listed.map fun d ↦
      let moment := (d.get? "start_time" <|> d.get? "start_time_in_millis").bind Document.moment?
      let took := ((d.get? "duration_in_millis").bind Document.integer?).map fun millis ↦
        decimal 1 (.ofInt millis / .ofNat 1000) ++ "s"
      let shards := (d.get? "shards").map fun shards ↦
        toString (shards.countOf "successful") ++ "/" ++ toString (shards.countOf "total")
      [d.textOf "snapshot", d.textOf "state",
        onRight (toString ((d.get? "indices").getD .null).items.length),
        (moment.map momentText).getD "", onRight (took.getD ""), onRight (shards.getD "")] }

end SearchClient.Display

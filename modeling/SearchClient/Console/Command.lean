import SearchClient.Console.Help

/-!
# The commands

What can be asked of a cluster from a command line: who it is and how it is, its tables and nodes,
its snapshots, and any other request.
-/

set_option autoImplicit false
set_option relaxedAutoImplicit false

namespace SearchClient.Console

/-- A snapshot of a repository. -/
structure SnapshotName where
  repository : String
  snapshot : String
  deriving DecidableEq, Repr, Inhabited

/-- How people read the name of a snapshot. -/
def SnapshotName.text (n : SnapshotName) : String := n.repository ++ "/" ++ n.snapshot

/-- What is restored from a snapshot, and under which names. -/
structure RestoreChoice where
  indices : Option String := none
  renamePattern : Option String := none
  renameReplacement : Option String := none
  deriving DecidableEq, Repr, Inhabited

inductive Command where
  | info
  | health
  | table (api : String) (target : Option String)
  | nodes
  | ping
  | listSnapshots (repository : String)
  | createSnapshot (name : SnapshotName) (indices : Option String) (wait : Bool)
  | restoreSnapshot (name : SnapshotName) (choice : RestoreChoice) (wait : Bool)
  | raw (method path : String) (body : Option String)
  deriving DecidableEq, Repr, Inhabited

/-- A command, and the file that configures the client. -/
structure Invocation where
  config : Option String
  command : Command
  deriving DecidableEq, Repr, Inhabited

/-! ### The grammar -/

def repository : Operand := { name := "REPOSITORY" }

def snapshot : Operand := { name := "SNAPSHOT" }

def waitFlag (help : String) : Flag := { name := "wait", takesValue := false, help := help }

def snapshotCommands : List Grammar :=
  [.node "list" "📋 Every snapshot in a repository" [repository] [] [],
    .node "create" "📸 Take a snapshot" [repository, snapshot]
      [{ name := "indices", help := "comma-separated index patterns (default: everything)" },
        waitFlag "stay and watch the progress bar"] [],
    .node "restore" "♻️ Restore a snapshot" [repository, snapshot]
      [{ name := "indices" }, { name := "rename-pattern" }, { name := "rename-replacement" },
        waitFlag ""] []]

def commands : List Grammar :=
  [.node "info" "👋 Cluster name and version" [] [] [],
    .node "health" "🩺 Cluster health" [] [] [],
    .node "cat" "🐱 Any _cat API as a table (aliases, indices, nodes, shards, ...)"
      [{ name := "API" },
        { name := "TARGET", required := false
          help := "index, alias, node or repository, depending on the API" }] [] [],
    .node "nodes" "🖥️ Nodes, their roles and versions" [] [] [],
    .node "ping" "🏓 Ping every configured node at once" [] [] [],
    .node "snapshot" "📸 Snapshots" [] [] snapshotCommands,
    .node "raw" "🛠️ Any request, e.g. `osc raw GET /_cluster/settings`"
      [{ name := "METHOD" }, { name := "PATH" }]
      [{ name := "body", help := "JSON body, or NDJSON for _bulk and friends" }] []]

def configFlag : Flag :=
  { name := "config", letter := some 'c', mayBeEmpty := false
    help :=
      "TOML config file. Defaults to ./osc.toml when it exists, otherwise OSC_* env vars only" }

/-- The program. -/
def grammar : Grammar :=
  .node "osc" "🔎 Poke an OpenSearch cluster from the terminal" [] [configFlag] commands

def versionLine : String := "osc 0.1.0"

/-- The command that was found. -/
def Command.of? (f : Findings) : Option Command :=
  match f.path, f.operands with
  | ["info"], _ => some .info
  | ["health"], _ => some .health
  | ["cat"], [api] => some (.table api none)
  | ["cat"], [api, target] => some (.table api (some target))
  | ["nodes"], _ => some .nodes
  | ["ping"], _ => some .ping
  | ["snapshot", "list"], [repository] => some (.listSnapshots repository)
  | ["snapshot", "create"], [repository, snapshot] =>
    some (.createSnapshot ⟨repository, snapshot⟩ (f.value? "indices") (f.has "wait"))
  | ["snapshot", "restore"], [repository, snapshot] =>
    some (.restoreSnapshot ⟨repository, snapshot⟩
      { indices := f.value? "indices", renamePattern := f.value? "rename-pattern"
        renameReplacement := f.value? "rename-replacement" } (f.has "wait"))
  | ["raw"], [method, path] => some (.raw method path (f.value? "body"))
  | _, _ => none

/-- The command that arguments ask for. -/
def Invocation.read (arguments : List String) : Except Stop Invocation := do
  let found ← grammar.read arguments
  match Command.of? found with
  | some command => .ok ⟨found.value? configFlag.name, command⟩
  | none => .error .misused

/-- What is printed when reading ends without a command, if reading did not fail. -/
def Stop.lines? : Stop → Option (List String)
  | .misused => none
  | .version => some [versionLine]
  | .help path about =>
    some (about.helpLines path (if path.isEmpty then [] else grammar.flags))

end SearchClient.Console

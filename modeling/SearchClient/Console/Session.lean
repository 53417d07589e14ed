import SearchClient.Config.Load
import SearchClient.Config.Resolve
import SearchClient.Console.Command
import SearchClient.Console.Trouble
import SearchClient.Display.Views
import SearchClient.Endpoint.Catalogue
import SearchClient.Json.Tree

/-!
# Running a command

A command makes a client of its configuration, asks the cluster, and shows the answer. What it
prints, what it notes beside that, and the trouble that it met make up its report.
-/

set_option autoImplicit false
set_option relaxedAutoImplicit false

namespace SearchClient.Console

/-! ### The client -/

/-- What stands under a path. -/
inductive Entry where
  | nothing
  | file (text : String)
  /-- A folder, or another thing that is no file. -/
  | other
  deriving DecidableEq, Repr, Inhabited

/-- The file that configures the client unless another one is named. -/
def defaultConfig : String := "osc.toml"

/-- The file that configures the client. One that is named has to be there. -/
def configFile (files : String → Entry) : Option String → Except Trouble (Option ClientConfig.File)
  | some path =>
    match files path with
    | .nothing =>
      .error
        ⟨"💀 Configuration file '" ++ path ++
          "' does not exist. Relative paths are relative to where you ran osc from.", []⟩
    | .file text => .ok (some ⟨path, some text⟩)
    | .other => .ok (some ⟨path, none⟩)
  | none =>
    match files defaultConfig with
    | .file text => .ok (some ⟨defaultConfig, some text⟩)
    | _ => .ok none

/-- The settings and the pool of the client. -/
def client (files : String → Entry) (env : Environment) (config : Option String) :
    Except Trouble (Settings × Pool) := do
  let file ← configFile files config
  match ClientConfig.load env file with
  | .error flaw =>
    .error
      ⟨"💀 Couldn't load the client configuration, take a look at the file and the OSC_* variables",
        [flaw.message]⟩
  | .ok config =>
    match config.connect with
    | .error failure =>
      .error (.within "💀 Couldn't build a client from the configuration" failure)
    | .ok client => .ok client

/-! ### Reports -/

/-- What a command leaves behind. -/
structure Report where
  printed : List String := []
  noted : List String := []
  trouble : Option Trouble := none
  deriving DecidableEq, Repr, Inhabited

namespace Report

/-- Something is shown. -/
def shows (text : String) : Report := { printed := [text] }

/-- Something went wrong. -/
def fails (trouble : Trouble) : Report := { trouble := some trouble }

/-- The code with which the program ends. -/
def exitCode (r : Report) : Nat := if r.trouble.isSome then 1 else 0

/-- What is printed, a line break behind each text. -/
def output (r : Report) : String := String.join (r.printed.map fun text ↦ text ++ "\n")

/-- The lines beside the output: the notes, and the trouble. -/
def sideLines (r : Report) : List String :=
  (r.noted ++ ((r.trouble.map Trouble.lines).getD [])).flatMap fun text ↦
    (Text.split '\n' text.toList).map String.ofList

end Report

/-- A call is made and its answer shown, or the failure told of what was wanted. -/
def ask (s : Settings) (what : String) (e : Endpoint) (c : Call) (view : Document → String) :
    Program Report := do
  match ← e.invoke s c with
  | .ok answer => return .shows (view answer)
  | .error failure => return .fails (.within what failure)

/-! ### Tables and pings -/

def runTable (s : Settings) (api : String) (target : Option String) : Program Report :=
  match Vocabulary.table.parse api with
  | .error unknown => return .fails ⟨unknown.message, []⟩
  | .ok api =>
    let e := Endpoint.Tables.rows api
    let call :=
      match target with
      | some target => e.blank.set (Endpoint.Tables.target api).place (.names (Names.parse target))
      | none => e.blank
    ask s ("💀 _cat/" ++ api ++ " didn't work out") e call fun answer ↦
      (Display.tableGrid (Display.tableRows answer)).text

/-- A cluster in which nobody answers is trouble, but the outcomes are shown all the same. -/
def runPing (s : Settings) : Program Report := do
  let outcomes ← pingAll s
  let silent : Trouble :=
    ⟨"💀 none of the " ++ toString outcomes.length ++ " configured nodes answered the ping", []⟩
  return { printed := [(Display.pings outcomes).text]
           trouble := if outcomes.any PingOutcome.isAlive then none else some silent }

/-! ### Snapshots -/

/-- A call about the snapshots of a repository. -/
def aboutRepository (e : Endpoint) (repository : String) (snapshots : Parameter) : Call :=
  (e.blank.set (.route "repository") (.text repository)).set (.route "snapshot") snapshots

/-- A call about a snapshot. -/
def aboutSnapshot (e : Endpoint) (name : SnapshotName) : Call :=
  aboutRepository e name.repository (.text name.snapshot)

/-- A body with those members that have a text. -/
def bodyOf (members : List (String × Option String)) : RequestBody :=
  .ofJson (.object (members.filterMap fun (name, text) ↦ text.map fun t ↦ (name, .string t)))

/-- How long one waits before looking again. -/
def pollInterval : Nat := 1000000000

/-- How often one looks again before giving up. -/
def patience : Nat := twoTo 40

/-- A snapshot is watched until it has come to its end. -/
def watch (s : Settings) (name : SnapshotName) : Nat → Program Report
  | 0 => return .fails ⟨"💀 Lost track of snapshot '" ++ name.text ++ "'", []⟩
  | more + 1 => do
    let e := Endpoint.Snapshots.status
    let call := aboutRepository e name.repository (.names (Names.parse name.snapshot))
    match ← e.invoke s call with
    | .error failure =>
      return .fails (.within ("💀 Lost track of snapshot '" ++ name.text ++ "'") failure)
    | .ok answer =>
      match ((answer.get? "snapshots").getD .null).items.head? with
      | none =>
        Program.pause pollInterval
        watch s name more
      | some status =>
        if Answer.isFinished status then
          let state := status.textOf "state"
          if state = "SUCCESS" then
            return .shows ("✅ snapshot " ++ name.snapshot ++ " finished")
          else
            return .fails
              ⟨"💀 snapshot '" ++ name.snapshot ++ "' ended in state " ++ state, []⟩
        else
          Program.pause pollInterval
          watch s name more

def runCreate (s : Settings) (name : SnapshotName) (indices : Option String) (wait : Bool) :
    Program Report := do
  let e := Endpoint.Snapshots.create
  let call := (aboutSnapshot e name).setBody (.ok (bodyOf [("indices", indices)]))
  match ← e.invoke s call with
  | .error failure =>
    return .fails (.within ("💀 Couldn't start snapshot '" ++ name.text ++ "'") failure)
  | .ok _ =>
    if wait then watch s name patience
    else return .shows ("📸 snapshot " ++ name.snapshot ++ " started in " ++ name.repository)

/-- What was restored, or that it will be. -/
def restoredText (name : SnapshotName) (answer : Document) : String :=
  match answer.get? "snapshot" with
  | some restored =>
    let shards := (restored.get? "shards").getD .null
    "♻️ restored " ++ restored.textOf "snapshot" ++ " (" ++
      toString ((restored.get? "indices").getD .null).items.length ++ " indices, " ++
      toString (shards.countOf "successful") ++ "/" ++ toString (shards.countOf "total") ++
      " shards)"
  | none => "♻️ restore of " ++ name.snapshot ++ " accepted"

def runRestore (s : Settings) (name : SnapshotName) (choice : RestoreChoice) (wait : Bool) :
    Program Report :=
  let e := Endpoint.Snapshots.restore
  let body := bodyOf
    [("indices", choice.indices), ("rename_pattern", choice.renamePattern),
      ("rename_replacement", choice.renameReplacement)]
  let call := ((aboutSnapshot e name).set (.query "wait_for_completion") (.bool wait)).setBody
    (.ok body)
  ask s ("💀 Couldn't restore '" ++ name.text ++ "'") e call (restoredText name)

/-! ### Any request -/

/-- The body of a request for a path: documents one a line where the path wants them so, a document
anywhere else. -/
def rawBody (path body : String) : Except Json.Fault RequestBody :=
  if ["_bulk", "_msearch"].any fun part ↦ Text.hasInfix part.toList path.toList then
    .ok (.lines body)
  else (Json.parse body).map .ofJson

/-- The request that was asked for. A method may be written in small letters, and the first slash of
a path may be left out. -/
def rawRequest (method path : String) (body : Option String) : Except Trouble Request :=
  match Method.parseAnyCase? method with
  | none => .error ⟨"💀 '" ++ method ++ "' is not an HTTP method", ["invalid HTTP method"]⟩
  | some word =>
    let path := if path.toList.head? = some '/' then path else "/" ++ path
    match body.mapM (rawBody path) with
    | .error _ => .error ⟨"💀 --body is not valid JSON", []⟩
    | .ok body => .ok { Request.of word path with body := body }

/-- A body for people: a document over several lines, any other text as it is. -/
def shownBody (r : Response) : String :=
  match Json.parseBytes r.body with
  | .ok document => document.pretty
  | .error _ => r.text

def runRaw (s : Settings) (method path : String) (body : Option String) : Program Report :=
  match rawRequest method path body with
  | .error trouble => return .fails trouble
  | .ok request => do
    match ← send s request with
    | .error failure => return .fails (.ofFailure failure)
    | .ok response =>
      let refused : Trouble := ⟨"💀 the cluster answered " ++ toString response.status, []⟩
      return { printed := [shownBody response]
               noted := [toString response.status ++ " " ++ response.url.text]
               trouble := if response.success then none else some refused }

/-! ### Commands -/

/-- A command asks the cluster. -/
def Command.run (s : Settings) : Command → Program Report
  | info =>
    let e := Endpoint.info
    ask s "💀 Couldn't fetch the cluster info" e e.blank fun d ↦ (Display.info d).text
  | health =>
    let e := Endpoint.Cluster.health
    ask s "💀 Couldn't fetch cluster health" e e.blank fun d ↦ (Display.health d).text
  | table api target => runTable s api target
  | nodes =>
    let e := Endpoint.Nodes.info
    ask s "💀 Couldn't fetch node info" e e.blank fun d ↦ (Display.nodes d).text
  | ping => runPing s
  | listSnapshots repository =>
    let e := Endpoint.Snapshots.get
    let call := aboutRepository e repository (.names (Names.parse "_all"))
    ask s ("💀 Couldn't list snapshots in '" ++ repository ++ "'") e call fun d ↦
      (Display.snapshots ((d.get? "snapshots").getD .null).items).text
  | createSnapshot name indices wait => runCreate s name indices wait
  | restoreSnapshot name choice wait => runRestore s name choice wait
  | raw method path body => runRaw s method path body

/-! ### From arguments to a program -/

/-- What becomes of arguments: they are misused, there is nothing more to be done, or a program is
to run with a pool. -/
inductive Launch where
  | misused
  | settled (report : Report)
  | begun (settings : Settings) (pool : Pool) (program : Program Report)

/-- What becomes of arguments, with what stands in files and in the environment. -/
def launch (files : String → Entry) (env : Environment) (arguments : List String) : Launch :=
  match Invocation.read arguments with
  | .error stop =>
    match stop.lines? with
    | some lines => .settled { printed := lines }
    | none => .misused
  | .ok invocation =>
    match client files env invocation.config with
    | .error trouble => .settled (.fails trouble)
    | .ok (settings, pool) => .begun settings pool (invocation.command.run settings)

end SearchClient.Console

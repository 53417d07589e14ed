import SearchClient.Json.Record

/-!
# Causes of errors

What a cluster says about a failure: a kind, a reason, and causes inside causes. Members without a
place of their own are kept as metadata, so writing a cause gives back everything that was read, in
one normal form: a shard is a text, the ids of a resource are a list, and a reason that was only a
text is a cause with that reason.
-/

set_option autoImplicit false
set_option relaxedAutoImplicit false

namespace SearchClient

open Json

/-- Where in a script something went wrong. -/
structure ScriptPosition where
  offset : Int
  start : Int
  stop : Int
  deriving DecidableEq, Repr, Inhabited

mutual

/-- One cause of a failure. -/
structure ErrorCause where
  kind : Option String := none
  reason : Option String := none
  stackTrace : Option String := none
  causedBy : Option ErrorCause := none
  rootCause : List ErrorCause := []
  failedShards : List ShardFailure := []
  index : Option String := none
  indexUuid : Option String := none
  shard : Option String := none
  resourceId : List String := []
  resourceType : Option String := none
  script : Option String := none
  scriptStack : List String := []
  lang : Option String := none
  position : Option ScriptPosition := none
  phase : Option String := none
  grouped : Option Bool := none
  header : List (String × Json) := []
  metadata : List (String × Json) := []
  deriving Repr, Inhabited

/-- A shard that failed, and why. -/
structure ShardFailure where
  index : Option String := none
  node : Option String := none
  shard : Option String := none
  status : Option String := none
  reason : ErrorCause
  deriving Repr, Inhabited

end

namespace ErrorCause

/-! ### Reading -/

/-- A text; a document of another kind is its own text, and null is none. -/
def readShard (room : Nat) (t : Tree) : Except Fault (Option String) := do
  match ← t.toJson room with
  | .null => .ok none
  | .string s => .ok (some s)
  | other => .ok (some other.compact)

/-- One text or a list of them; null is none. -/
def readOneOrMany (room : Nat) (t : Tree) : Except Fault (List String) := do
  match ← t.toJson room with
  | .null => .ok []
  | .string s => .ok [s]
  | _ => t.readList room fun _ ↦ Tree.readText

/-- A script position. -/
def readPosition (room : Nat) (t : Tree) : Except Fault ScriptPosition := do
  let integer := Tree.readInteger leastSigned greatestSigned
  let slots := fun _ ↦ ["offset", "start", "end"].map fun name ↦
    { name := name, read := integer, missing := .required : Slot Int }
  match ← readRecord room slots false t with
  | ([offset, start, stop], _) => .ok ⟨offset, start, stop⟩
  | _ => .error .mismatch

/-- A slot whose value changes a record that is being built, and that may be missing. -/
def change {σ β : Type} (name : String) (read : Tree → Except Fault β) (set : β → σ → σ) :
    Slot (σ → σ) where
  name := name
  read := fun t ↦ (read t).map set
  missing := .always id

/-- The slots of a shard failure, for a way to read the causes in it. -/
def shardSlots (readReason : Nat → Tree → Except Fault ErrorCause) (room : Nat) :
    List (Slot (ShardFailure → ShardFailure)) :=
  let text := Tree.readOptional Tree.readText
  [change "index" text fun v f ↦ { f with index := v },
    change "node" text fun v f ↦ { f with node := v },
    change "shard" (readShard room) fun v f ↦ { f with shard := v },
    change "status" text fun v f ↦ { f with status := v },
    change "reason" (readReason room) fun v f ↦ { f with reason := v }]

/-- A shard failure, for a way to read the causes in it. -/
def readFailure (readReason : Nat → Tree → Except Fault ErrorCause) (room : Nat) (t : Tree) :
    Except Fault ShardFailure := do
  let (changes, _) ← readRecord room (shardSlots readReason) false t
  .ok (changes.foldl (fun f change ↦ change f) { reason := {} })

/-- A text or a cause. The whole tree has to be sound before either is tried. -/
def readTextOr (readCause : Tree → Except Fault ErrorCause) (room : Nat) (t : Tree) :
    Except Fault ErrorCause := do
  match ← t.toJson room with
  | .string s => .ok { reason := some s }
  | _ => readCause t

/-- The slots of a cause, for ways to read the causes and shard failures in it. -/
def slots (readCause : Nat → Tree → Except Fault ErrorCause)
    (readFailure : Nat → Tree → Except Fault ShardFailure) (room : Nat) :
    List (Slot (ErrorCause → ErrorCause)) :=
  let text := Tree.readOptional Tree.readText
  [change "type" text fun v c ↦ { c with kind := v },
    change "reason" text fun v c ↦ { c with reason := v },
    change "stack_trace" text fun v c ↦ { c with stackTrace := v },
    change "caused_by" (Tree.readOptional (readCause room)) fun v c ↦ { c with causedBy := v },
    change "root_cause" (Tree.readList room readCause) fun v c ↦ { c with rootCause := v },
    change "failed_shards" (Tree.readList room readFailure) fun v c ↦ { c with failedShards := v },
    change "index" text fun v c ↦ { c with index := v },
    change "index_uuid" text fun v c ↦ { c with indexUuid := v },
    change "shard" (readShard room) fun v c ↦ { c with shard := v },
    change "resource.id" (readOneOrMany room) fun v c ↦ { c with resourceId := v },
    change "resource.type" text fun v c ↦ { c with resourceType := v },
    change "script" text fun v c ↦ { c with script := v },
    change "script_stack" (Tree.readList room fun _ ↦ Tree.readText)
      fun v c ↦ { c with scriptStack := v },
    change "lang" text fun v c ↦ { c with lang := v },
    change "position" (Tree.readOptional (readPosition room)) fun v c ↦ { c with position := v },
    change "phase" text fun v c ↦ { c with phase := v },
    change "grouped" (Tree.readOptional Tree.readBool) fun v c ↦ { c with grouped := v },
    change "header" (Tree.readMap room fun room t ↦ t.toJson room) fun v c ↦ { c with header := v }]

/-- A cause, whose reading enters at most `room` containers, and at most `fuel` causes one inside
the other. -/
def readUpTo : (fuel room : Nat) → Tree → Except Fault ErrorCause
  | 0, _, _ => .error .malformed
  | fuel + 1, room, t => do
    let failure := readFailure fun room t ↦ readTextOr (readUpTo fuel room) room t
    let (changes, rest) ← readRecord room (slots (readUpTo fuel) failure) true t
    .ok { changes.foldl (fun c change ↦ change c) {} with metadata := rest }

/-- A cause. Every cause inside another stands in a container of its own, so the containers that may
be entered bound the causes too. -/
def read (room : Nat) (t : Tree) : Except Fault ErrorCause := readUpTo (room + 1) room t

/-- A shard failure. -/
def readShardFailure (room : Nat) (t : Tree) : Except Fault ShardFailure :=
  readFailure (fun room t ↦ readTextOr (read room) room t) room t

/-- A cause, or a text that is the reason of one. -/
def readCauseOrText (room : Nat) (t : Tree) : Except Fault ErrorCause :=
  readTextOr (read room) room t

/-- The cause that a document gives, however deep it is. -/
def ofJson (j : Json) : Except Fault ErrorCause := read j.depth j.toTree

/-! ### Writing -/

/-- A member that is there only if there is a value. -/
def optional {α : Type} (name : String) (write : α → Json) : Option α → List (String × Json)
  | none => []
  | some v => [(name, write v)]

/-- A member that is there only if the list has items. -/
def unlessEmpty {α : Type} (name : String) (write : List α → Json) : List α → List (String × Json)
  | [] => []
  | items => [(name, write items)]

/-- A list of texts. -/
def texts (items : List String) : Json := .array (items.map .string)

/-- A script position as a document. -/
def positionToJson (p : ScriptPosition) : Json :=
  .object [("offset", .integer p.offset), ("start", .integer p.start), ("end", .integer p.stop)]

mutual

/-- A cause as a document. What is missing or empty is left out. -/
def toJson : ErrorCause → Json
  | ⟨kind, reason, stackTrace, causedBy, rootCause, failedShards, index, indexUuid, shard,
      resourceId, resourceType, script, scriptStack, lang, position, phase, grouped, header,
      metadata⟩ =>
    .object <|
      optional "type" .string kind ++ optional "reason" .string reason ++
      optional "stack_trace" .string stackTrace ++
      (match causedBy with
        | none => []
        | some cause => [("caused_by", cause.toJson)]) ++
      unlessEmpty "root_cause" .array (causesToJson rootCause) ++
      unlessEmpty "failed_shards" .array (failuresToJson failedShards) ++
      optional "index" .string index ++ optional "index_uuid" .string indexUuid ++
      optional "shard" .string shard ++ unlessEmpty "resource.id" texts resourceId ++
      optional "resource.type" .string resourceType ++ optional "script" .string script ++
      unlessEmpty "script_stack" texts scriptStack ++ optional "lang" .string lang ++
      optional "position" positionToJson position ++ optional "phase" .string phase ++
      optional "grouped" .bool grouped ++ unlessEmpty "header" .object header ++ metadata

/-- Causes as documents. -/
def causesToJson : List ErrorCause → List Json
  | [] => []
  | cause :: causes => cause.toJson :: causesToJson causes

/-- Shard failures as documents. -/
def failuresToJson : List ShardFailure → List Json
  | [] => []
  | ⟨index, node, shard, status, reason⟩ :: failures =>
    .object (optional "index" .string index ++ optional "node" .string node ++
      optional "shard" .string shard ++ optional "status" .string status ++
      [("reason", reason.toJson)]) :: failuresToJson failures

end

/-- A shard failure as a document. -/
def failureToJson (f : ShardFailure) : Json :=
  .object (optional "index" .string f.index ++ optional "node" .string f.node ++
    optional "shard" .string f.shard ++ optional "status" .string f.status ++
    [("reason", f.reason.toJson)])

/-! ### Words -/

/-- The kind and reason of a cause, whichever there are. -/
def ownText (kind reason : Option String) : String :=
  match kind, reason with
  | some kind, some reason => kind ++ ": " ++ reason
  | some kind, none => kind
  | none, some reason => reason
  | none, none => "unknown error"

/-- The words of a cause, with those of the cause behind it in brackets. -/
def text : ErrorCause → String
  | ⟨kind, reason, _, causedBy, _, _, _, _, _, _, _, _, _, _, _, _, _, _, _⟩ =>
    match causedBy with
    | none => ownText kind reason
    | some inner => ownText kind reason ++ " (caused by: " ++ inner.text ++ ")"

/-- The cause at the end of the chain of causes. -/
def innermost : ErrorCause → ErrorCause
  | ⟨kind, reason, stackTrace, causedBy, rootCause, failedShards, index, indexUuid, shard,
      resourceId, resourceType, script, scriptStack, lang, position, phase, grouped, header,
      metadata⟩ =>
    match causedBy with
    | some inner => inner.innermost
    | none =>
      ⟨kind, reason, stackTrace, none, rootCause, failedShards, index, indexUuid, shard,
        resourceId, resourceType, script, scriptStack, lang, position, phase, grouped, header,
        metadata⟩

end ErrorCause

end SearchClient

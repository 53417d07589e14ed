import SearchClient.Proofs.ServerError.Changes

/-!
# Causes and their parts

What each part of a cause, of a shard failure and of a script position was read from, all at once
(`CauseRead`, `FailureRead`, `PositionRead`), and what is written at its place (`places`).
-/

set_option autoImplicit false
set_option relaxedAutoImplicit false

namespace SearchClient.ErrorCause

open Json

variable {fuel room : Nat} {t : Tree} {c : ErrorCause} {f : ShardFailure}

/-! ### Names -/

/-- The names of the slots of a cause. -/
def slotNames : List String :=
  ["type", "reason", "stack_trace", "caused_by", "root_cause", "failed_shards", "index",
    "index_uuid", "shard", "resource.id", "resource.type", "script", "script_stack", "lang",
    "position", "phase", "grouped", "header"]

theorem apart_slots (readCause : Nat → Tree → Except Fault ErrorCause)
    (readFailure : Nat → Tree → Except Fault ShardFailure) (room : Nat) :
    Apart (slots readCause readFailure room) where
  nodup := by
    change slotNames.Nodup
    decide
  single := by simp [slots, change]

theorem apart_shardSlots (readReason : Nat → Tree → Except Fault ErrorCause) (room : Nat) :
    Apart (shardSlots readReason room) where
  nodup := by
    change ["index", "node", "shard", "status", "reason"].Nodup
    decide
  single := by simp [shardSlots, change]

/-- The slot of an integer that has to be there. -/
def integerSlot (name : String) : Slot Int where
  name := name
  read := Tree.readInteger leastSigned greatestSigned
  missing := .required

/-- The slots of a script position. -/
def positionSlots : List (Slot Int) :=
  ["offset", "start", "end"].map integerSlot

theorem apart_positionSlots : Apart positionSlots where
  nodup := by
    change ["offset", "start", "end"].Nodup
    decide
  single := by simp [positionSlots, integerSlot]

/-! ### What was read -/

/-- A text that may be missing. -/
def optionalText : Tree → Except Fault (Option String) := Tree.readOptional Tree.readText

/-- The shard failures in a cause whose causes are read up to a depth. -/
def failureUpTo (fuel : Nat) : Nat → Tree → Except Fault ShardFailure :=
  readFailure fun room t ↦ readTextOr (readUpTo fuel room) room t

/-- The parts of a cause were read at their places in a tree. -/
structure CauseRead (fuel room : Nat) (t : Tree) (c : ErrorCause) : Prop where
  kind : Stands t 0 "type" optionalText none c.kind
  reason : Stands t 1 "reason" optionalText none c.reason
  stackTrace : Stands t 2 "stack_trace" optionalText none c.stackTrace
  causedBy : Stands t 3 "caused_by" (Tree.readOptional (readUpTo fuel room)) none c.causedBy
  rootCause : Stands t 4 "root_cause" (Tree.readList room (readUpTo fuel)) [] c.rootCause
  failedShards : Stands t 5 "failed_shards" (Tree.readList room (failureUpTo fuel)) []
    c.failedShards
  index : Stands t 6 "index" optionalText none c.index
  indexUuid : Stands t 7 "index_uuid" optionalText none c.indexUuid
  shard : Stands t 8 "shard" (readShard room) none c.shard
  resourceId : Stands t 9 "resource.id" (readOneOrMany room) [] c.resourceId
  resourceType : Stands t 10 "resource.type" optionalText none c.resourceType
  script : Stands t 11 "script" optionalText none c.script
  scriptStack : Stands t 12 "script_stack" (Tree.readList room fun _ ↦ Tree.readText) []
    c.scriptStack
  lang : Stands t 13 "lang" optionalText none c.lang
  position : Stands t 14 "position" (Tree.readOptional (readPosition room)) none c.position
  phase : Stands t 15 "phase" optionalText none c.phase
  grouped : Stands t 16 "grouped" (Tree.readOptional Tree.readBool) none c.grouped
  header : Stands t 17 "header" (Tree.readMap room fun room t ↦ t.toJson room) [] c.header

/-- The parts of a shard failure were read at their places in a tree. -/
structure FailureRead (readReason : Tree → Except Fault ErrorCause) (room : Nat) (t : Tree)
    (f : ShardFailure) : Prop where
  index : Stands t 0 "index" optionalText none f.index
  node : Stands t 1 "node" optionalText none f.node
  shard : Stands t 2 "shard" (readShard room) none f.shard
  status : Stands t 3 "status" optionalText none f.status
  reason : Stands t 4 "reason" readReason {} f.reason

/-- The slots of a cause were read with its metadata, and each of its other parts was read at its
place. The slots are taken one by one in their order. -/
theorem causeRead_of_readUpTo (h : readUpTo (fuel + 1) room t = .ok c) :
    ∃ inner changes, room = inner + 1 ∧ CauseRead fuel inner t c ∧
      readRecord room (slots (readUpTo fuel) (failureUpTo fuel)) true t =
        .ok (changes, c.metadata) := by
  obtain ⟨⟨changes, rest⟩, hrecord, hcause⟩ := bind_eq_ok.mp h
  obtain ⟨inner, rfl, hplaced⟩ := placed_of_readRecord (apart_slots _ _) hrecord
  obtain rfl := Except.ok.inj hcause
  refine ⟨inner, changes, rfl, ?_, hrecord⟩
  have h : Builds t 0 (slots (readUpTo fuel) (failureUpTo fuel) inner) {} _ :=
    ⟨changes, hplaced, rfl⟩
  obtain ⟨kind, hkind, h⟩ := h.change rfl
  obtain ⟨reason, hreason, h⟩ := h.change rfl
  obtain ⟨stackTrace, hstackTrace, h⟩ := h.change rfl
  obtain ⟨causedBy, hcausedBy, h⟩ := h.change rfl
  obtain ⟨rootCause, hrootCause, h⟩ := h.change rfl
  obtain ⟨failedShards, hfailedShards, h⟩ := h.change rfl
  obtain ⟨index, hindex, h⟩ := h.change rfl
  obtain ⟨indexUuid, hindexUuid, h⟩ := h.change rfl
  obtain ⟨shard, hshard, h⟩ := h.change rfl
  obtain ⟨resourceId, hresourceId, h⟩ := h.change rfl
  obtain ⟨resourceType, hresourceType, h⟩ := h.change rfl
  obtain ⟨script, hscript, h⟩ := h.change rfl
  obtain ⟨scriptStack, hscriptStack, h⟩ := h.change rfl
  obtain ⟨lang, hlang, h⟩ := h.change rfl
  obtain ⟨position, hposition, h⟩ := h.change rfl
  obtain ⟨phase, hphase, h⟩ := h.change rfl
  obtain ⟨grouped, hgrouped, h⟩ := h.change rfl
  obtain ⟨header, hheader, h⟩ := h.change rfl
  rw [← h.done]
  exact ⟨hkind, hreason, hstackTrace, hcausedBy, hrootCause, hfailedShards, hindex, hindexUuid,
    hshard, hresourceId, hresourceType, hscript, hscriptStack, hlang, hposition, hphase, hgrouped,
    hheader⟩

theorem failureRead_of_readFailure {readReason : Nat → Tree → Except Fault ErrorCause}
    (h : readFailure readReason room t = .ok f) :
    ∃ inner, room = inner + 1 ∧ FailureRead (readReason inner) inner t f := by
  obtain ⟨⟨changes, rest⟩, hrecord, hfailure⟩ := bind_eq_ok.mp h
  obtain ⟨inner, rfl, hplaced⟩ := placed_of_readRecord (apart_shardSlots _) hrecord
  refine ⟨inner, rfl, ?_⟩
  have h : Builds t 0 (shardSlots readReason inner) { reason := {} } f :=
    ⟨changes, hplaced, Except.ok.inj hfailure⟩
  obtain ⟨index, hindex, h⟩ := h.change rfl
  obtain ⟨node, hnode, h⟩ := h.change rfl
  obtain ⟨shard, hshard, h⟩ := h.change rfl
  obtain ⟨status, hstatus, h⟩ := h.change rfl
  obtain ⟨reason, hreason, h⟩ := h.change rfl
  obtain rfl := h.done
  exact ⟨hindex, hnode, hshard, hstatus, hreason⟩

/-- An integer was read at its place, where there has to be one. -/
structure IntegerRead (t : Tree) (i : Nat) (name : String) (value : Int) : Prop where
  found : ∀ p, t.Part i name p → p.readInteger leastSigned greatestSigned = .ok value
  present : ∃ p, t.Part i name p

theorem integerRead_of_placed {i : Nat} {name : String} {slots : List (Slot Int)} {value : Int}
    {values : List Int} (h : Placed t i (integerSlot name :: slots) (value :: values)) :
    IntegerRead t i name value ∧ Placed t (i + 1) slots values := by
  cases h with
  | cons _ hread hmissing hrest =>
    refine ⟨⟨hread, Classical.byContradiction fun hnone ↦ ?_⟩, hrest⟩
    obtain hmissing | hmissing := hmissing (not_exists.mp hnone)
    · cases hmissing
    · cases hmissing

/-- The parts of a script position were read at their places in a tree. -/
structure PositionRead (t : Tree) (p : ScriptPosition) : Prop where
  offset : IntegerRead t 0 "offset" p.offset
  start : IntegerRead t 1 "start" p.start
  stop : IntegerRead t 2 "end" p.stop

theorem positionRead_of_readPosition {p : ScriptPosition} (h : readPosition room t = .ok p) :
    PositionRead t p := by
  obtain ⟨⟨values, rest⟩, hrecord, hposition⟩ := bind_eq_ok.mp h
  obtain ⟨_, -, hplaced⟩ := placed_of_readRecord (fun _ ↦ apart_positionSlots) hrecord
  have hplaced : Placed t 0 positionSlots values := hplaced
  match values, hplaced with
  | [offset, start, stop], hplaced =>
    obtain rfl := Except.ok.inj hposition
    obtain ⟨hoffset, hplaced⟩ := integerRead_of_placed hplaced
    obtain ⟨hstart, hplaced⟩ := integerRead_of_placed hplaced
    obtain ⟨hstop, -⟩ := integerRead_of_placed hplaced
    exact ⟨hoffset, hstart, hstop⟩

/-! ### What is written -/

/-- What is written of a cause at its places. -/
def places (c : ErrorCause) : List (String × Option Json) :=
  [("type", c.kind.map .string), ("reason", c.reason.map .string),
    ("stack_trace", c.stackTrace.map .string), ("caused_by", c.causedBy.map toJson),
    ("root_cause", listed (fun causes ↦ .array (causes.map toJson)) c.rootCause),
    ("failed_shards", listed (fun failures ↦ .array (failures.map failureToJson)) c.failedShards),
    ("index", c.index.map .string), ("index_uuid", c.indexUuid.map .string),
    ("shard", c.shard.map .string), ("resource.id", listed texts c.resourceId),
    ("resource.type", c.resourceType.map .string), ("script", c.script.map .string),
    ("script_stack", listed texts c.scriptStack), ("lang", c.lang.map .string),
    ("position", c.position.map positionToJson), ("phase", c.phase.map .string),
    ("grouped", c.grouped.map .bool), ("header", listed .object c.header)]

/-- What is written of a shard failure at its places. -/
def failurePlaces (f : ShardFailure) : List (String × Option Json) :=
  [("index", f.index.map .string), ("node", f.node.map .string), ("shard", f.shard.map .string),
    ("status", f.status.map .string), ("reason", some f.reason.toJson)]

/-- What is written of a script position at its places. -/
def positionPlaces (p : ScriptPosition) : List (String × Option Json) :=
  [("offset", some (.integer p.offset)), ("start", some (.integer p.start)),
    ("end", some (.integer p.stop))]

theorem optional_eq_filled {α : Type} (name : String) (write : α → Json) (value : Option α) :
    optional name write value = filled [(name, value.map write)] := by
  cases value <;> rfl

theorem unlessEmpty_eq_filled {α : Type} (name : String) (write : List α → Json) (items : List α) :
    unlessEmpty name write items = filled [(name, listed write items)] := by
  cases items <;> rfl

theorem causesToJson_eq_map (causes : List ErrorCause) :
    causesToJson causes = causes.map toJson := by
  induction causes with
  | nil => rfl
  | cons cause causes ih => rw [causesToJson, ih, List.map_cons]

theorem failuresToJson_eq_map (failures : List ShardFailure) :
    failuresToJson failures = failures.map failureToJson := by
  induction failures with
  | nil => rfl
  | cons f failures ih =>
    obtain ⟨index, node, shard, status, reason⟩ := f
    rw [failuresToJson, ih, List.map_cons, failureToJson]

theorem listed_map {α β : Type} (write : List β → Json) (f : α → β) (items : List α) :
    listed write (items.map f) = listed (fun items ↦ write (items.map f)) items := by
  cases items <;> rfl

theorem toJson_eq (c : ErrorCause) : c.toJson = .object (filled c.places ++ c.metadata) := by
  obtain ⟨kind, reason, stackTrace, causedBy, rootCause, failedShards, index, indexUuid, shard,
    resourceId, resourceType, script, scriptStack, lang, position, phase, grouped, header,
    metadata⟩ := c
  have hplaces : toJson ⟨kind, reason, stackTrace, causedBy, rootCause, failedShards, index,
      indexUuid, shard, resourceId, resourceType, script, scriptStack, lang, position, phase,
      grouped, header, metadata⟩ = .object (
        optional "type" .string kind ++ optional "reason" .string reason ++
        optional "stack_trace" .string stackTrace ++ optional "caused_by" toJson causedBy ++
        unlessEmpty "root_cause" .array (causesToJson rootCause) ++
        unlessEmpty "failed_shards" .array (failuresToJson failedShards) ++
        optional "index" .string index ++ optional "index_uuid" .string indexUuid ++
        optional "shard" .string shard ++ unlessEmpty "resource.id" texts resourceId ++
        optional "resource.type" .string resourceType ++ optional "script" .string script ++
        unlessEmpty "script_stack" texts scriptStack ++ optional "lang" .string lang ++
        optional "position" positionToJson position ++ optional "phase" .string phase ++
        optional "grouped" .bool grouped ++ unlessEmpty "header" .object header ++ metadata) := by
    cases causedBy <;> rfl
  rw [hplaces, causesToJson_eq_map, failuresToJson_eq_map]
  simp only [optional_eq_filled, unlessEmpty_eq_filled, listed_map, ← filled_append,
    List.cons_append, List.nil_append, places]

theorem failureToJson_eq (f : ShardFailure) :
    failureToJson f = .object (filled (failurePlaces f)) := by
  have hreason : [("reason", f.reason.toJson)] = filled [("reason", some f.reason.toJson)] := rfl
  rw [failureToJson, hreason]
  simp only [optional_eq_filled, ← filled_append, List.cons_append, List.nil_append, failurePlaces]

theorem positionToJson_eq (p : ScriptPosition) :
    positionToJson p = .object (filled (positionPlaces p)) :=
  rfl

end SearchClient.ErrorCause

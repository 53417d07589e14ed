import SearchClient.Proofs.ServerError.Parts

/-!
# Causes that are written and read again

A cause that was read is settled, with all causes in it: its integers are within bounds, and its
metadata and header are in order and away from the names of slots (`settled_of_readUpTo`). A settled
cause is read back from what is written of it, if it is entered deep enough (`readUpTo_toJson`).
Both are inductions on how many causes may stand one inside the other. Together they say that a
cause that was read once is read again as it is.
-/

set_option autoImplicit false
set_option relaxedAutoImplicit false

namespace SearchClient.ErrorCause

open Json

variable {fuel room : Nat} {t : Tree} {c : ErrorCause}

/-! ### Settled causes -/

/-- Integers of sixty-four bits. -/
def InRange (p : ScriptPosition) : Prop :=
  ∀ i ∈ [p.offset, p.start, p.stop], leastSigned ≤ i ∧ i ≤ greatestSigned

/-- A cause that is read as it was written, and so are the causes in it. -/
inductive Settled : ErrorCause → Prop
  | intro {c : ErrorCause} (causedBy : ∀ cause, c.causedBy = some cause → Settled cause)
      (rootCause : ∀ cause ∈ c.rootCause, Settled cause)
      (failedShards : ∀ f ∈ c.failedShards, Settled f.reason)
      (position : ∀ p, c.position = some p → InRange p)
      (header : Tidy [] c.header) (metadata : Tidy slotNames c.metadata) : Settled c

theorem settled_reason (reason : Option String) : Settled { reason := reason } :=
  .intro nofun nofun nofun nofun .nil .nil

theorem IntegerRead.bounds {i : Nat} {name : String} {value : Int}
    (h : IntegerRead t i name value) : leastSigned ≤ value ∧ value ≤ greatestSigned := by
  obtain ⟨p, hp⟩ := h.present
  have hread := h.found p hp
  unfold Tree.readInteger at hread
  split at hread
  · split at hread
    · rename_i hbounds
      obtain rfl := Except.ok.inj hread
      exact hbounds
    · cases hread
  · cases hread

theorem PositionRead.inRange {p : ScriptPosition} (h : PositionRead t p) : InRange p := by
  intro i hi
  simp only [List.mem_cons, List.not_mem_nil, or_false] at hi
  obtain rfl | rfl | rfl := hi
  · exact h.offset.bounds
  · exact h.start.bounds
  · exact h.stop.bounds

theorem settled_of_readTextOr {readCause : Tree → Except Fault ErrorCause}
    (hcause : ∀ {c}, readCause t = .ok c → Settled c) (h : readTextOr readCause room t = .ok c) :
    Settled c := by
  obtain ⟨j, -, h⟩ := bind_eq_ok.mp h
  split at h
  · obtain rfl := Except.ok.inj h
    exact settled_reason _
  · exact hcause h

/-- A cause that was read is settled. -/
theorem settled_of_readUpTo (h : readUpTo fuel room t = .ok c) : Settled c := by
  induction fuel generalizing room t c with
  | zero => cases h
  | succ fuel ih =>
    obtain ⟨inner, changes, rfl, hread, hrecord⟩ := causeRead_of_readUpTo h
    have hreason {inner : Nat} {t : Tree} {f : ShardFailure}
        (hf : failureUpTo fuel inner t = .ok f) : Settled f.reason := by
      obtain ⟨inner, -, hfailure⟩ := failureRead_of_readFailure hf
      obtain hblank | ⟨p, hp⟩ := hfailure.reason.blank_or_read
      · exact hblank ▸ settled_reason none
      · exact settled_of_readTextOr ih hp
    refine .intro (fun cause hcause ↦ ?_) (fun cause hmem ↦ ?_) (fun f hmem ↦ ?_)
      (fun p hp ↦ ?_) ?_ ?_
    · obtain ⟨p, hp⟩ := hread.causedBy.exists_read hcause
      exact ih hp
    · obtain ⟨_, p, hp⟩ := hread.rootCause.exists_item_read cause hmem
      exact ih hp
    · obtain ⟨_, p, hp⟩ := hread.failedShards.exists_item_read f hmem
      exact hreason hp
    · obtain ⟨t, ht⟩ := hread.position.exists_read hp
      exact (positionRead_of_readPosition ht).inRange
    · obtain hblank | ⟨p, hp⟩ := hread.header.blank_or_read
      · exact hblank ▸ .nil
      · exact tidy_of_readMap hp
    · obtain ⟨_, -, htidy⟩ := tidy_of_readRecord (apart_slots _ _) hrecord
      exact htidy

/-! ### What is written is read back -/

theorem readList_written {α : Type} {read : Nat → Tree → Except Fault α} {write : α → Json}
    {items : List α} (hdepth : (Json.array (items.map write)).depth ≤ room)
    (hread : ∀ item ∈ items, ∀ inner, (write item).depth ≤ inner →
      (write item).depth < (Json.array (items.map write)).depth →
        read inner (write item).toTree = .ok item) :
    (Json.array (items.map write)).toTree.readList room read = .ok items := by
  obtain ⟨inner, rfl, hdepths⟩ := array_depth_le.mp hdepth
  refine readList_toTree.mpr ⟨_, inner, rfl, rfl, List.forall₂_map_left_iff.mpr ?_⟩
  refine List.forall₂_same.mpr fun item hmem ↦ ?_
  have hwritten := List.mem_map_of_mem (f := write) hmem
  exact hread item hmem inner (hdepths _ hwritten) (depth_lt_array hwritten)

theorem readTexts_written {items : List String} (hdepth : (texts items).depth ≤ room) :
    (texts items).toTree.readList room (fun _ ↦ Tree.readText) = .ok items :=
  readList_written hdepth fun _ _ _ _ _ ↦ readText_toTree.mpr rfl

theorem readOneOrMany_texts {items : List String} (hdepth : (texts items).depth ≤ room) :
    readOneOrMany room (texts items).toTree = .ok items := by
  have hjson : (texts items).toTree.toJson room = .ok (texts items).sorted := by
    rw [toJson_toTree, if_pos hdepth]
  refine bind_eq_ok.mpr ⟨_, hjson, ?_⟩
  exact readTexts_written hdepth

theorem readHeader_written {header : List (String × Json)} (h : Tidy [] header)
    (hdepth : (Json.object header).depth ≤ room) :
    (Json.object header).toTree.readMap room (fun room t ↦ t.toJson room) = .ok header := by
  obtain ⟨inner, rfl, hdepths⟩ := object_depth_le.mp hdepth
  refine readMap_toTree.mpr ⟨header, inner, rfl, rfl, membersDepth_le.mpr hdepths, ?_⟩
  rw [sortedMembers_of_forall h.sorted, sortMembers_of_inOrder h.order]

theorem readPosition_written {p : ScriptPosition} (h : InRange p)
    (hdepth : (positionToJson p).depth ≤ room) :
    readPosition room (positionToJson p).toTree = .ok p := by
  rw [positionToJson_eq] at hdepth ⊢
  obtain ⟨inner, rfl, -⟩ := object_depth_le.mp hdepth
  have hinteger (i : Int) (hi : i ∈ [p.offset, p.start, p.stop]) :
      (Json.integer i).toTree.readInteger leastSigned greatestSigned = .ok i :=
    readInteger_toTree.mpr ⟨rfl, h i hi⟩
  have hslots : Rereads positionSlots (positionPlaces p) [p.offset, p.start, p.stop] :=
    .written (hinteger p.offset (by simp)) (.written (hinteger p.start (by simp))
      (.written (hinteger p.stop (by simp)) .nil))
  exact bind_eq_ok.mpr ⟨([p.offset, p.start, p.stop], []),
    readRecord_filled apart_positionSlots hslots, rfl⟩

theorem readTextOr_written {readCause : Tree → Except Fault ErrorCause}
    (hread : readCause c.toJson.toTree = .ok c) (hdepth : c.toJson.depth ≤ room) :
    readTextOr readCause room c.toJson.toTree = .ok c := by
  have hjson : c.toJson.toTree.toJson room = .ok c.toJson.sorted := by
    rw [toJson_toTree, if_pos hdepth]
  rw [toJson_eq] at hjson
  rw [toJson_eq] at hread ⊢
  exact bind_eq_ok.mpr ⟨_, hjson, hread⟩

theorem readFailure_written {readReason : Nat → Tree → Except Fault ErrorCause} {f : ShardFailure}
    (hreason : ∀ inner, f.reason.toJson.depth ≤ inner →
      f.reason.toJson.depth < (failureToJson f).depth →
        readReason inner f.reason.toJson.toTree = .ok f.reason)
    (hdepth : (failureToJson f).depth ≤ room) :
    readFailure readReason room (failureToJson f).toTree = .ok f := by
  rw [failureToJson_eq] at hdepth hreason ⊢
  obtain ⟨inner, rfl, hdepths⟩ := object_depth_le.mp hdepth
  have hmem : ("reason", f.reason.toJson) ∈ filled (failurePlaces f) :=
    mem_filled (by simp [failurePlaces])
  have hread := hreason inner (hdepths _ hmem) (depth_lt_object hmem)
  have hrestores : Restores (shardSlots readReason inner) (failurePlaces f) { reason := {} } f := by
    obtain ⟨index, node, shard, status, reason⟩ := f
    refine Restores.text ?_ rfl
    refine Restores.text ?_ rfl
    refine Restores.shard ?_ rfl
    refine Restores.text ?_ rfl
    refine Restores.always ?_ hread
    exact .done
  obtain ⟨changes, hrereads, hchanged⟩ := hrestores
  exact bind_eq_ok.mpr ⟨_, readRecord_filled (apart_shardSlots _ _) hrereads, congrArg _ hchanged⟩

theorem toJson_ne_null (c : ErrorCause) : c.toJson ≠ .null := by
  rw [toJson_eq]
  exact nofun

/-- What is written of the parts of a cause that are not mere texts is read back. -/
structure ReadBack (fuel room : Nat) (c : ErrorCause) : Prop where
  causedBy : ∀ cause, c.causedBy = some cause →
    cause.toJson ≠ .null ∧ readUpTo fuel room cause.toJson.toTree = .ok cause
  rootCause : ∀ j, listed (fun causes ↦ .array (causes.map toJson)) c.rootCause = some j →
    j.toTree.readList room (readUpTo fuel) = .ok c.rootCause
  failedShards : ∀ j,
    listed (fun failures ↦ .array (failures.map failureToJson)) c.failedShards = some j →
    j.toTree.readList room (failureUpTo fuel) = .ok c.failedShards
  resourceId : ∀ j, listed texts c.resourceId = some j →
    readOneOrMany room j.toTree = .ok c.resourceId
  scriptStack : ∀ j, listed texts c.scriptStack = some j →
    j.toTree.readList room (fun _ ↦ Tree.readText) = .ok c.scriptStack
  position : ∀ p, c.position = some p →
    positionToJson p ≠ .null ∧ readPosition room (positionToJson p).toTree = .ok p
  header : ∀ j, listed .object c.header = some j →
    j.toTree.readMap room (fun room t ↦ t.toJson room) = .ok c.header

/-- The slots of a cause restore it, one by one in their order, without its metadata. -/
theorem ReadBack.restores (h : ReadBack fuel room c) :
    Restores (slots (readUpTo fuel) (failureUpTo fuel) room) c.places {}
      { c with metadata := [] } := by
  obtain ⟨hcausedBy, hrootCause, hfailedShards, hresourceId, hscriptStack, hposition, hheader⟩ := h
  obtain ⟨kind, reason, stackTrace, causedBy, rootCause, failedShards, index, indexUuid, shard,
    resourceId, resourceType, script, scriptStack, lang, position, phase, grouped, header,
    metadata⟩ := c
  refine Restores.text ?_ rfl
  refine Restores.text ?_ rfl
  refine Restores.text ?_ rfl
  refine Restores.optional ?_ hcausedBy rfl
  refine Restores.listed ?_ hrootCause rfl
  refine Restores.listed ?_ hfailedShards rfl
  refine Restores.text ?_ rfl
  refine Restores.text ?_ rfl
  refine Restores.shard ?_ rfl
  refine Restores.listed ?_ hresourceId rfl
  refine Restores.text ?_ rfl
  refine Restores.text ?_ rfl
  refine Restores.listed ?_ hscriptStack rfl
  refine Restores.text ?_ rfl
  refine Restores.optional ?_ hposition rfl
  refine Restores.text ?_ rfl
  refine Restores.optional ?_ (fun b _ ↦ ⟨nofun, readBool_toTree.mpr rfl⟩) rfl
  refine Restores.listed ?_ hheader rfl
  exact .done

/-- What is written of a settled cause is read back, if that of the causes in it is. -/
theorem Settled.readBack (hc : Settled c)
    (hdepth : ∀ name j, (name, some j) ∈ c.places → j.depth ≤ room ∧ j.depth < fuel)
    (hcauses : ∀ {c room}, Settled c → c.toJson.depth ≤ room → c.toJson.depth < fuel →
      readUpTo fuel room c.toJson.toTree = .ok c) : ReadBack fuel room c := by
  have hlisted {α : Type} {write : List α → Json} {items : List α} (name : String) {j : Json}
      (hplace : (name, listed write items) ∈ c.places) (hj : listed write items = some j) :
      j = write items ∧ (write items).depth ≤ room ∧ (write items).depth < fuel := by
    cases items with
    | nil => cases hj
    | cons item items => exact ⟨(Option.some.inj hj).symm, hdepth name _ hplace⟩
  obtain ⟨hcausedBy, hrootCause, hfailedShards, hposition, hheader, -⟩ := hc
  refine ⟨fun cause hcause ↦ ⟨toJson_ne_null cause, ?_⟩, fun j hj ↦ ?_, fun j hj ↦ ?_,
    fun j hj ↦ ?_, fun j hj ↦ ?_, fun p hp ↦ ⟨nofun, ?_⟩, fun j hj ↦ ?_⟩
  · obtain ⟨hroom, hfuel⟩ := hdepth "caused_by" cause.toJson (by simp [places, hcause])
    exact hcauses (hcausedBy cause hcause) hroom hfuel
  · obtain ⟨rfl, hroom, hfuel⟩ := hlisted "root_cause" (by simp [places]) hj
    exact readList_written hroom fun cause hmem _ hinner hlt ↦
      hcauses (hrootCause cause hmem) hinner (Nat.lt_trans hlt hfuel)
  · obtain ⟨rfl, hroom, hfuel⟩ := hlisted "failed_shards" (by simp [places]) hj
    refine readList_written hroom fun f hmem _ hinner hlt ↦ ?_
    refine readFailure_written (fun _ hinner hlt' ↦ ?_) hinner
    have hreason := hcauses (hfailedShards f hmem) hinner
    exact readTextOr_written (hreason (Nat.lt_trans hlt' (Nat.lt_trans hlt hfuel))) hinner
  · obtain ⟨rfl, hroom, -⟩ := hlisted "resource.id" (by simp [places]) hj
    exact readOneOrMany_texts hroom
  · obtain ⟨rfl, hroom, -⟩ := hlisted "script_stack" (by simp [places]) hj
    exact readTexts_written hroom
  · obtain ⟨hroom, -⟩ := hdepth "position" (positionToJson p) (by simp [places, hp])
    exact readPosition_written (hposition p hp) hroom
  · obtain ⟨rfl, hroom, -⟩ := hlisted "header" (by simp [places]) hj
    exact readHeader_written hheader hroom

/-- A settled cause is read back from what is written of it. The induction is on the causes that may
stand one inside the other. -/
theorem readUpTo_toJson (hc : Settled c) (hroom : c.toJson.depth ≤ room)
    (hfuel : c.toJson.depth < fuel) : readUpTo fuel room c.toJson.toTree = .ok c := by
  induction fuel generalizing room c with
  | zero => exact absurd hfuel (Nat.not_lt_zero _)
  | succ fuel ih =>
    rw [toJson_eq] at hroom hfuel ⊢
    obtain ⟨inner, rfl, hdepths⟩ := object_depth_le.mp hroom
    obtain ⟨height, hheight, hheights⟩ := object_depth_le.mp (Nat.le_of_lt_succ hfuel)
    have hdepth (name : String) (j : Json) (hj : (name, some j) ∈ c.places) :
        j.depth ≤ inner ∧ j.depth < fuel := by
      have hmem := List.mem_append_left c.metadata (mem_filled hj)
      exact ⟨hdepths _ hmem, hheight ▸ Nat.lt_succ_of_le (hheights _ hmem)⟩
    obtain ⟨changes, hrereads, hchanged⟩ := (hc.readBack hdepth ih).restores
    have hmetadata : Tidy slotNames c.metadata := by
      cases hc with
      | intro _ _ _ _ _ hmetadata => exact hmetadata
    have hrest : membersDepth c.metadata ≤ inner :=
      membersDepth_le.mpr fun m hm ↦ hdepths m (List.mem_append_right _ hm)
    have hrecord := readRecord_toTree (apart_slots (readUpTo fuel) (failureUpTo fuel) inner)
      hrereads hmetadata hrest (.inl rfl)
    refine bind_eq_ok.mpr ⟨_, hrecord, ?_⟩
    show Except.ok { changes.foldl (fun c change ↦ change c) {} with
      metadata := c.metadata } = .ok c
    rw [hchanged]
    cases c
    rfl

/-- A cause that was read, from a text or from a document, is read again from what is written of it,
and then the same is written of it again. -/
theorem ofJson_toJson_of_read (h : read room t = .ok c) :
    ofJson c.toJson = .ok c ∧ (ofJson c.toJson).map toJson = .ok c.toJson := by
  have hagain : ofJson c.toJson = .ok c :=
    readUpTo_toJson (settled_of_readUpTo h) (Nat.le_refl _) (Nat.lt_succ_self _)
  refine ⟨hagain, ?_⟩
  rw [hagain]
  rfl

/-- A failed search: a cause behind a cause, a failed shard with a number and a mere text for its
reason, one resource for a list, and members without a place. -/
def failedSearch : Json :=
  .object [("type", .string "search_phase_execution_exception"), ("grouped", .bool true),
    ("bytes_wanted", .integer 1024), ("resource.id", .string "logs"),
    ("root_cause", .array [.object [("shard", .integer 3), ("position",
      .object [("offset", .integer 4), ("start", .integer 0), ("end", .integer 9)])]]),
    ("failed_shards", .array [.object [("shard", .integer 0), ("reason", .string "gone")]]),
    ("caused_by", .object [("reason", .string "no field"), ("caused_by",
      .object [("reason", .null), ("header", .object [("b", .null), ("a", .array [])])])])]

/-- What is read of the failed search. -/
def failedSearchRead : ErrorCause where
  kind := some "search_phase_execution_exception"
  causedBy := some {
    reason := some "no field"
    causedBy := some { header := [("a", .array []), ("b", .null)] } }
  rootCause := [{ shard := some "3", position := some ⟨4, 0, 9⟩ }]
  failedShards := [{ shard := some "0", reason := { reason := some "gone" } }]
  resourceId := ["logs"]
  grouped := some true
  metadata := [("bytes_wanted", .integer 1024)]

theorem ofJson_toJson_of_failedSearch :
    ofJson failedSearch = .ok failedSearchRead ∧
      ofJson failedSearchRead.toJson = .ok failedSearchRead ∧
      (ofJson failedSearchRead.toJson).map toJson = .ok failedSearchRead.toJson := by
  have hread : read failedSearch.depth failedSearch.toTree = .ok failedSearchRead := rfl
  exact ⟨hread, ofJson_toJson_of_read hread⟩

end SearchClient.ErrorCause

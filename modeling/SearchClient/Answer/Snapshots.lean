import SearchClient.Answer.Shards

/-!
# Answers about snapshots and their repositories
-/

set_option autoImplicit false
set_option relaxedAutoImplicit false

namespace SearchClient.Answer

open Shape

/-- A repository. -/
def repository : Shape := fields [need "type" .text, field "settings" .any]

/-- The nodes that can reach a repository. -/
def verified : Shape := fields [field "nodes" (.map (fields [need "name" .text]))]

/-- What has been removed from a repository. -/
def cleaned : Shape :=
  fields [need "results" (fields [field "deleted_bytes" count, field "deleted_blobs" count])]

/-- A snapshot. -/
def snapshotInfo : Shape :=
  fields [need "snapshot" .text, maybe "uuid" .text, maybe "version_id" signed,
    maybe "version" .text, field "indices" (.list .text), field "data_streams" (.list .text),
    maybe "include_global_state" .boolean, maybe "state" .text,
    maybe "start_time" (.moment .text), maybe "start_time_in_millis" (.moment .epochMillis),
    maybe "end_time" (.moment .text), maybe "end_time_in_millis" (.moment .epochMillis),
    maybe "duration_in_millis" count, field "failures" (.list .any),
    maybe "shards" shardStatistics, maybe "metadata" .any]

/-- A snapshot that has been begun, or made. -/
def snapshotCreated : Shape := fields [maybe "accepted" .boolean, maybe "snapshot" snapshotInfo]

/-- Snapshots. -/
def snapshots : Shape := fields [field "snapshots" (.list snapshotInfo)]

/-- A snapshot that is being restored. -/
def restored : Shape :=
  fields [maybe "accepted" .boolean,
    maybe "snapshot" (fields [need "snapshot" .text, field "indices" (.list .text),
      field "shards" shardStatistics])]

/-- How many shards of a snapshot are at which stage. -/
def shardStages : Shape :=
  fields [field "initializing" count, field "started" count, field "finalizing" count,
    field "done" count, field "failed" count, field "total" count]

/-- Files and their size. -/
def fileFigures : Shape := fields [field "file_count" count, field "size_in_bytes" count]

/-- How far a snapshot has come. -/
def snapshotStatus : Shape :=
  fields [need "snapshot" .text, need "repository" .text, maybe "uuid" .text, need "state" .text,
    maybe "include_global_state" .boolean, field "shards_stats" shardStages,
    field "stats" (fields [field "incremental" fileFigures, field "total" fileFigures,
      maybe "start_time_in_millis" (.moment .epochMillis), field "time_in_millis" count]),
    field "indices" (.map .any)]

/-- How far snapshots have come. -/
def snapshotStatuses : Shape := fields [field "snapshots" (.list snapshotStatus)]

/-- The part of its shards that a snapshot is done with, be it in failure. -/
def progress (status : Document) : Binary64 :=
  let stages := (status.get? "shards_stats").getD .null
  if stages.countOf "total" = 0 then .zero false
  else .ofNat (stages.countOf "done" + stages.countOf "failed") / .ofNat (stages.countOf "total")

/-- Whether a snapshot will not change any more. -/
def isFinished (status : Document) : Bool :=
  ["SUCCESS", "FAILED", "ABORTED", "PARTIAL"].contains (status.textOf "state")

end SearchClient.Answer

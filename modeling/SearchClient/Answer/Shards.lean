import SearchClient.Document.Shape

/-!
# Answers about shards and writes

What many answers have in common: how many shards and nodes took part, whether a change was
acknowledged, and what became of a single document.
-/

set_option autoImplicit false
set_option relaxedAutoImplicit false

namespace SearchClient.Answer

open Shape

/-- The cluster has heard of the change. -/
def acknowledged : Shape := fields [field "acknowledged" .boolean]

/-- The cluster, and the shards, have heard of the change. -/
def shardsAcknowledged : Shape :=
  fields [field "acknowledged" .boolean, field "shards_acknowledged" .boolean, maybe "index" .text]

/-- How many shards took part, and which of them failed. -/
def shardStatistics : Shape :=
  fields [field "total" count, field "successful" count, field "failed" count,
    maybe "skipped" count, unlessEmpty "failures" (.list .shardFailure)]

/-- How many nodes took part. -/
def nodeStatistics : Shape :=
  fields [field "total" count, field "successful" count, field "failed" count]

/-- What became of a document that was written. -/
def write : Shape :=
  fields [need "_index" .text, need "_id" .text, maybe "_version" signed, maybe "result" .text,
    maybe "_shards" shardStatistics, maybe "_seq_no" signed, maybe "_primary_term" signed,
    maybe "forced_refresh" .boolean]

end SearchClient.Answer

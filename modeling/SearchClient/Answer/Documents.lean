import SearchClient.Answer.Shards

/-!
# Answers about documents

Reading, counting and searching documents, and many writes at once. The shape of a source is a
parameter: any document, or its own spelling.
-/

set_option autoImplicit false
set_option relaxedAutoImplicit false

namespace SearchClient.Answer

open Shape

/-- Who the cluster is and which version it runs. -/
def info : Shape :=
  fields [need "name" .text, need "cluster_name" .text, maybe "cluster_uuid" .text,
    need "version" (fields [maybe "distribution" .text, need "number" .text,
      maybe "build_type" .text, maybe "build_hash" .text, maybe "build_date" (.moment .text),
      field "build_snapshot" .boolean, maybe "lucene_version" .text,
      maybe "minimum_wire_compatibility_version" .text,
      maybe "minimum_index_compatibility_version" .text]),
    maybe "tagline" .text]

/-- One document. -/
def document (source : Shape) : Shape :=
  fields [need "_index" .text, need "_id" .text, maybe "_version" signed, maybe "_seq_no" signed,
    maybe "_primary_term" signed, maybe "_routing" .text, field "found" .boolean,
    maybe "_source" source, maybe "fields" .any]

/-- How many documents there are. -/
def counted : Shape := fields [need "count" count, field "_shards" shardStatistics]

/-- How many documents a search has found, and whether that count is exact. -/
def totalHits : Shape :=
  fields [need "value" count,
    ({ name := "relation", absent := .value (.string "eq") }, .oneOf ["eq", "gte"])]

/-- One document that a search has found. -/
def hit (source : Shape) : Shape :=
  fields [need "_index" .text, need "_id" .text, maybe "_score" .float, maybe "_routing" .text,
    maybe "_source" source, maybe "sort" (.list .any), maybe "fields" .any, maybe "highlight" .any]

/-- What a search has found. -/
def search (source : Shape) : Shape :=
  fields [field "took" count, field "timed_out" .boolean, field "_shards" shardStatistics,
    need "hits" (fields [maybe "total" totalHits, maybe "max_score" .float,
      field "hits" (.list (hit source))]),
    maybe "aggregations" .any, maybe "_scroll_id" .text]

/-- What became of one of many writes. -/
def bulkItem : Shape :=
  fields [maybe "_index" .text, maybe "_id" .text, maybe "_version" signed, maybe "result" .text,
    need "status" (.integer 0 65535), maybe "error" .cause, maybe "_shards" shardStatistics,
    maybe "_seq_no" signed, maybe "_primary_term" signed]

/-- What became of many writes. -/
def bulk : Shape :=
  fields [field "took" count, field "errors" .boolean, maybe "ingest_took" count,
    field "items" (.list (.map bulkItem))]

/-- The items of an answer to many writes, each with its action. -/
def bulkItems (answer : Document) : List (String × Document) :=
  ((answer.get? "items").getD .null).items.flatMap Document.members

/-- The items that failed. -/
def failedItems (answer : Document) : List (String × Document) :=
  (bulkItems answer).filter fun (_, item) ↦ (item.get? "error").isSome

/-- What the cluster says about an item that failed. -/
def itemError? (item : Document) : Option String := do
  let cause ← item.get? "error"
  (ErrorCause.ofJson cause.toJson).toOption.map ErrorCause.text

end SearchClient.Answer

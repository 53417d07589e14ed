import SearchClient.Answer.Documents
import SearchClient.Endpoint.Basic

/-!
# Endpoints for documents

Who the cluster is, and writing, reading, counting and searching documents. Where a source comes
back, its shape is a parameter.
-/

set_option autoImplicit false
set_option relaxedAutoImplicit false

namespace SearchClient.Endpoint

def info : Endpoint :=
  { name := "info", table := routes "info" [[]], verb := .always .get
    answer := .document Answer.info }

def ping : Endpoint :=
  { name := "ping", table := routes "ping" [[]], verb := .always .head, answer := .existence }

/-- One document is written, under the id that the caller or the cluster chooses. -/
def index : Endpoint :=
  { name := "index"
    table := routes "index" [[slot "index", "_doc", slot "id"], [slot "index", "_doc"]]
    verb := .putWithId
    needs := [.route "index" .text]
    takes :=
      [.route "id" .text, .query "refresh" (.word .refresh), string "routing",
        .query "op_type" (.word .opType), integer "version",
        .query "version_type" (.word .versionType), integer "if_seq_no",
        integer "if_primary_term", string "pipeline", timeout, waitForShards,
        boolean "require_alias"]
    hasBody := true
    answer := .document Answer.write }

/-- One document is read. -/
def get (source : Shape) : Endpoint :=
  { name := "get"
    table := routes "get" [[slot "index", "_doc", slot "id"]]
    verb := .always .get
    needs := [.route "index" .text, .route "id" .text]
    takes :=
      [string "preference", boolean "realtime", boolean "refresh", string "routing",
        names "stored_fields", .renamed "source_enabled" "_source" .boolean, integer "version",
        .query "version_type" (.word .versionType)] ++ sourceFilters
    answer := .documentOrMissing (Answer.document source) }

/-- One document is deleted. -/
def delete : Endpoint :=
  { name := "delete"
    table := routes "delete" [[slot "index", "_doc", slot "id"]]
    verb := .always .delete
    needs := [.route "index" .text, .route "id" .text]
    takes :=
      [.query "refresh" (.word .refresh), string "routing", timeout, integer "version",
        .query "version_type" (.word .versionType), integer "if_seq_no",
        integer "if_primary_term", waitForShards]
    answer := .documentOrMissing Answer.write }

def count : Endpoint :=
  { name := "count"
    table := routes "count" [[slot "index", "_count"], ["_count"]]
    verb := .getOrPost
    takes :=
      [.route "index" .names, string "q", string "analyzer", string "default_operator", string "df",
        .query "min_score" .float, string "routing", integer "terminate_after"] ++ wildcards
    hasBody := true
    answer := .document Answer.counted }

def search (source : Shape) : Endpoint :=
  { name := "search"
    table := routes "search" [[slot "index", "_search"], ["_search"]]
    verb := .getOrPost
    takes :=
      [.route "index" .names, string "q", integer "from", integer "size", names "sort",
        .query "scroll" .span, string "search_type", string "routing", string "preference",
        timeout, boolean "track_total_hits", boolean "track_scores", boolean "request_cache",
        boolean "typed_keys", boolean "seq_no_primary_term", boolean "version",
        .renamed "source_enabled" "_source" .boolean, integer "terminate_after"] ++
        sourceFilters ++ wildcards
    hasBody := true
    answer := .document (Answer.search source) }

/-- Many writes at once. -/
def bulk : Endpoint :=
  { name := "bulk"
    table := routes "bulk" [[slot "index", "_bulk"], ["_bulk"]]
    verb := .always .post
    takes :=
      [.route "index" .names, .query "refresh" (.word .refresh), string "routing", timeout,
        string "pipeline", boolean "require_alias", waitForShards] ++ sourceFilters
    blank := { content := .operations [] }
    answer := .document Answer.bulk }

end SearchClient.Endpoint

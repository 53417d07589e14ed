import SearchClient.Answer.Shards

/-!
# Answers about ingest pipelines
-/

set_option autoImplicit false
set_option relaxedAutoImplicit false

namespace SearchClient.Answer

open Shape

/-- A pipeline. -/
def pipeline : Shape :=
  fields [orNothing "description" .text, field "processors" (.list .any),
    unlessEmpty "on_failure" (.list .any), orNothing "version" signed, orNothing "_meta" .any]

/-- Pipelines by their ids. -/
def pipelines : Shape := .map pipeline

/-- What a pipeline would make of documents. -/
def simulated : Shape :=
  fields [field "docs" (.list (fields [
    maybe "doc" (fields [maybe "_index" .text, maybe "_id" .text, field "_source" .any,
      maybe "_ingest" .any]),
    maybe "error" .cause, unlessEmpty "processor_results" (.list .any)]))]

/-- Patterns by their names. -/
def patterns : Shape := fields [field "patterns" (.map .text)]

end SearchClient.Answer

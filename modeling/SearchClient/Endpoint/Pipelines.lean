import SearchClient.Answer.Pipelines
import SearchClient.Answer.Shards
import SearchClient.Endpoint.Basic

/-!
# Endpoints for ingest pipelines
-/

set_option autoImplicit false
set_option relaxedAutoImplicit false

namespace SearchClient.Endpoint.Pipelines

def id : RoutePiece := slot "id"

def put : Endpoint :=
  { name := "ingest.put_pipeline"
    table := routes "ingest.put_pipeline" [["_ingest", "pipeline", id]]
    verb := .always .put
    needs := [.route "id" .text]
    takes := [timeout, managerTimeout]
    hasBody := true
    answer := .document Answer.acknowledged }

def get : Endpoint :=
  { name := "ingest.get_pipeline"
    table := routes "ingest.get_pipeline" [["_ingest", "pipeline", id], ["_ingest", "pipeline"]]
    verb := .always .get
    takes := [.route "id" .text, managerTimeout]
    answer := .document Answer.pipelines }

def delete : Endpoint :=
  { name := "ingest.delete_pipeline"
    table := routes "ingest.delete_pipeline" [["_ingest", "pipeline", id]]
    verb := .always .delete
    needs := [.route "id" .text]
    takes := [timeout, managerTimeout]
    answer := .document Answer.acknowledged }

def simulate : Endpoint :=
  { name := "ingest.simulate"
    table := routes "ingest.simulate"
      [["_ingest", "pipeline", id, "_simulate"], ["_ingest", "pipeline", "_simulate"]]
    verb := .always .post
    takes := [.route "id" .text, boolean "verbose"]
    hasBody := true
    answer := .document Answer.simulated }

def patterns : Endpoint :=
  { name := "ingest.processor_grok"
    table := routes "ingest.processor_grok" [["_ingest", "processor", "grok"]]
    verb := .always .get
    answer := .document Answer.patterns }

def all : List Endpoint := [put, get, delete, simulate, patterns]

end SearchClient.Endpoint.Pipelines

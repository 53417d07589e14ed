import SearchClient.Endpoint.Cluster
import SearchClient.Endpoint.Documents
import SearchClient.Endpoint.Indices
import SearchClient.Endpoint.Models
import SearchClient.Endpoint.Nodes
import SearchClient.Endpoint.Notifications
import SearchClient.Endpoint.Observability
import SearchClient.Endpoint.Pipelines
import SearchClient.Endpoint.Policies
import SearchClient.Endpoint.Snapshots
import SearchClient.Endpoint.Tables

/-!
# All endpoints
-/

set_option autoImplicit false
set_option relaxedAutoImplicit false

namespace SearchClient.Endpoint

/-- The endpoints for documents, sources being read as any document or kept as they are spelled. -/
def forDocuments : List Endpoint :=
  [info, ping, index, get .any, { get .spelled with name := "get.raw" }, delete, count, search .any,
    { search .spelled with name := "search.raw" }, bulk]

/-- Every endpoint but the one for any table, which depends on the table. -/
def all : List Endpoint :=
  forDocuments ++ Cluster.all ++ Indices.all ++ Pipelines.all ++ Nodes.all ++ Snapshots.all ++
    Models.all ++ Notifications.all ++ Observability.all ++ Policies.all ++ Tables.all

/-- The endpoint of a name. -/
def find? (name : String) : Option Endpoint := all.find? (·.name == name)

end SearchClient.Endpoint

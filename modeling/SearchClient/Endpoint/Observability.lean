import SearchClient.Answer.Observability
import SearchClient.Endpoint.Basic

/-!
# Endpoints for saved observability objects
-/

set_option autoImplicit false
set_option relaxedAutoImplicit false

namespace SearchClient.Endpoint.Observability

/-- A path of the plugin for observability. -/
def path (pieces : List RoutePiece) : List RoutePiece := "_plugins" :: "_observability" :: pieces

def objectId : RoutePiece := slot "object_id"

/-- The ids of the objects that are meant. -/
def objectIds : Setter := .renamed "object_id_list" "objectIdList" .names

def create : Endpoint :=
  { name := "observability.create_object"
    table := routes "observability.create_object" [path ["object"]]
    verb := .always .post
    hasBody := true
    answer := .document Answer.objectId }

def get : Endpoint :=
  { name := "observability.get_object"
    table := routes "observability.get_object" [path ["object", objectId]]
    verb := .always .get
    needs := [.route "object_id" .text]
    answer := .document Answer.objects }

def list : Endpoint :=
  { name := "observability.get_objects"
    table := routes "observability.get_objects" [path ["object"]]
    verb := .always .get
    takes :=
      [.renamed "object_type" "objectType" .names, objectIds, string "name",
        .renamed "from_index" "fromIndex" .integer, .renamed "max_items" "maxItems" .integer,
        .renamed "sort_field" "sortField" .string,
        .renamed "sort_order" "sortOrder" (.word .sortOrder)]
    answer := .document Answer.objects }

def update : Endpoint :=
  { name := "observability.update_object"
    table := routes "observability.update_object" [path ["object", objectId]]
    verb := .always .put
    needs := [.route "object_id" .text]
    hasBody := true
    answer := .document Answer.objectId }

def delete : Endpoint :=
  { name := "observability.delete_object"
    table := routes "observability.delete_object" [path ["object", objectId]]
    verb := .always .delete
    needs := [.route "object_id" .text]
    answer := .document Answer.deletedObjects }

/-- Several objects are deleted, named among the parameters. -/
def deleteSeveral : Endpoint :=
  { name := "observability.delete_objects"
    table := routes "observability.delete_objects" [path ["object"]]
    verb := .always .delete
    needs := [objectIds]
    takes := [objectIds]
    answer := .document Answer.deletedObjects }

def localStats : Endpoint :=
  { name := "observability.get_local_stats"
    table := routes "observability.get_localstats" [path ["_local", "stats"]]
    verb := .always .get
    answer := .document .any }

def all : List Endpoint := [create, get, list, update, delete, deleteSeveral, localStats]

end SearchClient.Endpoint.Observability

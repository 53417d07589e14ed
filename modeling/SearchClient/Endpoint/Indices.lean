import SearchClient.Answer.Indices
import SearchClient.Endpoint.Basic

/-!
# Endpoints for indices, aliases and templates
-/

set_option autoImplicit false
set_option relaxedAutoImplicit false

namespace SearchClient.Endpoint.Indices

def index : RoutePiece := slot "index"

def nameSlot : RoutePiece := slot "name"

/-- The operations that go to an index itself. -/
def onIndex (operation : String) : RouteTable := routes operation [[index]]

def create : Endpoint :=
  { name := "indices.create", table := onIndex "indices.create", verb := .always .put
    needs := [.route "index" .text]
    takes := [waitForShards, timeout, managerTimeout]
    hasBody := true
    answer := .document Answer.shardsAcknowledged }

def delete : Endpoint :=
  { name := "indices.delete", table := onIndex "indices.delete", verb := .always .delete
    needs := [.route "index" .names]
    takes := [timeout, managerTimeout] ++ wildcards
    answer := .document Answer.acknowledged }

def isThere : Endpoint :=
  { name := "indices.exists", table := onIndex "indices.exists", verb := .always .head
    needs := [.route "index" .names]
    takes := [boolean "local", boolean "flat_settings", boolean "include_defaults"] ++ wildcards
    answer := .existence }

def get : Endpoint :=
  { name := "indices.get", table := onIndex "indices.get", verb := .always .get
    needs := [.route "index" .names]
    takes :=
      [boolean "local", boolean "flat_settings", boolean "include_defaults", managerTimeout] ++
        wildcards
    answer := .document Answer.indexStates }

def refresh : Endpoint :=
  { name := "indices.refresh"
    table := routes "indices.refresh" [[index, "_refresh"], ["_refresh"]]
    verb := .always .post
    takes := [.route "index" .names] ++ wildcards
    answer := .document Answer.refreshed }

def reopen : Endpoint :=
  { name := "indices.open", table := routes "indices.open" [[index, "_open"]]
    verb := .always .post
    needs := [.route "index" .names]
    takes :=
      [waitForShards, timeout, managerTimeout, boolean "wait_for_completion"] ++ wildcards
    answer := .document Answer.shardsAcknowledged }

def close : Endpoint :=
  { name := "indices.close", table := routes "indices.close" [[index, "_close"]]
    verb := .always .post
    needs := [.route "index" .names]
    takes := [waitForShards, timeout, managerTimeout] ++ wildcards
    answer := .document Answer.closed }

def putMapping : Endpoint :=
  { name := "indices.put_mapping", table := routes "indices.put_mapping" [[index, "_mapping"]]
    verb := .always .put
    needs := [.route "index" .names]
    takes := [timeout, managerTimeout, boolean "write_index_only"] ++ wildcards
    hasBody := true
    answer := .document Answer.acknowledged }

def getMapping : Endpoint :=
  { name := "indices.get_mapping"
    table := routes "indices.get_mapping" [[index, "_mapping"], ["_mapping"]]
    verb := .always .get
    takes := [.route "index" .names, boolean "local", managerTimeout] ++ wildcards
    answer := .document Answer.indexMappings }

def getSettings : Endpoint :=
  { name := "indices.get_settings"
    table := routes "indices.get_settings"
      [[index, "_settings", nameSlot], [index, "_settings"], ["_settings", nameSlot], ["_settings"]]
    verb := .always .get
    takes :=
      [.route "index" .names, .route "name" .names, boolean "local", boolean "flat_settings",
        boolean "include_defaults", managerTimeout] ++ wildcards
    answer := .document Answer.indexSettings }

def putSettings : Endpoint :=
  { name := "indices.put_settings"
    table := routes "indices.put_settings" [[index, "_settings"], ["_settings"]]
    verb := .always .put
    takes :=
      [.route "index" .names, boolean "flat_settings", boolean "preserve_existing", timeout,
        managerTimeout] ++ wildcards
    hasBody := true
    answer := .document Answer.acknowledged }

def putAlias : Endpoint :=
  { name := "indices.put_alias", table := routes "indices.put_alias" [[index, "_alias", nameSlot]]
    verb := .always .put
    needs := [.route "index" .names, .route "name" .text]
    takes := [timeout, managerTimeout]
    hasBody := true
    answer := .document Answer.acknowledged }

def deleteAlias : Endpoint :=
  { name := "indices.delete_alias"
    table := routes "indices.delete_alias" [[index, "_alias", nameSlot]]
    verb := .always .delete
    needs := [.route "index" .names, .route "name" .names]
    takes := [timeout, managerTimeout]
    answer := .document Answer.acknowledged }

def getAlias : Endpoint :=
  { name := "indices.get_alias"
    table := routes "indices.get_alias"
      [[index, "_alias", nameSlot], [index, "_alias"], ["_alias", nameSlot], ["_alias"]]
    verb := .always .get
    takes := [.route "index" .names, .route "name" .names, boolean "local"] ++ wildcards
    answer := .document Answer.indexAliases }

def aliasExists : Endpoint :=
  { name := "indices.alias_exists"
    table := routes "indices.exists_alias" [[index, "_alias", nameSlot], ["_alias", nameSlot]]
    verb := .always .head
    needs := [.route "name" .names]
    takes := [.route "index" .names, boolean "local"] ++ wildcards
    answer := .existence }

/-- Several changes of aliases that are made together or not at all. -/
def updateAliases : Endpoint :=
  { name := "indices.update_aliases", table := routes "indices.update_aliases" [["_aliases"]]
    verb := .always .post
    takes := [timeout, managerTimeout]
    blank := { content := .aliasActions [] }
    answer := .document Answer.acknowledged }

def putTemplate : Endpoint :=
  { name := "indices.put_index_template"
    table := routes "indices.put_index_template" [["_index_template", nameSlot]]
    verb := .always .put
    needs := [.route "name" .text]
    takes := [boolean "create", string "cause", managerTimeout]
    hasBody := true
    answer := .document Answer.acknowledged }

def getTemplate : Endpoint :=
  { name := "indices.get_index_template"
    table := routes "indices.get_index_template"
      [["_index_template", nameSlot], ["_index_template"]]
    verb := .always .get
    takes := [.route "name" .text, boolean "local", boolean "flat_settings", managerTimeout]
    answer := .document Answer.indexTemplates }

def deleteTemplate : Endpoint :=
  { name := "indices.delete_index_template"
    table := routes "indices.delete_index_template" [["_index_template", nameSlot]]
    verb := .always .delete
    needs := [.route "name" .text]
    takes := [timeout, managerTimeout]
    answer := .document Answer.acknowledged }

def all : List Endpoint :=
  [create, delete, isThere, get, refresh, reopen, close, putMapping, getMapping, getSettings,
    putSettings, putAlias, deleteAlias, getAlias, aliasExists, updateAliases, putTemplate,
    getTemplate, deleteTemplate]

end SearchClient.Endpoint.Indices

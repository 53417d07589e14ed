import SearchClient.Answer.Cluster
import SearchClient.Endpoint.Basic

/-!
# Endpoints for the cluster as a whole
-/

set_option autoImplicit false
set_option relaxedAutoImplicit false

namespace SearchClient.Endpoint.Cluster

/-- The health of the cluster. One that is not reached in time is told all the same. -/
def health : Endpoint :=
  { name := "cluster.health"
    table := routes "cluster.health" [["_cluster", "health", slot "index"], ["_cluster", "health"]]
    verb := .always .get
    takes :=
      [.route "index" .names, .query "level" (.word .level), boolean "local", managerTimeout,
        timeout, waitForShards, string "wait_for_nodes",
        .query "wait_for_events" (.word .waitForEvents), boolean "wait_for_no_relocating_shards",
        boolean "wait_for_no_initializing_shards",
        .query "wait_for_status" (.word .healthStatus), expandWildcards]
    answer := .documentAllowing 408 Answer.health }

def stats : Endpoint :=
  { name := "cluster.stats"
    table := routes "cluster.stats"
      [["_cluster", "stats", "nodes", slot "node_id"], ["_cluster", "stats"]]
    verb := .always .get
    takes := [.route "node_id" .names, boolean "flat_settings", timeout]
    answer := .document Answer.clusterStatistics }

def state : Endpoint :=
  { name := "cluster.state"
    table := routes "cluster.state"
      [["_cluster", "state", slot "metric", slot "index"], ["_cluster", "state", slot "metric"],
        ["_cluster", "state"]]
    verb := .always .get
    takes :=
      [.route "metric" .names, .route "index" .names, boolean "local", managerTimeout,
        boolean "flat_settings", integer "wait_for_metadata_version",
        .query "wait_for_timeout" .span] ++ wildcards
    answer := .document Answer.clusterState }

/-- Reading and changing settings go the same way. -/
def settingsTable : RouteTable := routes "cluster.settings" [["_cluster", "settings"]]

def getSettings : Endpoint :=
  { name := "cluster.get_settings", table := settingsTable, verb := .always .get
    takes := [boolean "flat_settings", boolean "include_defaults", managerTimeout, timeout]
    answer := .document Answer.clusterSettings }

def putSettings : Endpoint :=
  { name := "cluster.put_settings", table := settingsTable, verb := .always .put
    takes := [boolean "flat_settings", managerTimeout, timeout]
    hasBody := true
    answer := .document Answer.changedSettings }

def pendingTasks : Endpoint :=
  { name := "cluster.pending_tasks"
    table := routes "cluster.pending_tasks" [["_cluster", "pending_tasks"]]
    verb := .always .get
    takes := [boolean "local", managerTimeout]
    answer := .document Answer.pendingTasks }

def allocationExplain : Endpoint :=
  { name := "cluster.allocation_explain"
    table := routes "cluster.allocation_explain" [["_cluster", "allocation", "explain"]]
    verb := .getOrPost
    takes := [boolean "include_disk_info", boolean "include_yes_decisions"]
    hasBody := true
    answer := .document Answer.allocation }

def all : List Endpoint :=
  [health, stats, state, getSettings, putSettings, pendingTasks, allocationExplain]

end SearchClient.Endpoint.Cluster

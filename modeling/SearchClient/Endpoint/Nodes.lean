import SearchClient.Answer.Nodes
import SearchClient.Endpoint.Basic

/-!
# Endpoints for the nodes of a cluster
-/

set_option autoImplicit false
set_option relaxedAutoImplicit false

namespace SearchClient.Endpoint.Nodes

def nodeId : RoutePiece := slot "node_id"

def metric : RoutePiece := slot "metric"

def info : Endpoint :=
  { name := "nodes.info"
    table := routes "nodes.info"
      [["_nodes", nodeId, metric], ["_nodes", nodeId], ["_nodes", metric], ["_nodes"]]
    verb := .always .get
    takes := [.route "metric" .names, .route "node_id" .names, boolean "flat_settings", timeout]
    answer := .document Answer.nodeInfo }

def stats : Endpoint :=
  { name := "nodes.stats"
    table := routes "nodes.stats"
      [["_nodes", nodeId, "stats", metric, slot "index_metric"],
        ["_nodes", nodeId, "stats", metric], ["_nodes", nodeId, "stats"],
        ["_nodes", "stats", metric, slot "index_metric"],
        ["_nodes", "stats", metric], ["_nodes", "stats"]]
    verb := .always .get
    takes :=
      [.route "metric" .names, .route "index_metric" .names, .route "node_id" .names,
        .query "level" (.word .level), names "completion_fields", names "fielddata_fields",
        names "fields", names "groups", boolean "include_segment_file_sizes", timeout]
    answer := .document Answer.nodeFigures }

def hotThreads : Endpoint :=
  { name := "nodes.hot_threads"
    table := routes "nodes.hot_threads"
      [["_nodes", nodeId, "hot_threads"], ["_nodes", "hot_threads"]]
    verb := .always .get
    takes :=
      [.route "node_id" .names, .query "interval" .span, integer "snapshots", integer "threads",
        boolean "ignore_idle_threads", .renamed "thread_type" "type" .string, timeout]
    answer := .text }

def usage : Endpoint :=
  { name := "nodes.usage"
    table := routes "nodes.usage"
      [["_nodes", nodeId, "usage", metric], ["_nodes", nodeId, "usage"],
        ["_nodes", "usage", metric], ["_nodes", "usage"]]
    verb := .always .get
    takes := [.route "metric" .names, .route "node_id" .names, timeout]
    answer := .document Answer.nodeUsage }

def reloadSecureSettings : Endpoint :=
  { name := "nodes.reload_secure_settings"
    table := routes "nodes.reload_secure_settings"
      [["_nodes", nodeId, "reload_secure_settings"], ["_nodes", "reload_secure_settings"]]
    verb := .always .post
    takes := [.route "node_id" .names, timeout]
    hasBody := true
    answer := .document Answer.secureSettings }

def all : List Endpoint := [info, stats, hotThreads, usage, reloadSecureSettings]

end SearchClient.Endpoint.Nodes

import SearchClient.Answer.Notifications
import SearchClient.Endpoint.Basic

/-!
# Endpoints for notification channels
-/

set_option autoImplicit false
set_option relaxedAutoImplicit false

namespace SearchClient.Endpoint.Notifications

/-- A path of the plugin for notifications. -/
def path (pieces : List RoutePiece) : List RoutePiece := "_plugins" :: "_notifications" :: pieces

def configId : RoutePiece := slot "config_id"

def create : Endpoint :=
  { name := "notifications.create_config"
    table := routes "notifications.create_config" [path ["configs"]]
    verb := .always .post
    hasBody := true
    answer := .document Answer.configId }

/-- A channel of its own. -/
def get : Endpoint :=
  { name := "notifications.get_config"
    table := routes "notifications.get_config" [path ["configs", configId]]
    verb := .always .get
    needs := [.route "config_id" .text]
    answer := .document Answer.configs }

def list : Endpoint :=
  { name := "notifications.get_configs"
    table := routes "notifications.get_configs" [path ["configs"]]
    verb := .always .get
    takes :=
      [names "config_id_list", names "config_type", boolean "is_enabled", string "name",
        string "query", integer "from_index", integer "max_items", string "sort_field",
        .query "sort_order" (.word .sortOrder)]
    answer := .document Answer.configs }

def update : Endpoint :=
  { name := "notifications.update_config"
    table := routes "notifications.update_config" [path ["configs", configId]]
    verb := .always .put
    needs := [.route "config_id" .text]
    hasBody := true
    answer := .document Answer.configId }

def delete : Endpoint :=
  { name := "notifications.delete_config"
    table := routes "notifications.delete_config" [path ["configs", configId]]
    verb := .always .delete
    needs := [.route "config_id" .text]
    answer := .document Answer.deletedByName }

def features : Endpoint :=
  { name := "notifications.list_features"
    table := routes "notifications.list_features" [path ["features"]]
    verb := .always .get
    answer := .document Answer.features }

def channels : Endpoint :=
  { name := "notifications.list_channels"
    table := routes "notifications.list_channels" [path ["channels"]]
    verb := .always .get
    answer := .document Answer.channels }

def sendTest : Endpoint :=
  { name := "notifications.send_test"
    table := routes "notifications.send_test" [path ["feature", "test", configId]]
    verb := .always .post
    needs := [.route "config_id" .text]
    answer := .document Answer.testSent }

def all : List Endpoint := [create, get, list, update, delete, features, channels, sendTest]

/-- A channel that is a hook of a chat. -/
def chatChannel (name url : String) : Json :=
  .object
    [("name", .string name), ("config_type", .string "slack"), ("is_enabled", .bool true),
      ("slack", .object [("url", .string url)])]

/-- The body of a call about a channel without an id of its own. -/
def channelBody (channel : Json) : Json := .object [("config", channel)]

end SearchClient.Endpoint.Notifications

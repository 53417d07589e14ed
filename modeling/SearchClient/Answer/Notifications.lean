import SearchClient.Answer.Shards

/-!
# Answers about notification channels
-/

set_option autoImplicit false
set_option relaxedAutoImplicit false

namespace SearchClient.Answer

open Shape

/-- A channel and how it is reached. -/
def channelConfig : Shape :=
  openFields [need "name" .text, orNothing "description" .text, need "config_type" .text,
    ({ name := "is_enabled", absent := .value (.bool true) }, .boolean)]

/-- A channel, with an id that has been chosen for it. -/
def configEnvelope : Shape := fields [orNothing "config_id" .text, need "config" channelConfig]

/-- The id of a channel. -/
def configId : Shape := fields [need "config_id" .text]

/-- Channels. -/
def configs : Shape :=
  fields [field "start_index" count, field "total_hits" count, maybe "total_hit_relation" .text,
    field "config_list" (.list (fields [need "config_id" .text,
      maybe "last_updated_time_ms" (.moment .epochMillis),
      maybe "created_time_ms" (.moment .epochMillis), need "config" channelConfig]))]

/-- Channels that have been deleted. -/
def deletedByName : Shape := fields [field "delete_response_list" (.map .text)]

/-- What channels there may be. -/
def features : Shape :=
  fields [field "allowed_config_type_list" (.list .text), field "plugin_features" (.map .text)]

/-- Channels in brief. -/
def channels : Shape :=
  fields [field "start_index" count, field "total_hits" count, maybe "total_hit_relation" .text,
    field "channel_list" (.list (fields [need "config_id" .text, need "name" .text,
      maybe "description" .text, need "config_type" .text, field "is_enabled" .boolean]))]

/-- What became of a test message. -/
def testSent : Shape :=
  fields [field "event_source" .any,
    field "status_list" (.list (fields [need "config_id" .text, maybe "config_type" .text,
      maybe "config_name" .text, field "email_recipient_status" (.list .any),
      need "delivery_status" (fields [need "status_code" .text, field "status_text" .text])]))]

/-- For each channel, whether the test message has been delivered. -/
def delivered (answer : Document) : List Bool :=
  ((answer.get? "status_list").getD .null).items.map fun report ↦
    ((report.get? "delivery_status").getD .null).textOf "status_code" == "200"

end SearchClient.Answer

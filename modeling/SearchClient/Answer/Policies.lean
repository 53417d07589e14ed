import SearchClient.Answer.Shards

/-!
# Answers about snapshot policies
-/

set_option autoImplicit false
set_option relaxedAutoImplicit false

namespace SearchClient.Answer

open Shape

/-- A policy. -/
def policy : Shape :=
  fields [orNothing "name" .text, orNothing "description" .text, orNothing "schema_version" signed,
    need "creation" .any, orNothing "deletion" .any, need "snapshot_config" .any,
    orNothing "notification" .any, orNothing "enabled" .boolean,
    orNothing "last_updated_time" signed, orNothing "enabled_time" signed]

/-- A policy as it is stored. -/
def storedPolicy : Shape :=
  fields [need "_id" .text, maybe "_version" signed, maybe "_seq_no" signed,
    maybe "_primary_term" signed, need "sm_policy" policy]

/-- Policies. -/
def policies : Shape :=
  fields [field "policies" (.list storedPolicy), field "total_policies" count]

/-- What policies have done. -/
def explained : Shape :=
  fields [field "policies" (.list (fields [need "name" .text, maybe "creation" .any,
    maybe "deletion" .any, maybe "policy_seq_no" signed, maybe "policy_primary_term" signed,
    maybe "enabled" .boolean]))]

end SearchClient.Answer

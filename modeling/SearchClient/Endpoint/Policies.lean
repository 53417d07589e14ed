import SearchClient.Answer.Policies
import SearchClient.Answer.Shards
import SearchClient.Endpoint.Basic

/-!
# Endpoints for snapshot policies
-/

set_option autoImplicit false
set_option relaxedAutoImplicit false

namespace SearchClient.Endpoint.Policies

/-- A path below that of all policies. -/
def path (pieces : List RoutePiece) : List RoutePiece :=
  "_plugins" :: "_sm" :: "policies" :: pieces

def policyName : RoutePiece := slot "policy_name"

/-- An operation on one policy. -/
def onPolicy (operation : String) (method : Method) (further : List RoutePiece)
    (answer : Shape) : Endpoint :=
  { name := operation, table := routes operation [path (policyName :: further)]
    verb := .always method
    needs := [.route "policy_name" .text]
    answer := .document answer }

def create : Endpoint :=
  { onPolicy "sm.create_policy" .post [] Answer.storedPolicy with hasBody := true }

/-- A policy is changed, if nobody has changed it since it was read. -/
def update : Endpoint :=
  { onPolicy "sm.update_policy" .put [] Answer.storedPolicy with
    hasBody := true
    takes := [integer "if_seq_no", integer "if_primary_term"] }

def get : Endpoint := onPolicy "sm.get_policy" .get [] Answer.storedPolicy

def list : Endpoint :=
  { name := "sm.get_policies", table := routes "sm.get_policies" [path []]
    verb := .always .get
    takes :=
      [integer "from", integer "size", .renamed "query_string" "queryString" .string,
        .renamed "sort_field" "sortField" .string,
        .renamed "sort_order" "sortOrder" (.word .sortOrder)]
    answer := .document Answer.policies }

def delete : Endpoint := onPolicy "sm.delete_policy" .delete [] Answer.write

def explain : Endpoint := onPolicy "sm.explain_policy" .get ["_explain"] Answer.explained

def start : Endpoint := onPolicy "sm.start_policy" .post ["_start"] Answer.acknowledged

def stop : Endpoint := onPolicy "sm.stop_policy" .post ["_stop"] Answer.acknowledged

def all : List Endpoint := [create, update, get, list, delete, explain, start, stop]

end SearchClient.Endpoint.Policies

import SearchClient.Answer.Models
import SearchClient.Endpoint.Basic

/-!
# Endpoints for machine learning models
-/

set_option autoImplicit false
set_option relaxedAutoImplicit false

namespace SearchClient.Endpoint.Models

/-- A path of the plugin for models. -/
def path (pieces : List RoutePiece) : List RoutePiece := "_plugins" :: "_ml" :: pieces

def modelId : RoutePiece := slot "model_id"

def registerGroup : Endpoint :=
  { name := "ml.register_model_group"
    table := routes "ml.register_model_group" [path ["model_groups", "_register"]]
    verb := .always .post
    hasBody := true
    answer := .document Answer.modelGroupCreated }

def deleteGroup : Endpoint :=
  { name := "ml.delete_model_group"
    table := routes "ml.delete_model_group" [path ["model_groups", slot "model_group_id"]]
    verb := .always .delete
    needs := [.route "model_group_id" .text]
    answer := .document Answer.write }

def register : Endpoint :=
  { name := "ml.register_model"
    table := routes "ml.register_model" [path ["models", "_register"]]
    verb := .always .post
    takes := [boolean "deploy"]
    hasBody := true
    answer := .document Answer.taskHandle }

def get : Endpoint :=
  { name := "ml.get_model", table := routes "ml.get_model" [path ["models", modelId]]
    verb := .always .get
    needs := [.route "model_id" .text]
    answer := .document Answer.model }

def delete : Endpoint :=
  { name := "ml.delete_model", table := routes "ml.delete_model" [path ["models", modelId]]
    verb := .always .delete
    needs := [.route "model_id" .text]
    answer := .document Answer.write }

def deploy : Endpoint :=
  { name := "ml.deploy_model"
    table := routes "ml.deploy_model" [path ["models", modelId, "_deploy"]]
    verb := .always .post
    needs := [.route "model_id" .text]
    hasBody := true
    answer := .document Answer.taskHandle }

def undeploy : Endpoint :=
  { name := "ml.undeploy_model"
    table := routes "ml.undeploy_model"
      [path ["models", modelId, "_undeploy"], path ["models", "_undeploy"]]
    verb := .always .post
    takes := [.route "model_id" .text]
    hasBody := true
    answer := .document Answer.undeployed }

def getTask : Endpoint :=
  { name := "ml.get_task", table := routes "ml.get_task" [path ["tasks", slot "task_id"]]
    verb := .always .get
    needs := [.route "task_id" .text]
    answer := .document Answer.task }

def search : Endpoint :=
  { name := "ml.search_models", table := routes "ml.search_models" [path ["models", "_search"]]
    verb := .getOrPost
    hasBody := true
    answer := .document Answer.models }

def all : List Endpoint :=
  [registerGroup, deleteGroup, register, get, delete, deploy, undeploy, getTask, search]

end SearchClient.Endpoint.Models

import SearchClient.Answer.Snapshots
import SearchClient.Endpoint.Basic

/-!
# Endpoints for snapshots and their repositories
-/

set_option autoImplicit false
set_option relaxedAutoImplicit false

namespace SearchClient.Endpoint.Snapshots

def repository : RoutePiece := slot "repository"

def snapshot : RoutePiece := slot "snapshot"

def createRepository : Endpoint :=
  { name := "snapshot.create_repository"
    table := routes "snapshot.create_repository" [["_snapshot", repository]]
    verb := .always .put
    needs := [.route "repository" .text]
    takes := [boolean "verify", timeout, managerTimeout]
    hasBody := true
    answer := .document Answer.acknowledged }

def getRepository : Endpoint :=
  { name := "snapshot.get_repository"
    table := routes "snapshot.get_repository" [["_snapshot", repository], ["_snapshot"]]
    verb := .always .get
    takes := [.route "repository" .names, boolean "local", managerTimeout]
    answer := .document (.map Answer.repository) }

def deleteRepository : Endpoint :=
  { name := "snapshot.delete_repository"
    table := routes "snapshot.delete_repository" [["_snapshot", repository]]
    verb := .always .delete
    needs := [.route "repository" .names]
    takes := [timeout, managerTimeout]
    answer := .document Answer.acknowledged }

def verifyRepository : Endpoint :=
  { name := "snapshot.verify_repository"
    table := routes "snapshot.verify_repository" [["_snapshot", repository, "_verify"]]
    verb := .always .post
    needs := [.route "repository" .text]
    takes := [timeout, managerTimeout]
    answer := .document Answer.verified }

def cleanupRepository : Endpoint :=
  { name := "snapshot.cleanup_repository"
    table := routes "snapshot.cleanup_repository" [["_snapshot", repository, "_cleanup"]]
    verb := .always .post
    needs := [.route "repository" .text]
    takes := [timeout, managerTimeout]
    answer := .document Answer.cleaned }

def create : Endpoint :=
  { name := "snapshot.create"
    table := routes "snapshot.create" [["_snapshot", repository, snapshot]]
    verb := .always .put
    needs := [.route "repository" .text, .route "snapshot" .text]
    takes := [boolean "wait_for_completion", managerTimeout]
    hasBody := true
    answer := .document Answer.snapshotCreated }

def get : Endpoint :=
  { name := "snapshot.get"
    table := routes "snapshot.get" [["_snapshot", repository, snapshot]]
    verb := .always .get
    needs := [.route "repository" .text, .route "snapshot" .names]
    takes := [ignoreUnavailable, boolean "verbose", managerTimeout]
    answer := .document Answer.snapshots }

def delete : Endpoint :=
  { name := "snapshot.delete"
    table := routes "snapshot.delete" [["_snapshot", repository, snapshot]]
    verb := .always .delete
    needs := [.route "repository" .text, .route "snapshot" .names]
    takes := [managerTimeout]
    answer := .document Answer.acknowledged }

def restore : Endpoint :=
  { name := "snapshot.restore"
    table := routes "snapshot.restore" [["_snapshot", repository, snapshot, "_restore"]]
    verb := .always .post
    needs := [.route "repository" .text, .route "snapshot" .text]
    takes := [boolean "wait_for_completion", managerTimeout]
    hasBody := true
    answer := .document Answer.restored }

def status : Endpoint :=
  { name := "snapshot.status"
    table := routes "snapshot.status"
      [["_snapshot", repository, snapshot, "_status"], ["_snapshot", repository, "_status"],
        ["_snapshot", "_status"]]
    verb := .always .get
    takes :=
      [.route "repository" .text, .route "snapshot" .names, ignoreUnavailable, managerTimeout]
    answer := .document Answer.snapshotStatuses }

def clone : Endpoint :=
  { name := "snapshot.clone_snapshot"
    table := routes "snapshot.clone"
      [["_snapshot", repository, snapshot, "_clone", slot "target_snapshot"]]
    verb := .always .put
    needs :=
      [.route "repository" .text, .route "snapshot" .text, .route "target_snapshot" .text]
    takes := [managerTimeout]
    hasBody := true
    answer := .document Answer.acknowledged }

def all : List Endpoint :=
  [createRepository, getRepository, deleteRepository, verifyRepository, cleanupRepository, create,
    get, delete, restore, status, clone]

/-- A repository in the file system of the nodes. -/
def fileRepository (location : String) : Json :=
  .object [("type", .string "fs"), ("settings", .object [("location", .string location)])]

end SearchClient.Endpoint.Snapshots

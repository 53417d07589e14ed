import SearchClient.Cluster.Message
import SearchClient.Cluster.Pool
import SearchClient.Request.Route
import SearchClient.ServerError.Basic
import SearchClient.Text.Snippet
import SearchClient.Url.Parser

/-!
# Failures

A request fails before it is sent, on its way to the nodes, because the cluster says no, or because
the answer cannot be read. Each failure carries its cause, and `Failure.message` puts it in words.
-/

set_option autoImplicit false
set_option relaxedAutoImplicit false

namespace SearchClient

/-- One attempt at one node ended without an answer. -/
inductive LinkFault where
  | timeout
  | connect (why : String)
  | http (why : String)
  | scripted (why : String)
  | inflate
  deriving DecidableEq, Repr, Inhabited

namespace LinkFault

def message : LinkFault → String
  | timeout => "request timed out"
  | connect why => "could not connect: " ++ why
  | http why => why
  | scripted why => why
  | inflate => "failed to inflate gzip response"

/-- The name under which a fault is reported. -/
def kind : LinkFault → String
  | timeout => "Timeout"
  | connect _ => "Connect"
  | http _ => "Http"
  | scripted _ => "Simulated"
  | inflate => "Decompress"

end LinkFault

/-- Why a client gave up on a request. -/
inductive Surrender where
  | badResponse
  | couldNotSniffOnStartup
  | maxTimeoutReached
  | maxRetriesReached
  | failedOverAllNodes
  | noNodesAttempted
  deriving DecidableEq, Repr, Inhabited

namespace Surrender

def message : Surrender → String
  | badResponse => "the node returned a retryable response"
  | couldNotSniffOnStartup => "could not sniff the cluster on startup"
  | maxTimeoutReached => "maximum retry timeout reached"
  | maxRetriesReached => "maximum number of retries reached"
  | failedOverAllNodes => "failed over all nodes without a usable response"
  | noNodesAttempted => "no nodes were available to attempt the request"

/-- The name under which the reason is reported. -/
def name : Surrender → String
  | badResponse => "BadResponse"
  | couldNotSniffOnStartup => "CouldNotStartSniffOnStartup"
  | maxTimeoutReached => "MaxTimeoutReached"
  | maxRetriesReached => "MaxRetriesReached"
  | failedOverAllNodes => "FailedOverAllNodes"
  | noNodesAttempted => "NoNodesAttempted"

end Surrender

/-- A request that no node answered in a usable way. -/
structure GivenUp where
  why : Surrender
  attempts : Nat
  lastStatus : Option Nat := none
  lastFault : Option LinkFault := none
  trail : Trail := []
  deriving Repr, Inhabited

def GivenUp.message (e : GivenUp) : String :=
  let status := (e.lastStatus.map fun s ↦ ", last status " ++ toString s).getD ""
  let fault := (e.lastFault.map fun f ↦ ", last error: " ++ f.message).getD ""
  e.why.message ++ " after " ++ toString e.attempts ++ " attempt(s)" ++ status ++ fault

/-- An answer of the cluster with a status that the request does not accept. -/
structure Rejection where
  status : Nat
  method : Method
  url : Url
  serverError : Option ServerError
  body : String
  trail : Trail := []
  deriving Repr, Inhabited

def Rejection.message (e : Rejection) : String :=
  let what :=
    match e.serverError with
    | some error => ": " ++ error.cause.text
    | none => if e.body = "" then "" else ": " ++ Text.snippet e.body
  e.method.name ++ " " ++ e.url.text ++ " returned " ++ toString e.status ++ what

/-- What is wrong with a configuration. -/
inductive ConfigFault where
  | unsendable (what : Unsendable)
  | pool (flaw : PoolFlaw)
  | passwordAlone
  | noNodes
  | endlessTime (setting : String) (time : String)
  deriving DecidableEq, Repr, Inhabited

def ConfigFault.message : ConfigFault → String
  | unsendable what => what.message
  | pool flaw => flaw.message
  | passwordAlone => "a password was configured without a username"
  | noNodes => "no nodes configured"
  | endlessTime setting time =>
    "transport." ++ setting ++ " must be a finite duration, not " ++ time

inductive Failure where
  | config (fault : ConfigFault)
  | url (text : String) (flaw : Url.Flaw)
  | route (mismatch : RouteMismatch)
  | body (fault : Json.Fault)
  | unreadable (fault : Json.Fault) (snippet : String)
  | rejected (rejection : Rejection)
  | givenUp (e : GivenUp)
  | noConnection
  deriving Repr, Inhabited

namespace Failure

/-- The status behind a failure, if a node answered. -/
def status? : Failure → Option Nat
  | rejected e => some e.status
  | givenUp e => e.lastStatus
  | _ => none

def isNotFound (e : Failure) : Bool := e.status? == some 404

/-- What happened to the request, if it set out. -/
def trail : Failure → Trail
  | rejected e => e.trail
  | givenUp e => e.trail
  | _ => []

/-- The failure in words. What is wrong inside a document is not told. -/
def message : Failure → String
  | config fault => "invalid client configuration: " ++ fault.message
  | url text flaw => "invalid url '" ++ text ++ "': " ++ flaw.message
  | route mismatch => mismatch.message
  | body _ => "failed to serialize the request body"
  | unreadable _ snippet =>
    "failed to deserialize the response body; body started with: " ++ snippet
  | rejected e => e.message
  | givenUp e => e.message
  | noConnection => "failed to build the http client"

end Failure

end SearchClient

import SearchClient.ServerError.Cause

/-!
# Server errors

The body of a failed request is an object with an `error`, a text or a cause, and perhaps a
`status`. Bodies of any other form carry no server error.
-/

set_option autoImplicit false
set_option relaxedAutoImplicit false

namespace SearchClient

open Json Text

/-- What a cluster answers a request that failed. -/
structure ServerError where
  cause : ErrorCause
  status : Nat
  deriving Repr, Inhabited

namespace ServerError

/-- The parts of an envelope around an error. -/
inductive Part where
  | error (cause : Option ErrorCause)
  | status (code : Option Int)

/-- The slots of an envelope. -/
def slots (room : Nat) : List (Slot Part) :=
  [{ name := "error"
     read := fun t ↦ (Tree.readOptional (ErrorCause.readCauseOrText room) t).map .error
     missing := .always (.error none) },
   { name := "status"
     read := fun t ↦ (Tree.readOptional (Tree.readInteger 0 65535) t).map .status
     missing := .always (.status none) }]

/-- The envelope that a tree gives: its error and its status. -/
def readEnvelope (room : Nat) (t : Tree) : Except Fault (Option ErrorCause × Option Int) := do
  match ← readRecord room slots false t with
  | ([.error cause, .status code], _) => .ok (cause, code)
  | _ => .error .mismatch

/-- The server error of a body. A status that the body lacks is that of the response. -/
def ofBody? (body : Bytes) (status : Nat) : Option ServerError :=
  match (Source.ofBytes body).read (readEnvelope depthLimit) with
  | .ok (some cause, code) => some ⟨cause, (code.map Int.toNat).getD status⟩
  | _ => none

/-- The words of a server error. -/
def text (e : ServerError) : String :=
  "[" ++ toString e.status ++ "] " ++ e.cause.text

/-- A server error as a document. -/
def toJson (e : ServerError) : Json :=
  .object [("error", e.cause.toJson), ("status", .integer e.status)]

end ServerError

end SearchClient

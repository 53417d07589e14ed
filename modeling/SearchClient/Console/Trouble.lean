import SearchClient.Cluster.Failure
import SearchClient.Text.Split

/-!
# Trouble

Why a command did not work out: what it wanted, and what came in between, cause behind cause. When a
cause sounds as if no node could be reached, a hint tells where to look.
-/

set_option autoImplicit false
set_option relaxedAutoImplicit false

namespace SearchClient.Console

structure Trouble where
  what : String
  causes : List String := []
  deriving DecidableEq, Repr, Inhabited

/-- A failure in words, and its own cause behind it. -/
def chain (failure : Failure) : List String :=
  failure.message ::
    match failure with
    | .url _ flaw => [flaw.message]
    | .givenUp e => (e.lastFault.map LinkFault.message).toList
    | _ => []

namespace Trouble

/-- A failure of something that was wanted. -/
def within (what : String) (failure : Failure) : Trouble := ⟨what, chain failure⟩

/-- A failure that speaks for itself. -/
def ofFailure (failure : Failure) : Trouble :=
  match chain failure with
  | what :: causes => ⟨what, causes⟩
  | [] => ⟨failure.message, []⟩

/-- All that went wrong, the outermost first. -/
def links (t : Trouble) : List String := t.what :: t.causes

/-- The words by which one knows that no node was reached. -/
def networkWords : List String :=
  ["error sending request", "could not connect", "onnection refused", "tcp connect error",
    "dns error", "failed over all nodes", "no nodes were available"]

/-- Whether it sounds as if no node was reached. -/
def soundsUnreachable (t : Trouble) : Bool :=
  t.links.any fun link ↦ networkWords.any fun words ↦ Text.hasInfix words.toList link.toList

def hint : String :=
  "🔧 hint: no node answered. Check `nodes` in your config (or OSC_NODES), that the cluster is " ++
    "actually up (`docker ps`, `docker compose up -d`), and whether it wants https and " ++
    "credentials. Even clusters need coffee sometimes. ☕"

/-- The trouble as it is told. -/
def lines (t : Trouble) : List String :=
  ("💀 error: " ++ t.what) :: (t.links.map fun link ↦ "⚠️  cause: " ++ link) ++
    if t.soundsUnreachable then [hint] else []

end Trouble

end SearchClient.Console

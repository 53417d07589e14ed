import SearchClient.Number.Binary64
import SearchClient.Url.Basic

/-!
# Nodes

A node is a locator with roles and a health chart. A node that fails is dead for a while, longer for
each further failure in a row (`backoff`), and one good answer makes all good again.

Failures in a row are counted as a natural number. What is said of health is meant for fewer than
2^32 of them: a counter of thirty-two bits, in which a node may keep them, has no room for more.
-/

set_option autoImplicit false
set_option relaxedAutoImplicit false

namespace SearchClient

/-- What a node does for its cluster. -/
structure Roles where
  managerEligible : Bool := true
  data : Bool := true
  ingest : Bool := true
  http : Bool := true
  deriving DecidableEq, Repr, Inhabited

namespace Roles

/-- Whether a name is that of a data role; tiers of data have longer names. -/
def isData (name : String) : Bool := (Text.dropPrefix? "data".toList name.toList).isSome

/-- The roles of a list of names. -/
def ofNames (names : List String) : Roles :=
  { managerEligible := names.any fun n ↦ n == "master" || n == "cluster_manager"
    data := names.any isData
    ingest := names.contains "ingest"
    http := true }

/-- A node that may manage the cluster and holds no data. -/
def managerOnly (roles : Roles) : Bool := roles.managerEligible && !roles.data

end Roles

/-- The health of a node. One that has come back, or was never tried, is pinged before it is
trusted. Moments and lengths are in nanoseconds. -/
structure Health where
  alive : Bool := true
  resurrected : Bool := true
  /-- The failures in a row, fewer than 2^32. -/
  failures : Nat := 0
  deadUntil : Option Nat := none
  deriving DecidableEq, Repr, Inhabited

/-- The square root of two to the nearest binary64 number. -/
def rootOfTwo : Binary64 := .finite false 0x16A09E667F3BCD (-52)

/-- The power of two whose exponent is half a number of failures, less one. -/
def halfPower (failures : Nat) : Binary64 :=
  let root := if failures % 2 = 0 then Binary64.one else rootOfTwo
  if 2100 ≤ failures then .infinite false
  else
    let power :=
      if 2 ≤ failures then Binary64.ofNat (twoTo (failures / 2 - 1)) else .ofRatio false 1 2
    root * power

/-- How long a node is dead after a failure, given how often it had failed in a row before: the dead
time at first, and the root of two times longer each time, up to a greatest length. Whole
milliseconds count. -/
def backoff (failures deadTime maxDeadTime : Nat) : Nat :=
  let millis := Binary64.ofNat (deadTime / 1000000) * .ofNat 2 * halfPower failures
  let cap := Binary64.ofNat (maxDeadTime / 1000000)
  let capped := if millis.lt cap then millis else cap
  capped.toNatUpTo greatestUnsigned * 1000000

namespace Health

/-- A failure at a moment. -/
def fail (h : Health) (now deadTime maxDeadTime : Nat) : Health :=
  { alive := false
    resurrected := false
    failures := h.failures + 1
    deadUntil := some (now + backoff h.failures deadTime maxDeadTime) }

/-- A good answer. -/
def recovered : Health := { resurrected := false }

/-- A dead node gets another chance, after a ping. -/
def revive (h : Health) : Health := { h with resurrected := true }

/-- Alive, or dead for long enough. -/
def isDue (h : Health) (now : Nat) : Bool :=
  h.alive || match h.deadUntil with
    | none => true
    | some moment => moment ≤ now

end Health

/-- A member of a pool. -/
structure Node where
  url : Url
  id : Option String := none
  name : Option String := none
  roles : Roles := {}
  health : Health := {}
  deriving Repr, Inhabited

end SearchClient

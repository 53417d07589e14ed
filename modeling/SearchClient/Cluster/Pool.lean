import SearchClient.Cluster.Node
import SearchClient.Cluster.Trail

/-!
# Pools

A pool knows the nodes of a cluster and in what order a request tries them. Nodes have numbers, and
a number is never used again: a request that walks an old ring still means the nodes of that ring. A
walk takes the nodes of the ring one after the other, passing over those that are dead; when all are
dead it takes the one that has been dead longest (`Walk.next`).
-/

set_option autoImplicit false
set_option relaxedAutoImplicit false

namespace SearchClient

/-- How a pool chooses. A single node is never pinged nor replaced; a fixed or sniffing pool takes
turns; a sticky one always begins with its first node; and only a sniffing pool takes new nodes. -/
inductive PoolKind where
  | single
  | fixed
  | sniffing
  | sticky
  deriving DecidableEq, Repr, Inhabited

namespace PoolKind

def name : PoolKind → String
  | single => "single"
  | fixed => "static"
  | sniffing => "sniffing"
  | sticky => "sticky"

/-- The kinds by the names they go by. -/
def names : List (String × PoolKind) :=
  [("single", single), ("single_node", single), ("static", fixed), ("sniffing", sniffing),
    ("sticky", sticky)]

def parse? (s : String) : Option PoolKind := (names.find? (·.1 == s)).map (·.2)

/-- The message about a text that names no kind. -/
def unknownMessage (s : String) : String :=
  let quoted := names.map fun (name, _) ↦ "\x60" ++ name ++ "\x60"
  "unknown variant \x60" ++ s ++ "\x60, expected one of " ++ ", ".intercalate quoted

def takesNewNodes (kind : PoolKind) : Bool := kind == sniffing

def pings (kind : PoolKind) : Bool := kind != single

end PoolKind

structure Pool where
  kind : PoolKind
  /-- All nodes there have been, by number. -/
  register : List Node
  /-- The numbers of the nodes in the pool, in order. -/
  ring : List Nat
  /-- How many walks have begun since the ring was made. It is counted in sixty-four bits. -/
  turns : Nat := 0
  deriving Repr, Inhabited

/-- Why a pool cannot be made. -/
inductive PoolFlaw where
  | empty
  | crowded (count : Nat)
  deriving DecidableEq, Repr, Inhabited

def PoolFlaw.message : PoolFlaw → String
  | .empty => "a connection pool needs at least one node"
  | .crowded count =>
    "a single node pool got " ++ toString count ++
      " nodes; use the static, sniffing or sticky pool"

namespace Pool

/-- A pool of nodes that nothing is known about but where they are. -/
def make (kind : PoolKind) (urls : List Url) : Except PoolFlaw Pool :=
  if urls = [] then .error .empty
  else if kind = .single ∧ 1 < urls.length then .error (.crowded urls.length)
  else .ok { kind := kind, register := urls.map fun url ↦ { url := url }
             ring := List.range urls.length }

def node? (pool : Pool) (number : Nat) : Option Node := pool.register[number]?

/-- The nodes in the pool with their numbers, in order. -/
def members (pool : Pool) : List (Nat × Node) :=
  pool.ring.filterMap fun number ↦ (pool.node? number).map fun node ↦ (number, node)

def nodes (pool : Pool) : List Node := pool.members.map (·.2)

def size (pool : Pool) : Nat := pool.ring.length

/-- How often a request may move on to another node. -/
def maxRetries (pool : Pool) : Nat :=
  if pool.kind = .single then 0 else pool.size - 1

/-- The pool with the health of one node changed. -/
def changeHealth (pool : Pool) (number : Nat) (change : Health → Health) : Pool :=
  { pool with register := pool.register.modify number fun node ↦
      { node with health := change node.health } }

/-- A node's health before it was listed again, if it was in the pool. -/
def healthAt? (pool : Pool) (url : Url) : Option Health :=
  (pool.nodes.find? (·.url = url)).map (·.health)

/-- New nodes take the place of all. One that was there before keeps its health. The answer tells
whether the pool has changed. -/
def reseed (pool : Pool) (nodes : List Node) : Pool × Bool :=
  if pool.kind.takesNewNodes && !nodes.isEmpty then
    let nodes := nodes.map fun node ↦
      match pool.healthAt? node.url with
      | some health => { node with health := health }
      | none => node
    ({ pool with
        register := pool.register ++ nodes
        ring := List.range' pool.register.length nodes.length
        turns := 0 }, true)
  else (pool, false)

end Pool

/-- A walk over the nodes of a pool for one request. -/
structure Walk where
  /-- The nodes in the order of the pool. -/
  all : List Nat
  /-- The nodes that have not been reached, in the order of the walk. -/
  rest : List Nat
  /-- Whether a node has been taken. -/
  begun : Bool := false
  /-- Whether health does not count. -/
  always : Bool := false
  deriving Repr, Inhabited

namespace Pool

/-- A walk that begins at the pool's turn. -/
def walk (pool : Pool) : Walk × Pool :=
  match pool.kind with
  | .single => ({ all := pool.ring, rest := pool.ring, always := true }, pool)
  | .sticky => ({ all := pool.ring, rest := pool.ring }, pool)
  | .fixed | .sniffing =>
    ({ all := pool.ring, rest := pool.ring.rotateLeft (pool.turns % pool.size) },
      { pool with turns := (pool.turns + 1) % (greatestUnsigned + 1) })

/-- The first node of the rest of a walk that can be taken, whether it has to be revived, and the
rest behind it. -/
def seek (pool : Pool) (always : Bool) (now : Nat) : List Nat → Option (Nat × Bool × List Nat)
  | [] => none
  | number :: rest =>
    match pool.node? number with
    | none => pool.seek always now rest
    | some node =>
      if always || node.health.alive then some (number, false, rest)
      else if node.health.isDue now then some (number, true, rest)
      else pool.seek always now rest

/-- Whether one end of a dead time comes before another; without an end it comes first. -/
def endsEarlier : Option Nat → Option Nat → Bool
  | none, some _ => true
  | some a, some b => decide (a < b)
  | _, none => false

/-- The node whose dead time ends first, the earlier in order if two end together. -/
def longestDead (pool : Pool) : List Nat → Option Nat
  | [] => none
  | number :: rest =>
    let ends (n : Nat) : Option Nat := (pool.node? n).bind (·.health.deadUntil)
    match pool.longestDead rest with
    | none => some number
    | some other => if endsEarlier (ends other) (ends number) then some other else some number

/-- The entry about a node that gets another chance. -/
def revival (pool : Pool) (number : Nat) : TrailEntry :=
  { event := .resurrection, node := (pool.node? number).map (·.url) }

end Pool

/-- What a walk comes to: the node, if one is left, the walk and the pool after it, and what there
is to write down. -/
structure Stride where
  node : Option Nat
  walk : Walk
  pool : Pool
  entries : Trail
  deriving Repr, Inhabited

/-- The next node of a walk. -/
def Walk.next (w : Walk) (pool : Pool) (now : Nat) : Stride :=
  match pool.seek w.always now w.rest with
  | some (number, revived, rest) =>
    let w := { w with rest := rest, begun := true }
    if revived then
      ⟨some number, w, pool.changeHealth number Health.revive, [pool.revival number]⟩
    else ⟨some number, w, pool, []⟩
  | none =>
    let spent := { w with rest := [], begun := true }
    if w.begun then ⟨none, spent, pool, []⟩
    else
      match pool.longestDead w.all with
      | none => ⟨none, { w with rest := [] }, pool, []⟩
      | some number =>
        ⟨some number, spent, pool.changeHealth number Health.revive,
          [{ event := .allNodesDead }, pool.revival number]⟩

/-- No more than this many nodes are left to take. -/
def Walk.turnsLeft (w : Walk) : Nat := w.rest.length + 1

end SearchClient

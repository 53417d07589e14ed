import SearchClient.Cluster.Failure

/-!
# Programs of steps

What a client does for a request is a program of single steps: it reads the clock, looks at what all
requests share and replaces it, sends a message and waits for the reply, waits for its turn at the
sniff, or lets some time pass. `Program` is such a program: a tree with a branch for each answer
that a step can have. Between two steps at which it waits, nothing else happens, so any number of
requests run together is an interleaving of their waits.
-/

set_option autoImplicit false
set_option relaxedAutoImplicit false

namespace SearchClient

/-- What a node answers. -/
structure Reply where
  status : Nat
  headers : Headers := []
  body : Text.Bytes
  deriving Repr, Inhabited

/-- What the requests of a client share: the pool, whether the first sniff has begun, and when the
last one ended well. -/
structure Shared where
  pool : Pool
  started : Bool := false
  lastSniff : Nat := 0
  deriving Repr, Inhabited

/-- A single step. -/
inductive Operation where
  | clock
  | look
  | keep (shared : Shared)
  | call (message : Message)
  | acquire
  | release
  | pause (nanos : Nat)

/-- What a step gives back. -/
def Operation.Answer : Operation → Type
  | clock => Nat
  | look => Shared
  | keep _ => Unit
  | call _ => Except LinkFault Reply
  | acquire => Unit
  | release => Unit
  | pause _ => Unit

/-- A program of steps. -/
inductive Program (α : Type) where
  | done (a : α)
  | step (op : Operation) (next : op.Answer → Program α)

namespace Program

variable {α β : Type}

/-- One program after another. -/
def bind : Program α → (α → Program β) → Program β
  | done a, f => f a
  | step op next, f => step op fun answer ↦ (next answer).bind f

instance : Monad Program where
  pure := done
  bind := bind

/-- The moment, in nanoseconds. -/
def now : Program Nat := step .clock done

/-- What the requests share. -/
def look : Program Shared := step .look done

/-- What the requests share is changed. -/
def change (f : Shared → Shared) : Program Unit :=
  step .look fun shared ↦ step (.keep (f shared)) done

/-- A message is sent to its node. -/
def call (message : Message) : Program (Except LinkFault Reply) := step (.call message) done

/-- The turn at the sniff is waited for. -/
def acquire : Program Unit := step .acquire done

/-- The turn at the sniff is given away. -/
def release : Program Unit := step .release done

/-- Some time passes. -/
def pause (nanos : Nat) : Program Unit := step (.pause nanos) done

end Program

/-- Something that carries messages: it changes as it does so, and takes some time for it. -/
structure Link (σ : Type) where
  carry : Message → σ → Except LinkFault Reply × Nat × σ

/-- Where a program runs: the clock, what the requests share, and the state of the link. -/
structure World (σ : Type) where
  clock : Nat
  shared : Shared
  link : σ

namespace World

variable {σ : Type}

/-- A world in which nothing has happened yet. -/
def start (link : σ) (pool : Pool) : World σ :=
  { clock := 0, shared := { pool := pool }, link := link }

/-- The pool is changed from outside, and a moment passes. -/
def changePool (w : World σ) (f : Pool → Pool) : World σ :=
  { w with clock := w.clock + 1, shared := { w.shared with pool := f w.shared.pool } }

end World

namespace Program

/-- A program runs alone. The clock moves on whenever it is read. -/
def run {σ α : Type} (link : Link σ) : Program α → World σ → α × World σ
  | done a, w => (a, w)
  | step .clock next, w => (next w.clock).run link { w with clock := w.clock + 1 }
  | step .look next, w => (next w.shared).run link w
  | step (.keep shared) next, w => (next ()).run link { w with shared := shared }
  | step (.call message) next, w =>
    let (reply, took, state) := link.carry message w.link
    (next reply).run link { w with clock := w.clock + took, link := state }
  | step .acquire next, w => (next ()).run link w
  | step .release next, w => (next ()).run link w
  | step (.pause nanos) next, w => (next ()).run link { w with clock := w.clock + nanos }

end Program

end SearchClient

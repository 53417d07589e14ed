import SearchClient.Proofs.Program.Runs

/-!
# Programs that run together

Any number of programs run together in one `Scene`: what they share, the latest moment that one of
them read, and whose turn at the sniff it is. A program that has begun goes on alone until it waits,
for the answer to a message, for its turn, or for time to pass; only then may another come in. So
what programs do between two waits is done at once, and a run of a `Crowd` is an interleaving of
them at their waits.

The outside decides which program goes on, what the clock shows and what a message gets for an
answer. Nothing is assumed about it but that the clock never goes back, and the turn is given to
nobody while another has it. A program need not go on at all, so what holds of all runs holds at
every moment of each.
-/

set_option autoImplicit false
set_option relaxedAutoImplicit false

namespace SearchClient

/-- What programs that run together have around them. -/
structure Scene where
  shared : Shared
  /-- The latest moment that was read from the clock. -/
  moment : Nat := 0
  /-- The program whose turn at the sniff it is. -/
  turn : Option Nat := none
  deriving Repr, Inhabited

/-- What the outside decides about a step: which program takes it, and, where that matters, what the
clock shows and what the message gets for an answer. -/
structure Choice where
  who : Nat
  moment : Nat := 0
  answer : Except LinkFault Reply := .error .timeout

/-- One program goes on for a number of steps while the clock stands still. -/
def stint (who moment count : Nat) : List Choice :=
  List.replicate count { who := who, moment := moment }

namespace Operation

/-- Whether others may come in before a step is taken. -/
def waits : Operation → Bool
  | call _ | acquire | pause _ => true
  | clock | look | keep _ | release => false

/-- What a step gives back and leaves behind, if it can be taken. -/
def take (choice : Choice) : (op : Operation) → Scene → Option (op.Answer × Scene)
  | clock, sc =>
    if sc.moment ≤ choice.moment then some (choice.moment, { sc with moment := choice.moment })
    else none
  | look, sc => some (sc.shared, sc)
  | keep shared, sc => some ((), { sc with shared := shared })
  | call _, sc => some (choice.answer, sc)
  | acquire, sc =>
    match sc.turn with
    | none => some ((), { sc with turn := some choice.who })
    | some _ => none
  | release, sc => some ((), { sc with turn := none })
  | pause nanos, sc => some ((), { sc with moment := sc.moment + nanos })

/-- The exchange that a step is. -/
def exchange? : (op : Operation) → op.Answer → Option Exchange
  | call message, answer => some (message, answer)
  | clock, _ | look, _ | keep _, _ | acquire, _ | release, _ | pause _, _ => none

/-- There is a scene in which a step can be taken, and for one that does not wait it is the scene at
hand. -/
theorem exists_take (op : Operation) (who : Nat) (sc : Scene) : ∃ sc₁ choice answer sc',
    (op.waits = false → sc₁ = sc) ∧ choice.who = who ∧ op.take choice sc₁ = some (answer, sc') := by
  cases op with
  | clock =>
    exact ⟨sc, { who := who, moment := sc.moment }, sc.moment, sc, fun _ ↦ rfl, rfl,
      if_pos (Nat.le_refl _)⟩
  | acquire =>
    exact ⟨{ sc with turn := none }, { who := who }, (), { sc with turn := some who }, nofun, rfl,
      rfl⟩
  | look => exact ⟨sc, { who := who }, sc.shared, sc, fun _ ↦ rfl, rfl, rfl⟩
  | keep shared =>
    exact ⟨sc, { who := who }, (), { sc with shared := shared }, fun _ ↦ rfl, rfl, rfl⟩
  | call message => exact ⟨sc, { who := who }, .error .timeout, sc, fun _ ↦ rfl, rfl, rfl⟩
  | release => exact ⟨sc, { who := who }, (), { sc with turn := none }, fun _ ↦ rfl, rfl, rfl⟩
  | pause nanos =>
    exact ⟨sc, { who := who }, (), { sc with moment := sc.moment + nanos }, fun _ ↦ rfl, rfl, rfl⟩

end Operation

/-- Whether others may come in before a program goes on. -/
def Program.waits {α : Type} : Program α → Bool
  | done _ => true
  | step op _ => op.waits

/-- Programs in a scene. -/
structure Crowd (α : Type) where
  scene : Scene
  programs : List (Program α)
  /-- The program that has not come to a wait yet. -/
  busy : Option Nat := none

namespace Crowd

variable {α : Type}

/-- What a program is after a step, with the scene that it leaves behind. -/
def advance (choice : Choice) (scene : Scene) : Program α → Option (Program α × Scene)
  | .done _ => none
  | .step op next => (op.take choice scene).map fun (answer, scene) ↦ (next answer, scene)

/-- The crowd after a step, if it can be taken. -/
def take (c : Crowd α) (choice : Choice) : Option (Crowd α) :=
  if c.busy = none ∨ c.busy = some choice.who then
    match c.programs[choice.who]? with
    | none => none
    | some program =>
      (advance choice c.scene program).map fun (rest, scene) ↦
        { scene := scene
          programs := c.programs.set choice.who rest
          busy := if rest.waits then none else some choice.who }
  else none

/-- The crowd after some steps, if they can be taken. -/
def play : List Choice → Crowd α → Option (Crowd α)
  | [], c => some c
  | choice :: choices, c => (c.take choice).bind (play choices)

/-- A step of a crowd is one of the program that takes it, and no other program has begun and not
come to a wait. -/
theorem take_eq_some {c c' : Crowd α} {choice : Choice} (h : c.take choice = some c') :
    ∃ op next answer, c.programs[choice.who]? = some (.step op next) ∧
      (c.busy = none ∨ c.busy = some choice.who) ∧
      op.take choice c.scene = some (answer, c'.scene) ∧
      c'.programs = c.programs.set choice.who (next answer) ∧
      c'.busy = if (next answer).waits then none else some choice.who := by
  unfold take at h
  split at h
  · rename_i hbusy
    split at h
    · cases h
    · rename_i program hprogram
      cases program with
      | done a => cases h
      | step op next =>
        simp only [advance, Option.map_map, Option.map_eq_some_iff] at h
        obtain ⟨⟨answer, scene⟩, hop, rfl⟩ := h
        exact ⟨op, next, answer, hprogram, hbusy, hop, rfl, rfl⟩
  · cases h

end Crowd

end SearchClient

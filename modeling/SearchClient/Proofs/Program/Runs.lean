import SearchClient.Cluster.Program

/-!
# Runs of programs

A run of a program is told by its deeds: the moments it read from the clock and the answers its
messages got. `Program.Runs` says that a program, begun with what the requests share, can do these
deeds, end with this value and leave this behind. Nothing is assumed about the clock or about what
carries the messages, so what holds of all runs holds with every clock and every link. Nothing else
happens in between: a run is one of a program that runs alone.

`runs_bind` splits a run of one program after another, and the equivalences beside it step over the
single operations. `exists_runs` shows that a program comes to an end whatever is around it, and
`runs_run` that the executable `Program.run` performs a run.
-/

set_option autoImplicit false
set_option relaxedAutoImplicit false

namespace SearchClient

/-- A step of a run in which the outside takes part: the clock is read, or a message is answered. -/
inductive Deed where
  | read (moment : Nat)
  | exchange (message : Message) (answer : Except LinkFault Reply)

/-- A message with the answer that it got. -/
abbrev Exchange := Message × Except LinkFault Reply

/-- The exchange that a deed is. -/
def Deed.exchange? : Deed → Option Exchange
  | read _ => none
  | exchange message answer => some (message, answer)

/-- The exchanges among deeds, in order. -/
def exchanges (deeds : List Deed) : List Exchange := deeds.filterMap Deed.exchange?

@[simp] theorem exchanges_nil : exchanges [] = [] := rfl

@[simp] theorem exchanges_read (moment : Nat) (deeds : List Deed) :
    exchanges (.read moment :: deeds) = exchanges deeds := rfl

@[simp] theorem exchanges_exchange (message : Message) (answer : Except LinkFault Reply)
    (deeds : List Deed) :
    exchanges (.exchange message answer :: deeds) = (message, answer) :: exchanges deeds := rfl

@[simp] theorem exchanges_append (first second : List Deed) :
    exchanges (first ++ second) = exchanges first ++ exchanges second :=
  List.filterMap_append

/-- A single step, taken while the requests share something, gives this back, is told by these deeds
and leaves this behind. -/
def Operation.Does : (op : Operation) → Shared → op.Answer → List Deed → Shared → Prop
  | .clock, s, moment, deeds, s' => deeds = [.read moment] ∧ s' = s
  | .look, s, seen, deeds, s' => seen = s ∧ deeds = [] ∧ s' = s
  | .keep kept, _, _, deeds, s' => deeds = [] ∧ s' = kept
  | .call message, s, answer, deeds, s' => deeds = [.exchange message answer] ∧ s' = s
  | .acquire, s, _, deeds, s' => deeds = [] ∧ s' = s
  | .release, s, _, deeds, s' => deeds = [] ∧ s' = s
  | .pause _, s, _, deeds, s' => deeds = [] ∧ s' = s

namespace Program

variable {α β : Type}

/-- A program that is begun with what the requests share can do these deeds, end with this value and
leave this behind. -/
inductive Runs : Program α → Shared → List Deed → α → Shared → Prop
  | done (a : α) (s : Shared) : Runs (.done a) s [] a s
  | step {op : Operation} {next : op.Answer → Program α} {s s₁ s₂ : Shared} {first rest : List Deed}
      {answer : op.Answer} {a : α} (hop : op.Does s answer first s₁)
      (hrest : Runs (next answer) s₁ rest a s₂) : Runs (.step op next) s (first ++ rest) a s₂

variable {s s' : Shared} {deeds : List Deed} {b : β}

@[simp] theorem runs_pure {a c : α} :
    (pure a : Program α).Runs s deeds c s' ↔ deeds = [] ∧ c = a ∧ s' = s := by
  constructor
  · intro h
    cases h
    exact ⟨rfl, rfl, rfl⟩
  · rintro ⟨rfl, rfl, rfl⟩
    exact .done _ _

/-- A run that begins with a single step is that step followed by a run of what comes next. -/
theorem runs_step {op : Operation} {next : op.Answer → Program β} :
    (step op next).Runs s deeds b s' ↔ ∃ answer first s₁ rest, deeds = first ++ rest ∧
      op.Does s answer first s₁ ∧ (next answer).Runs s₁ rest b s' := by
  constructor
  · intro h
    cases h with
    | step hop hrest => exact ⟨_, _, _, _, rfl, hop, hrest⟩
  · rintro ⟨answer, first, s₁, rest, rfl, hop, hrest⟩
    exact .step hop hrest

/-- A run of one program after another is a run of the first followed by one of the second. -/
theorem runs_bind {p : Program α} {f : α → Program β} :
    (p >>= f).Runs s deeds b s' ↔ ∃ before a between after, deeds = before ++ after ∧
      p.Runs s before a between ∧ (f a).Runs between after b s' := by
  induction p generalizing s deeds with
  | done a =>
    constructor
    · intro h
      exact ⟨[], a, s, deeds, rfl, .done a s, h⟩
    · rintro ⟨before, a', between, after, rfl, hfirst, hsecond⟩
      cases hfirst
      exact hsecond
  | step op next ih =>
    constructor
    · intro h
      obtain ⟨answer, first, s₁, rest, rfl, hop, hrest⟩ := runs_step.mp h
      obtain ⟨before, a, between, after, rfl, hfirst, hsecond⟩ := (ih answer).mp hrest
      exact ⟨first ++ before, a, between, after, (List.append_assoc ..).symm,
        .step hop hfirst, hsecond⟩
    · rintro ⟨before, a, between, after, rfl, hfirst, hsecond⟩
      cases hfirst with
      | step hop hrest =>
        rw [List.append_assoc]
        exact .step hop ((ih _).mpr ⟨_, a, between, after, rfl, hrest, hsecond⟩)

/-- What becomes of the value of a program takes no step. -/
theorem runs_bind_pure {p : Program α} {g : α → β} :
    (p >>= fun a ↦ pure (g a)).Runs s deeds b s' ↔ ∃ a, p.Runs s deeds a s' ∧ b = g a := by
  rw [runs_bind]
  constructor
  · rintro ⟨before, a, between, after, rfl, hrun, hrest⟩
    obtain ⟨rfl, rfl, rfl⟩ := runs_pure.mp hrest
    exact ⟨a, by rwa [List.append_nil], rfl⟩
  · rintro ⟨a, hrun, rfl⟩
    exact ⟨deeds, a, s', [], (List.append_nil _).symm, hrun, runs_pure.mpr ⟨rfl, rfl, rfl⟩⟩

/-! ### Single operations -/

theorem runs_now_bind {f : Nat → Program β} : (now >>= f).Runs s deeds b s' ↔
    ∃ moment rest, deeds = .read moment :: rest ∧ (f moment).Runs s rest b s' := by
  refine runs_step.trans ⟨?_, ?_⟩
  · rintro ⟨moment, _, _, rest, rfl, ⟨rfl, rfl⟩, hrest⟩
    exact ⟨moment, rest, rfl, hrest⟩
  · rintro ⟨moment, rest, rfl, hrest⟩
    exact ⟨moment, [.read moment], s, rest, rfl, ⟨rfl, rfl⟩, hrest⟩

theorem runs_look_bind {f : Shared → Program β} :
    (look >>= f).Runs s deeds b s' ↔ (f s).Runs s deeds b s' := by
  refine runs_step.trans ⟨?_, ?_⟩
  · rintro ⟨_, _, _, rest, rfl, ⟨rfl, rfl, rfl⟩, hrest⟩
    exact hrest
  · intro hrest
    exact ⟨s, [], s, deeds, rfl, ⟨rfl, rfl, rfl⟩, hrest⟩

theorem runs_change_bind {g : Shared → Shared} {f : Unit → Program β} :
    (change g >>= f).Runs s deeds b s' ↔ (f ()).Runs (g s) deeds b s' := by
  refine (runs_look_bind (f := fun seen ↦ step (.keep (g seen)) done >>= f)).trans
    (runs_step.trans ⟨?_, ?_⟩)
  · rintro ⟨_, _, _, rest, rfl, ⟨rfl, rfl⟩, hrest⟩
    exact hrest
  · intro hrest
    exact ⟨(), [], g s, deeds, rfl, ⟨rfl, rfl⟩, hrest⟩

theorem runs_call_bind {message : Message} {f : Except LinkFault Reply → Program β} :
    (call message >>= f).Runs s deeds b s' ↔
      ∃ answer rest, deeds = .exchange message answer :: rest ∧ (f answer).Runs s rest b s' := by
  refine runs_step.trans ⟨?_, ?_⟩
  · rintro ⟨answer, _, _, rest, rfl, ⟨rfl, rfl⟩, hrest⟩
    exact ⟨answer, rest, rfl, hrest⟩
  · rintro ⟨answer, rest, rfl, hrest⟩
    exact ⟨answer, [.exchange message answer], s, rest, rfl, ⟨rfl, rfl⟩, hrest⟩

theorem runs_acquire_bind {f : Unit → Program β} :
    (acquire >>= f).Runs s deeds b s' ↔ (f ()).Runs s deeds b s' := by
  refine runs_step.trans ⟨?_, ?_⟩
  · rintro ⟨_, _, _, rest, rfl, ⟨rfl, rfl⟩, hrest⟩
    exact hrest
  · intro hrest
    exact ⟨(), [], s, deeds, rfl, ⟨rfl, rfl⟩, hrest⟩

theorem runs_release_bind {f : Unit → Program β} :
    (release >>= f).Runs s deeds b s' ↔ (f ()).Runs s deeds b s' := by
  refine runs_step.trans ⟨?_, ?_⟩
  · rintro ⟨_, _, _, rest, rfl, ⟨rfl, rfl⟩, hrest⟩
    exact hrest
  · intro hrest
    exact ⟨(), [], s, deeds, rfl, ⟨rfl, rfl⟩, hrest⟩

end Program

/-! ### Programs come to an end -/

/-- What is around a running program: the moment that its clock shows and the answer that a message
gets, both of which may depend on all that was done before. -/
structure Surroundings where
  moment : List Deed → Nat
  answer : List Deed → Message → Except LinkFault Reply

/-- Deeds that come after earlier ones are those that the surroundings bring about. -/
def Surroundings.BringAbout (around : Surroundings) : List Deed → List Deed → Prop
  | _, [] => True
  | past, .read moment :: deeds =>
    moment = around.moment past ∧ around.BringAbout (past ++ [.read moment]) deeds
  | past, .exchange message answer :: deeds =>
    answer = around.answer past message ∧
      around.BringAbout (past ++ [.exchange message answer]) deeds

/-- Whatever is around a single step, it is taken, and what is brought about after it goes on from
there. -/
theorem Operation.exists_does (around : Surroundings) (op : Operation) (past : List Deed)
    (s : Shared) : ∃ answer deeds s', op.Does s answer deeds s' ∧ ∀ rest,
      around.BringAbout (past ++ deeds) rest → around.BringAbout past (deeds ++ rest) := by
  cases op with
  | clock =>
    exact ⟨around.moment past, _, s, ⟨rfl, rfl⟩, fun _ hrest ↦ ⟨rfl, hrest⟩⟩
  | call message =>
    exact ⟨around.answer past message, _, s, ⟨rfl, rfl⟩, fun _ hrest ↦ ⟨rfl, hrest⟩⟩
  | look => exact ⟨s, [], s, ⟨rfl, rfl, rfl⟩, by simp⟩
  | keep kept => exact ⟨(), [], kept, ⟨rfl, rfl⟩, by simp⟩
  | acquire => exact ⟨(), [], s, ⟨rfl, rfl⟩, by simp⟩
  | release => exact ⟨(), [], s, ⟨rfl, rfl⟩, by simp⟩
  | pause nanos => exact ⟨(), [], s, ⟨rfl, rfl⟩, by simp⟩

/-- Whatever is around a program, it comes to an end. -/
theorem Program.exists_runs {α : Type} (around : Surroundings) (p : Program α) (past : List Deed)
    (s : Shared) : ∃ deeds a s', p.Runs s deeds a s' ∧ around.BringAbout past deeds := by
  induction p generalizing past s with
  | done a => exact ⟨[], a, s, .done a s, trivial⟩
  | step op next ih =>
    obtain ⟨answer, first, s₁, hop, hfirst⟩ := op.exists_does around past s
    obtain ⟨rest, a, s', hrest, haround⟩ := ih answer (past ++ first) s₁
    exact ⟨first ++ rest, a, s', .step hop hrest, hfirst rest haround⟩

/-! ### Programs that run alone -/

/-- The deeds of a program that runs with a link and the clock of its world. -/
def Program.deeds {α σ : Type} (link : Link σ) : Program α → World σ → List Deed
  | done _, _ => []
  | step .clock next, w =>
    .read w.clock :: (next w.clock).deeds link { w with clock := w.clock + 1 }
  | step .look next, w => (next w.shared).deeds link w
  | step (.keep shared) next, w => (next ()).deeds link { w with shared := shared }
  | step (.call message) next, w =>
    let (reply, took, state) := link.carry message w.link
    .exchange message reply ::
      (next reply).deeds link { w with clock := w.clock + took, link := state }
  | step .acquire next, w => (next ()).deeds link w
  | step .release next, w => (next ()).deeds link w
  | step (.pause nanos) next, w => (next ()).deeds link { w with clock := w.clock + nanos }

/-- A program that runs with a link and the clock of its world performs one of its runs. -/
theorem Program.runs_run {α σ : Type} (link : Link σ) (p : Program α) (w : World σ) :
    p.Runs w.shared (p.deeds link w) (p.run link w).1 (p.run link w).2.shared := by
  induction p generalizing w with
  | done a => exact .done a w.shared
  | step op next ih =>
    cases op with
    | clock =>
      exact runs_step.mpr ⟨w.clock, [.read w.clock], w.shared, _, rfl, ⟨rfl, rfl⟩,
        ih w.clock { w with clock := w.clock + 1 }⟩
    | look => exact runs_look_bind.mpr (ih w.shared w)
    | keep kept =>
      exact runs_step.mpr ⟨(), [], kept, _, rfl, ⟨rfl, rfl⟩, ih () { w with shared := kept }⟩
    | call message =>
      exact runs_step.mpr ⟨(link.carry message w.link).1, [.exchange message _], w.shared, _, rfl,
        ⟨rfl, rfl⟩, ih (link.carry message w.link).1
          { w with clock := w.clock + (link.carry message w.link).2.1
                   link := (link.carry message w.link).2.2 }⟩
    | acquire => exact runs_acquire_bind.mpr (ih () w)
    | release => exact runs_release_bind.mpr (ih () w)
    | pause nanos =>
      exact runs_step.mpr ⟨(), [], w.shared, _, rfl, ⟨rfl, rfl⟩,
        ih () { w with clock := w.clock + nanos }⟩

/-- A link that gives one answer after another, whatever it is asked, and none in the end. -/
def Link.ofAnswers : Link (List (Except LinkFault Reply)) where
  carry _ answers := (answers.headD (.error .timeout), 1, answers.tail)

end SearchClient

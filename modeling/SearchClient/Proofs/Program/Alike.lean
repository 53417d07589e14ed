import SearchClient.Proofs.Program.Runs

/-!
# Programs that go alike

Two programs go alike if they take the same steps as long as what each of them sees of what is
shared is related: whatever the clock shows and whatever answers come, they read and send the same,
and what they leave behind is related again. `Program.Alike` says so step by step. It is put
together like programs are (`Alike.bind`), and what it gives is a simulation: each run of one is,
deed by deed, a run of the other (`Alike.exists_runs`).

What is around a program decides how it goes: `Runs.unique` shows that there is only one run that is
brought about by given surroundings. So programs that go alike have the same deeds and values in the
same surroundings.
-/

set_option autoImplicit false
set_option relaxedAutoImplicit false

namespace SearchClient

/-- Whether a step has nothing to do with what is shared. -/
def Operation.isApart : Operation → Bool
  | look | keep _ => false
  | clock | call _ | acquire | release | pause _ => true

/-- A step that has nothing to do with what is shared can be taken whatever that is. -/
theorem Operation.Does.of_isApart {op : Operation} {s s₁ : Shared} {answer : op.Answer}
    {deeds : List Deed} (h : op.Does s answer deeds s₁) (hop : op.isApart = true) (s' : Shared) :
    s₁ = s ∧ op.Does s' answer deeds s' := by
  cases op with
  | look | keep => cases hop
  | clock | call | acquire | release | pause => exact ⟨h.2, h.1, rfl⟩

namespace Program

variable {α β : Type} {R : Shared → Shared → Prop}

/-- Two programs take the same steps, as long as what they see of what is shared is related. -/
inductive Alike (R : Shared → Shared → Prop) : Program α → Program α → Prop
  | done (a : α) : Alike R (.done a) (.done a)
  | look {next next' : Shared → Program α}
      (hnext : ∀ s s', R s s' → Alike R (next s) (next' s')) :
      Alike R (.step .look next) (.step .look next')
  | keep {kept kept' : Shared} {next next' : Unit → Program α} (hkept : R kept kept')
      (hnext : Alike R (next ()) (next' ())) :
      Alike R (.step (.keep kept) next) (.step (.keep kept') next')
  | apart {op : Operation} {next next' : op.Answer → Program α} (hop : op.isApart = true)
      (hnext : ∀ answer, Alike R (next answer) (next' answer)) :
      Alike R (.step op next) (.step op next')

namespace Alike

/-! ### Putting programs together -/

theorem pure (a : α) : Alike R (Pure.pure a : Program α) (Pure.pure a) := .done a

theorem bind {p p' : Program α} {f f' : α → Program β} (h : p.Alike R p')
    (hf : ∀ a, (f a).Alike R (f' a)) : (p >>= f).Alike R (p' >>= f') := by
  induction h with
  | done a => exact hf a
  | look _ ih => exact .look ih
  | keep hkept _ ih => exact .keep hkept ih
  | apart hop _ ih => exact .apart hop ih

theorem now_bind {f f' : Nat → Program β} (hf : ∀ moment, (f moment).Alike R (f' moment)) :
    (now >>= f).Alike R (now >>= f') :=
  .apart rfl hf

theorem look_bind {f f' : Shared → Program β} (hf : ∀ s s', R s s' → (f s).Alike R (f' s')) :
    (Program.look >>= f).Alike R (Program.look >>= f') :=
  .look hf

theorem call_bind {message : Message} {f f' : Except LinkFault Reply → Program β}
    (hf : ∀ answer, (f answer).Alike R (f' answer)) :
    (call message >>= f).Alike R (call message >>= f') :=
  .apart rfl hf

theorem change {g g' : Shared → Shared} (hg : ∀ s s', R s s' → R (g s) (g' s')) :
    (Program.change g).Alike R (Program.change g') :=
  .look fun s s' h ↦ .keep (hg s s' h) (.done ())

/-! ### Runs -/

/-- Whatever the first of two programs that go alike can do, the second can do as well. -/
theorem exists_runs {p p' : Program α} (h : p.Alike R p') {s s' s₁ : Shared} {deeds : List Deed}
    {a : α} (hrun : p.Runs s deeds a s₁) (hs : R s s') :
    ∃ s₁', p'.Runs s' deeds a s₁' ∧ R s₁ s₁' := by
  induction h generalizing s s' deeds with
  | done b =>
    cases hrun
    exact ⟨s', .done a s', hs⟩
  | look _ ih =>
    obtain ⟨_, _, _, rest, rfl, ⟨rfl, rfl, rfl⟩, hrest⟩ := runs_step.mp hrun
    obtain ⟨s₁', hrest', hs₁⟩ := ih _ _ hs hrest hs
    exact ⟨s₁', runs_step.mpr ⟨_, [], _, rest, rfl, ⟨rfl, rfl, rfl⟩, hrest'⟩, hs₁⟩
  | keep hkept _ ih =>
    obtain ⟨_, _, _, rest, rfl, ⟨rfl, rfl⟩, hrest⟩ := runs_step.mp hrun
    obtain ⟨s₁', hrest', hs₁⟩ := ih hrest hkept
    exact ⟨s₁', runs_step.mpr ⟨_, [], _, rest, rfl, ⟨rfl, rfl⟩, hrest'⟩, hs₁⟩
  | apart hop _ ih =>
    obtain ⟨answer, first, s₂, rest, rfl, hdoes, hrest⟩ := runs_step.mp hrun
    obtain ⟨rfl, hdoes'⟩ := hdoes.of_isApart hop s'
    obtain ⟨s₁', hrest', hs₁⟩ := ih answer hrest hs
    exact ⟨s₁', .step hdoes' hrest', hs₁⟩

end Alike

end Program

/-! ### Runs in the same surroundings -/

namespace Surroundings

variable {around : Surroundings} {past first rest : List Deed}

theorem bringAbout_append : around.BringAbout past (first ++ rest) ↔
    around.BringAbout past first ∧ around.BringAbout (past ++ first) rest := by
  induction first generalizing past with
  | nil => simp [BringAbout]
  | cons deed first ih =>
    cases deed with
    | read | exchange => simp [BringAbout, ih, and_assoc]

end Surroundings

/-- A single step is decided by what is shared and by what is around it. -/
theorem Operation.Does.unique {op : Operation} {around : Surroundings}
    {past first first' : List Deed} {s s₁ s₁' : Shared} {answer answer' : op.Answer}
    (h : op.Does s answer first s₁) (h' : op.Does s answer' first' s₁')
    (haround : around.BringAbout past first) (haround' : around.BringAbout past first') :
    answer' = answer ∧ first' = first ∧ s₁' = s₁ := by
  cases op with
  | clock =>
    obtain ⟨⟨rfl, rfl⟩, ⟨rfl, rfl⟩⟩ := And.intro h h'
    have hmoment : answer' = answer := haround'.1.trans haround.1.symm
    exact ⟨hmoment, by rw [hmoment], rfl⟩
  | call message =>
    obtain ⟨⟨rfl, rfl⟩, ⟨rfl, rfl⟩⟩ := And.intro h h'
    have hanswer : answer' = answer := haround'.1.trans haround.1.symm
    exact ⟨hanswer, by rw [hanswer], rfl⟩
  | look =>
    obtain ⟨⟨rfl, rfl, rfl⟩, ⟨rfl, rfl, rfl⟩⟩ := And.intro h h'
    exact ⟨rfl, rfl, rfl⟩
  | keep | acquire | release | pause =>
    obtain ⟨⟨rfl, rfl⟩, ⟨rfl, rfl⟩⟩ := And.intro h h'
    exact ⟨rfl, rfl, rfl⟩

/-- There is only one run of a program that is brought about by what is around it. -/
theorem Program.Runs.unique {α : Type} {p : Program α} {around : Surroundings}
    {past deeds deeds' : List Deed} {s s₁ s₁' : Shared} {a a' : α} (h : p.Runs s deeds a s₁)
    (h' : p.Runs s deeds' a' s₁') (haround : around.BringAbout past deeds)
    (haround' : around.BringAbout past deeds') : deeds' = deeds ∧ a' = a ∧ s₁' = s₁ := by
  induction h generalizing past deeds' with
  | done =>
    cases h'
    exact ⟨rfl, rfl, rfl⟩
  | step hop _ ih =>
    obtain ⟨answer', first', s₂', rest', rfl, hop', hrest'⟩ := runs_step.mp h'
    rw [Surroundings.bringAbout_append] at haround haround'
    obtain ⟨rfl, rfl, rfl⟩ := hop.unique hop' haround.1 haround'.1
    obtain ⟨rfl, rfl, rfl⟩ := ih hrest' haround.2 haround'.2
    exact ⟨rfl, rfl, rfl⟩

end SearchClient

import SearchClient.Proofs.Program.Crowd

/-!
# What programs keep

Something that holds of what programs share is kept if every step of each program leaves it so. A
program may rely on it in turn: while it waits, the others may do whatever keeps it, and where it
does not wait it finds what it left behind. `Program.Keeps` says this of one program, and what it
can say in the end. It is put together like programs are (`Keeps.bind`).

If all programs of a crowd keep something then it holds at every moment of each run of them, and
whichever has come to its end ended as it should (`Crowd.keeps_play`). A program that runs alone is
no exception (`Keeps.runs`), and there the clock may even go back.
-/

set_option autoImplicit false
set_option relaxedAutoImplicit false

namespace SearchClient

namespace Program

variable {α β : Type} {I : Shared → Prop} {post : α → Shared → Prop}
  {post₂ : β → Shared → Prop} {s : Shared}

/-- Begun with what is shared, a program keeps what holds of it, as long as the others keep it while
the program waits, and it ends as it should. -/
def Keeps (I : Shared → Prop) (post : α → Shared → Prop) : Program α → Shared → Prop
  | done a, s => post a s
  | step op next, s => ∀ s₁, (op.waits = false → s₁ = s) → I s₁ →
      ∀ answer deeds s', op.Does s₁ answer deeds s' → I s' ∧ (next answer).Keeps I post s'

namespace Keeps

/-! ### Putting programs together -/

theorem pure {a : α} (h : post a s) : (Pure.pure a : Program α).Keeps I post s := h

theorem bind {p : Program α} {f : α → Program β} (hp : p.Keeps I post s) (hs : I s)
    (hf : ∀ a s', I s' → post a s' → (f a).Keeps I post₂ s') : (p >>= f).Keeps I post₂ s := by
  induction p generalizing s with
  | done a => exact hf a s hs hp
  | step op next ih =>
    intro s₁ hs₁ hI answer deeds s' hdoes
    obtain ⟨hkept, hrest⟩ := hp s₁ hs₁ hI answer deeds s' hdoes
    exact ⟨hkept, ih answer hrest hkept⟩

/-! ### Single operations -/

theorem now_bind {f : Nat → Program α} (h : ∀ moment, (f moment).Keeps I post s) :
    (now >>= f).Keeps I post s := by
  intro s₁ hs₁ hI moment deeds s' hdoes
  obtain rfl := hs₁ rfl
  obtain ⟨-, rfl⟩ := hdoes
  exact ⟨hI, h moment⟩

theorem look_bind {f : Shared → Program α} (h : (f s).Keeps I post s) :
    (look >>= f).Keeps I post s := by
  intro s₁ hs₁ hI seen deeds s' hdoes
  obtain rfl := hs₁ rfl
  obtain ⟨rfl, -, rfl⟩ := hdoes
  exact ⟨hI, h⟩

/-- What is shared is looked at and replaced in one go. -/
theorem change_bind {g : Shared → Shared} {f : Unit → Program α} (hg : I s → I (g s))
    (h : (f ()).Keeps I post (g s)) : (Program.change g >>= f).Keeps I post s := by
  intro s₁ hs₁ hI seen deeds s' hdoes
  obtain rfl := hs₁ rfl
  obtain ⟨rfl, -, rfl⟩ := hdoes
  refine ⟨hI, fun s₂ hs₂ _ _ _ s₃ hkept ↦ ?_⟩
  obtain ⟨-, rfl⟩ := hkept
  exact ⟨hg hI, h⟩

theorem change {g : Shared → Shared} {post : Unit → Shared → Prop} (hg : I s → I (g s))
    (h : post () (g s)) : (Program.change g).Keeps I post s :=
  change_bind (f := Pure.pure) hg (.pure h)

/-- While a message is under way the others go on. -/
theorem call_bind {message : Message} {f : Except LinkFault Reply → Program α}
    (h : ∀ answer s₁, I s₁ → (f answer).Keeps I post s₁) :
    (call message >>= f).Keeps I post s := by
  intro s₁ _ hI answer deeds s' hdoes
  obtain ⟨-, rfl⟩ := hdoes
  exact ⟨hI, h answer s' hI⟩

/-- While the turn is waited for the others go on. -/
theorem acquire_bind {f : Unit → Program α} (h : ∀ s₁, I s₁ → (f ()).Keeps I post s₁) :
    (acquire >>= f).Keeps I post s := by
  intro s₁ _ hI _ deeds s' hdoes
  obtain ⟨-, rfl⟩ := hdoes
  exact ⟨hI, h s' hI⟩

theorem release_bind {f : Unit → Program α} (h : (f ()).Keeps I post s) :
    (release >>= f).Keeps I post s := by
  intro s₁ hs₁ hI _ deeds s' hdoes
  obtain rfl := hs₁ rfl
  obtain ⟨-, rfl⟩ := hdoes
  exact ⟨hI, h⟩

/-! ### Runs -/

/-- A program that runs alone keeps what it keeps among others. -/
theorem runs {p : Program α} (h : p.Keeps I post s) {deeds : List Deed} {a : α} {s' : Shared}
    (hrun : p.Runs s deeds a s') (hs : I s) : I s' ∧ post a s' := by
  induction hrun with
  | done => exact ⟨hs, h⟩
  | step hdoes _ ih =>
    obtain ⟨hkept, hrest⟩ := h _ (fun _ ↦ rfl) hs _ _ _ hdoes
    exact ih hrest hkept

/-- Where a program waits, it goes on from whatever is shared then. -/
theorem of_waits {P : α → Prop} {p : Program α} (h : p.Keeps I (fun a _ ↦ P a) s)
    (hwaits : p.waits = true) (s' : Shared) : p.Keeps I (fun a _ ↦ P a) s' := by
  cases p with
  | done a => exact h
  | step op next =>
    intro s₁ _
    refine h s₁ fun hgoes ↦ ?_
    rw [show op.waits = true from hwaits] at hgoes
    cases hgoes

end Keeps

end Program

/-! ### Crowds -/

/-- What a step does among others it does alone as well. -/
theorem Operation.does_of_take {op : Operation} {choice : Choice} {sc sc' : Scene}
    {answer : op.Answer} (h : op.take choice sc = some (answer, sc')) :
    ∃ deeds, op.Does sc.shared answer deeds sc'.shared := by
  cases op with
  | clock =>
    simp only [take, Option.ite_none_right_eq_some, Option.some.injEq] at h
    obtain ⟨-, rfl, rfl⟩ := h
    exact ⟨_, rfl, rfl⟩
  | look =>
    simp only [take, Option.some.injEq] at h
    obtain ⟨rfl, rfl⟩ := h
    exact ⟨[], rfl, rfl, rfl⟩
  | keep | call | release | pause =>
    simp only [take, Option.some.injEq] at h
    obtain ⟨rfl, rfl⟩ := h
    exact ⟨_, rfl, rfl⟩
  | acquire =>
    simp only [take] at h
    split at h
    · simp only [Option.some.injEq] at h
      obtain ⟨-, rfl⟩ := h
      exact ⟨[], rfl, rfl⟩
    · cases h

namespace Crowd

variable {α : Type} {I : Shared → Prop} {P : α → Prop} {c c' : Crowd α}

/-- What is left of each program of a crowd keeps what holds of what they share. -/
structure AllKeep (I : Shared → Prop) (P : α → Prop) (c : Crowd α) : Prop where
  holds : I c.scene.shared
  keeps : ∀ i p, c.programs[i]? = some p → ∀ s, I s → (c.busy = some i → s = c.scene.shared) →
    p.Keeps I (fun a _ ↦ P a) s

theorem AllKeep.take (h : c.AllKeep I P) {choice : Choice} (htake : c.take choice = some c') :
    c'.AllKeep I P := by
  obtain ⟨op, next, answer, hprogram, hbusy, hop, hprograms, hbusy'⟩ := take_eq_some htake
  obtain ⟨deeds, hdoes⟩ := Operation.does_of_take hop
  obtain ⟨hkept, hrest⟩ := h.keeps choice.who _ hprogram _ h.holds (fun _ ↦ rfl) _ (fun _ ↦ rfl)
    h.holds answer deeds _ hdoes
  refine ⟨hkept, fun i p hp s hI hs ↦ ?_⟩
  rw [hprograms] at hp
  by_cases hi : choice.who = i
  · subst hi
    rw [List.getElem?_set_self'] at hp
    obtain ⟨_, -, rfl⟩ := Option.map_eq_some_iff.mp hp
    by_cases hwaits : (next answer).waits = true
    · exact hrest.of_waits hwaits s
    · rw [hbusy', if_neg hwaits] at hs
      rw [hs rfl]
      exact hrest
  · rw [List.getElem?_set_ne hi] at hp
    -- Another program waits, since the one that took the step is the only one that may be busy.
    refine h.keeps i p hp s hI fun hbusyi ↦ ?_
    rw [hbusyi] at hbusy
    rcases hbusy with hbusy | hbusy
    · cases hbusy
    · exact absurd (Option.some.inj hbusy).symm hi

theorem AllKeep.play (h : c.AllKeep I P) {choices : List Choice}
    (hplay : c.play choices = some c') : c'.AllKeep I P := by
  induction choices generalizing c with
  | nil =>
    rw [Crowd.play, Option.some.injEq] at hplay
    exact hplay ▸ h
  | cons choice choices ih =>
    rw [Crowd.play, Option.bind_eq_some_iff] at hplay
    obtain ⟨c₁, htake, hrest⟩ := hplay
    exact ih (h.take htake) hrest

/-- What all programs of a crowd keep holds at every moment, and each of them ends as it should. -/
theorem keeps_play (hI : I c.scene.shared)
    (hprograms : ∀ p ∈ c.programs, ∀ s, I s → p.Keeps I (fun a _ ↦ P a) s) {choices : List Choice}
    (hplay : c.play choices = some c') :
    I c'.scene.shared ∧ ∀ a, .done a ∈ c'.programs → P a := by
  have hstart : c.AllKeep I P :=
    ⟨hI, fun i p hp s hs _ ↦ hprograms p (List.mem_of_getElem? hp) s hs⟩
  have hend : c'.AllKeep I P := hstart.play hplay
  refine ⟨hend.holds, fun a ha ↦ ?_⟩
  obtain ⟨i, hi⟩ := List.getElem?_of_mem ha
  exact hend.keeps i _ hi c'.scene.shared hend.holds fun _ ↦ rfl

end Crowd

end SearchClient

import SearchClient.Proofs.Cluster.AlwaysANode

/-!
# What a walk hands out

A walk is asked for its next node again and again. Between two questions anything may be done to the
pool: nodes fail and recover, other walks go on, new nodes take the place of all, and the clock
shows what it likes. `Walk.answers` are the answers, each with the pool and the moment that it met.

`Walk.HandsOut` says what they have to be. The nodes come in the order of the walk; one that is dead
and whose time is not over is passed over, and one that is dead and whose time is over is given
another chance. Only a walk that has passed over all nodes at its first question hands out a dead
one before its time. A walk that has come to its end stays there.

What carries the induction is that a walk which has begun never falls back, so from its second
question on it only goes along the nodes that are left (`Walk.follows_answers`).
-/

set_option autoImplicit false
set_option relaxedAutoImplicit false

namespace SearchClient

/-! ### Ends of dead times -/

/-- One end of a dead time is not after another. No end is before all others. -/
def NotAfter (end₁ end₂ : Option Nat) : Prop :=
  ∀ moment, end₁ = some moment → ∃ later, end₂ = some later ∧ moment ≤ later

theorem NotAfter.trans {end₁ end₂ end₃ : Option Nat} (h : NotAfter end₁ end₂)
    (h' : NotAfter end₂ end₃) : NotAfter end₁ end₃ := by
  intro moment hmoment
  obtain ⟨later, hlater, hle⟩ := h moment hmoment
  obtain ⟨latest, hlatest, hle'⟩ := h' later hlater
  exact ⟨latest, hlatest, Nat.le_trans hle hle'⟩

theorem NotAfter.refl (end₁ : Option Nat) : NotAfter end₁ end₁ :=
  fun moment hmoment ↦ ⟨moment, hmoment, Nat.le_refl _⟩

namespace Pool

variable {pool : Pool} {number : Nat} {ring : List Nat}

theorem notAfter_of_endsEarlier {end₁ end₂ : Option Nat} (h : endsEarlier end₁ end₂ = true) :
    NotAfter end₁ end₂ := by
  rintro moment rfl
  cases end₂ with
  | none => cases h
  | some later => exact ⟨later, rfl, Nat.le_of_lt (of_decide_eq_true h)⟩

theorem notAfter_of_not_endsEarlier {end₁ end₂ : Option Nat} (h : endsEarlier end₁ end₂ = false) :
    NotAfter end₂ end₁ := by
  rintro moment rfl
  cases end₁ with
  | none => cases h
  | some later => exact ⟨later, rfl, Nat.le_of_not_lt (of_decide_eq_false h)⟩

/-- When the dead time of a node ends. -/
def deadUntil? (pool : Pool) (number : Nat) : Option Nat :=
  (pool.node? number).bind (·.health.deadUntil)

/-- No dead time ends before that of the node which has been dead longest. -/
theorem notAfter_of_longestDead (h : pool.longestDead ring = some number) :
    ∀ other ∈ ring, NotAfter (pool.deadUntil? number) (pool.deadUntil? other) := by
  induction ring generalizing number with
  | nil => cases h
  | cons first others ih =>
    simp only [longestDead] at h
    cases hothers : pool.longestDead others with
    | none =>
      rw [hothers, Option.some.injEq] at h
      subst h
      rw [longestDead_eq_none hothers]
      simpa using NotAfter.refl _
    | some best =>
      rw [hothers] at h
      simp only at h
      split_ifs at h with hearlier <;> cases h
      · exact List.forall_mem_cons.mpr ⟨notAfter_of_endsEarlier hearlier, ih hothers⟩
      · rw [Bool.not_eq_true] at hearlier
        refine List.forall_mem_cons.mpr ⟨.refl _, fun other hother ↦ ?_⟩
        exact (notAfter_of_not_endsEarlier hearlier).trans (ih hothers other hother)

/-! ### Where walks begin -/

/-- The place of the ring at which the next walk begins. -/
def start (pool : Pool) : Nat :=
  match pool.kind with
  | .single | .sticky => 0
  | .fixed | .sniffing => pool.turns % pool.size

theorem rest_walk (pool : Pool) : pool.walk.1.rest = pool.ring.rotateLeft pool.start := by
  have hzero : pool.ring.rotateLeft 0 = pool.ring := by
    simp [List.rotateLeft]
  unfold walk start
  cases pool.kind with
  | single | sticky => exact hzero.symm
  | fixed | sniffing => rfl

theorem always_walk (hkind : pool.kind ≠ .single) : pool.walk.1.always = false := by
  unfold walk
  cases hpool : pool.kind with
  | single => exact absurd hpool hkind
  | fixed | sniffing | sticky => rfl

theorem kind_apply (pool : Pool) (handling : Handling) :
    (handling.apply pool).kind = pool.kind := by
  cases handling with
  | reseed nodes => exact kind_reseed ..
  | mark => rfl
  | view => exact pool.kind_walk
  | stride w now => exact (w.onward_next pool now).kind_eq

@[simp] theorem kind_handled (pool : Pool) (handlings : List Handling) :
    (pool.handled handlings).kind = pool.kind := by
  induction handlings generalizing pool with
  | nil => rfl
  | cons handling handlings ih => exact (ih _).trans (pool.kind_apply handling)

end Pool

namespace Walk

/-! ### Questions and answers -/

/-- A question to a walk: what is done to the pool before it, and what the clock shows at it. -/
structure Question where
  handlings : List Handling := []
  now : Nat := 0

/-- An answer of a walk, with the pool and the moment that it met. -/
structure Answer where
  pool : Pool
  now : Nat
  stride : Stride

/-- The answers of a walk to some questions. -/
def answers (w : Walk) (pool : Pool) : List Question → List Answer
  | [] => []
  | question :: questions =>
    let found := pool.handled question.handlings
    let stride := w.next found question.now
    ⟨found, question.now, stride⟩ :: stride.walk.answers stride.pool questions

/-- The nodes that were handed out, in order. -/
def handedOut (answers : List Answer) : List Nat := answers.filterMap (·.stride.node)

namespace Answer

/-- A node is dead and its time is not over. -/
def Rests (a : Answer) (number : Nat) : Prop :=
  ∃ node moment, a.pool.node? number = some node ∧ node.health.alive = false ∧
    node.health.deadUntil = some moment ∧ a.now < moment

/-- A node is handed out as it is since it is alive, or is given another chance since its time is
over, and only then is something written down. -/
def Takes (a : Answer) (number : Nat) : Prop :=
  a.stride.node = some number ∧ ∃ node, a.pool.node? number = some node ∧
    if node.health.alive then a.stride.pool = a.pool ∧ a.stride.entries = []
    else NotAfter node.health.deadUntil (some a.now) ∧
      a.stride.pool = a.pool.changeHealth number Health.revive ∧
      a.stride.entries = [{ event := .resurrection, node := some node.url }]

/-- A node whose dead time ends first is given another chance before it is over. -/
def FallsBack (a : Answer) (ring : List Nat) (number : Nat) : Prop :=
  a.stride.node = some number ∧ number ∈ ring ∧
    (∀ other ∈ ring, NotAfter (a.pool.deadUntil? number) (a.pool.deadUntil? other)) ∧
    a.stride.pool = a.pool.changeHealth number Health.revive ∧
    ∃ node, a.pool.node? number = some node ∧ a.stride.entries =
      [{ event := .allNodesDead }, { event := .resurrection, node := some node.url }]

/-- No node is handed out, and nothing is changed or written down. -/
structure Ends (a : Answer) : Prop where
  node : a.stride.node = none
  pool : a.stride.pool = a.pool
  entries : a.stride.entries = []

end Answer

/-- Answers hand out some nodes in this order and pass over those between them, until one finds that
the nodes that are left rest, and so the walk ends. -/
inductive Follows : List Nat → List Answer → Prop
  | nil {order : List Nat} : Follows order []
  | takes {passed rest : List Nat} {number : Nat} {a : Answer} {later : List Answer}
      (hpassed : ∀ other ∈ passed, a.Rests other) (htakes : a.Takes number)
      (hlater : Follows rest later) : Follows (passed ++ number :: rest) (a :: later)
  | ends {rest : List Nat} {a : Answer} {later : List Answer}
      (hrest : ∀ other ∈ rest, a.Rests other) (hends : a.Ends) (hlater : ∀ b ∈ later, b.Ends) :
      Follows rest (a :: later)

/-- Answers hand out nodes in order, at least one if there was a question. Only if all nodes of the
ring rest at the first one do they fall back on a dead node, and on no other after it. -/
inductive HandsOut (ring order : List Nat) : List Answer → Prop
  | inOrder {answers : List Answer} (hfollows : Follows order answers)
      (hfirst : ∀ a ∈ answers.head?, ¬ a.Ends) : HandsOut ring order answers
  | allDead {a : Answer} {later : List Answer} {number : Nat}
      (hrest : ∀ other ∈ ring, a.Rests other) (hfalls : a.FallsBack ring number)
      (hlater : ∀ b ∈ later, b.Ends) : HandsOut ring order (a :: later)

/-! ### One answer -/

variable {w : Walk} {pool : Pool} {now : Nat} {stride : Stride} {ring order : List Nat}
  {answers : List Answer}

theorem Answer.rests_of_resting {number : Nat} (hknown : number < pool.register.length)
    (h : pool.Resting false now number) : Answer.Rests ⟨pool, now, stride⟩ number := by
  have hnode : pool.node? number = some pool.register[number] := List.getElem?_eq_getElem hknown
  obtain ⟨-, hdue⟩ := h _ hnode
  rw [Health.isDue, Bool.or_eq_false_iff] at hdue
  obtain ⟨halive, hmoment⟩ := hdue
  split at hmoment
  · cases hmoment
  · rename_i moment huntil
    exact ⟨_, moment, hnode, halive, huntil, Nat.lt_of_not_le (of_decide_eq_false hmoment)⟩

theorem notAfter_of_isDue {health : Health} (hdead : health.alive = false)
    (hdue : health.isDue now = true) : NotAfter health.deadUntil (some now) := by
  intro moment hmoment
  rw [Health.isDue, hdead, hmoment, Bool.false_or] at hdue
  exact ⟨now, rfl, of_decide_eq_true hdue⟩

/-- A walk for which health counts, over some nodes, all of which are known. -/
structure Informed (w : Walk) (pool : Pool) : Prop where
  always : w.always = false
  nonempty : w.all ≠ []
  all : ∀ number ∈ w.all, number < pool.register.length
  rest : ∀ number ∈ w.rest, number < pool.register.length

theorem Informed.handled (h : w.Informed pool) (handlings : List Handling) :
    w.Informed (pool.handled handlings) := by
  have hle := pool.length_register_le_handled handlings
  exact ⟨h.always, h.nonempty, fun number hnumber ↦ Nat.lt_of_lt_of_le (h.all number hnumber) hle,
    fun number hnumber ↦ Nat.lt_of_lt_of_le (h.rest number hnumber) hle⟩

theorem Onward.always_eq (h : w.Onward pool now stride) : stride.walk.always = w.always := by
  cases h <;> rfl

theorem Onward.all_eq (h : w.Onward pool now stride) : stride.walk.all = w.all := by
  cases h <;> rfl

theorem Onward.rest_suffix (h : w.Onward pool now stride) : stride.walk.rest <:+ w.rest := by
  cases h with
  | taken hrest | revived hrest =>
    rw [hrest]
    exact (List.suffix_cons ..).trans (List.suffix_append ..)
  | spent | nobody | longestDead => exact List.nil_suffix

theorem Onward.informed (h : w.Onward pool now stride) (hinformed : w.Informed pool) :
    stride.walk.Informed stride.pool := by
  refine ⟨h.always_eq.trans hinformed.always, ?_, ?_, ?_⟩
  · rw [h.all_eq]
    exact hinformed.nonempty
  · rw [h.all_eq, h.length_register_eq]
    exact hinformed.all
  · rw [h.length_register_eq]
    exact fun number hnumber ↦ hinformed.rest number (h.rest_suffix.subset hnumber)

/-- A walk over some nodes has begun when it has answered. -/
theorem Onward.begun (h : w.Onward pool now stride) (hall : w.all ≠ []) :
    stride.walk.begun = true := by
  cases h with
  | nobody _ hnone => exact absurd hnone hall
  | taken | revived | spent | longestDead => rfl

theorem Answer.takes_of_taken {number : Nat} {node : Node} {rest : List Nat}
    (hnode : pool.node? number = some node) (halive : node.health.alive = true) :
    Answer.Takes ⟨pool, now, ⟨some number, { w with rest := rest, begun := true }, pool, []⟩⟩
      number := by
  refine ⟨rfl, node, hnode, ?_⟩
  rw [if_pos halive]
  exact ⟨rfl, rfl⟩

theorem revival_eq {number : Nat} {node : Node} (hnode : pool.node? number = some node) :
    pool.revival number = { event := .resurrection, node := some node.url } := by
  rw [Pool.revival, hnode, Option.map_some]

theorem Answer.takes_of_revived {number : Nat} {node : Node} {rest : List Nat}
    (hnode : pool.node? number = some node) (hdead : node.health.alive = false)
    (hdue : node.health.isDue now = true) :
    Answer.Takes ⟨pool, now, ⟨some number, { w with rest := rest, begun := true },
      pool.changeHealth number Health.revive, [pool.revival number]⟩⟩ number := by
  refine ⟨rfl, node, hnode, ?_⟩
  rw [if_neg (by simp [hdead])]
  exact ⟨notAfter_of_isDue hdead hdue, rfl, by rw [revival_eq hnode]⟩

theorem Answer.fallsBack_of_longestDead {number : Nat} {node : Node}
    (hlongest : pool.longestDead w.all = some number) (hnode : pool.node? number = some node) :
    Answer.FallsBack ⟨pool, now, ⟨some number, { w with rest := [], begun := true },
      pool.changeHealth number Health.revive,
      [{ event := .allNodesDead }, pool.revival number]⟩⟩ w.all number :=
  ⟨rfl, Pool.longestDead_mem hlongest, Pool.notAfter_of_longestDead hlongest, rfl, node, hnode,
    by rw [revival_eq hnode]⟩

/-- What the answer of a walk can be: it takes one of the nodes before it, or all of them rest, and
then it ends, or falls back if it has not begun. -/
inductive Comes (w : Walk) (a : Answer) : Prop
  | takes {passed : List Nat} {number : Nat}
      (hrest : w.rest = passed ++ number :: a.stride.walk.rest)
      (hpassed : ∀ other ∈ passed, a.Rests other) (htakes : a.Takes number)
  | ends (hrest : ∀ other ∈ w.rest, a.Rests other) (hends : a.Ends) (hbegun : w.begun = true)
      (hleft : a.stride.walk.rest = [])
  | fallsBack {number : Nat} (hrest : ∀ other ∈ w.rest, a.Rests other)
      (hfalls : a.FallsBack w.all number) (hfirst : w.begun = false)
      (hleft : a.stride.walk.rest = [])

theorem Onward.comes (h : w.Onward pool now stride) (hinformed : w.Informed pool) :
    Comes w ⟨pool, now, stride⟩ := by
  have hrests {numbers : List Nat} {stride : Stride} (hsub : numbers ⊆ w.rest)
      (hresting : ∀ number ∈ numbers, pool.Resting w.always now number) :
      ∀ number ∈ numbers, Answer.Rests ⟨pool, now, stride⟩ number := by
    rw [hinformed.always] at hresting
    exact fun number hnumber ↦
      Answer.rests_of_resting (hinformed.rest number (hsub hnumber)) (hresting number hnumber)
  cases h with
  | taken hrest hskipped hnode halive =>
    rw [hinformed.always, Bool.false_or] at halive
    refine .takes hrest (hrests ?_ hskipped) (Answer.takes_of_taken hnode halive)
    rw [hrest]
    exact List.subset_append_left ..
  | revived hrest hskipped hnode hdead hdue =>
    have halive := (Bool.or_eq_false_iff.mp hdead).2
    refine .takes hrest (hrests ?_ hskipped) (Answer.takes_of_revived hnode halive hdue)
    rw [hrest]
    exact List.subset_append_left ..
  | spent hresting hbegun =>
    exact .ends (hrests (List.Subset.refl _) hresting) ⟨rfl, rfl, rfl⟩ hbegun rfl
  | nobody _ hall => exact absurd hall hinformed.nonempty
  | longestDead hresting hbegun hlongest =>
    have hknown := hinformed.all _ (Pool.longestDead_mem hlongest)
    exact .fallsBack (hrests (List.Subset.refl _) hresting)
      (Answer.fallsBack_of_longestDead hlongest (List.getElem?_eq_getElem hknown)) hbegun rfl

/-! ### Walks that have begun -/

/-- A walk that has come to its end stays there. -/
theorem ends_of_spent (hbegun : w.begun = true) (hrest : w.rest = [])
    (questions : List Question) : ∀ a ∈ w.answers pool questions, a.Ends := by
  induction questions generalizing w pool with
  | nil => simp [answers]
  | cons question questions ih =>
    have honward := w.onward_next (pool.handled question.handlings) question.now
    simp only [answers]
    generalize w.next (pool.handled question.handlings) question.now = stride at honward ⊢
    cases honward with
    | taken hsome | revived hsome => simp [hrest] at hsome
    | spent => exact List.forall_mem_cons.mpr ⟨⟨rfl, rfl, rfl⟩, ih rfl rfl⟩
    | nobody hnone | longestDead _ hnone =>
      rw [hbegun] at hnone
      cases hnone

/-- A walk that has begun goes along the nodes that it has before it. -/
theorem follows_answers (hbegun : w.begun = true) (hinformed : w.Informed pool)
    (questions : List Question) : Follows w.rest (w.answers pool questions) := by
  induction questions generalizing w pool with
  | nil => exact .nil
  | cons question questions ih =>
    have hfound := hinformed.handled question.handlings
    have honward := w.onward_next (pool.handled question.handlings) question.now
    have hlater := ih (honward.begun hinformed.nonempty) (honward.informed hfound)
    simp only [answers]
    cases honward.comes hfound with
    | takes hrest hpassed htakes =>
      rw [hrest]
      exact .takes hpassed htakes hlater
    | ends hrest hends _ hleft =>
      exact .ends hrest hends (ends_of_spent (honward.begun hinformed.nonempty) hleft questions)
    | fallsBack _ _ hfirst =>
      rw [hbegun] at hfirst
      cases hfirst

theorem not_ends_of_takes {a : Answer} {number : Nat} (h : a.Takes number) : ¬ a.Ends := by
  intro hends
  have hnode := h.1
  rw [hends.node] at hnode
  cases hnode

/-- A walk that has not begun hands out nodes in the order in which it has them before it. -/
theorem handsOut_answers (hfirst : w.begun = false) (hfresh : w.Fresh)
    (hinformed : w.Informed pool) (questions : List Question) :
    HandsOut w.all w.rest (w.answers pool questions) := by
  cases questions with
  | nil => exact .inOrder .nil (by simp [answers])
  | cons question questions =>
    have hfound := hinformed.handled question.handlings
    have honward := w.onward_next (pool.handled question.handlings) question.now
    have hbegun := honward.begun hinformed.nonempty
    simp only [answers]
    cases honward.comes hfound with
    | takes hrest hpassed htakes =>
      refine .inOrder ?_ (by simpa using not_ends_of_takes htakes)
      rw [hrest]
      exact .takes hpassed htakes (follows_answers hbegun (honward.informed hfound) questions)
    | ends _ _ hspent =>
      rw [hfirst] at hspent
      cases hspent
    | fallsBack hrest hfalls _ hleft =>
      refine .allDead (fun other hother ↦ hrest other ?_) hfalls
        (ends_of_spent hbegun hleft questions)
      rwa [(hfresh hfirst).mem_iff]

/-! ### No node twice -/

theorem handedOut_cons {a : Answer} {number : Nat} (h : a.stride.node = some number)
    (later : List Answer) : handedOut (a :: later) = number :: handedOut later := by
  simp [handedOut, h]

theorem handedOut_cons_of_none {a : Answer} (h : a.stride.node = none) (later : List Answer) :
    handedOut (a :: later) = handedOut later :=
  List.filterMap_cons_none h

theorem handedOut_of_ends (h : ∀ a ∈ answers, a.Ends) : handedOut answers = [] :=
  List.filterMap_eq_nil_iff.mpr fun a ha ↦ (h a ha).node

theorem Follows.sublist (h : Follows order answers) : (handedOut answers).Sublist order := by
  induction h with
  | nil => exact List.nil_sublist _
  | takes _ htakes _ ih =>
    rw [handedOut_cons htakes.1]
    exact (ih.cons_cons _).trans (List.sublist_append_right ..)
  | ends _ hends hlater =>
    rw [handedOut_cons_of_none hends.node, handedOut_of_ends hlater]
    exact List.nil_sublist _

theorem HandsOut.nodup (h : HandsOut ring order answers) (horder : order.Nodup) :
    (handedOut answers).Nodup := by
  cases h with
  | inOrder hfollows => exact hfollows.sublist.nodup horder
  | allDead _ hfalls hlater =>
    rw [handedOut_cons hfalls.1, handedOut_of_ends hlater]
    exact List.nodup_singleton _

/-! ### Walks over pools that were made -/

variable {kind : PoolKind} {urls : List Url}

/-- A pool of several nodes was made, and whatever has been done to it since, a walk begins over it.
However often it is asked, whatever is done to the pool before each question and whatever the clock
shows, it hands out nodes in the order of the ring from its start on as `HandsOut` says, and none
twice. -/
theorem walk_hands_out (hkind : kind ≠ .single) (hmake : Pool.make kind urls = .ok pool)
    (handlings : List Handling) (questions : List Question) :
    let handled := pool.handled handlings
    HandsOut handled.ring (handled.ring.rotateLeft handled.start)
        (handled.walk.1.answers handled.walk.2 questions) ∧
      (handedOut (handled.walk.1.answers handled.walk.2 questions)).Nodup := by
  intro handled
  have hhandled : handled.Populated := (Pool.populated_of_make hmake).handled handlings
  have hknown : ∀ number ∈ handled.ring, number < handled.walk.2.register.length := by
    rw [Pool.register_walk]
    exact hhandled.listed
  have hinformed : handled.walk.1.Informed handled.walk.2 := by
    refine ⟨Pool.always_walk ?_, by simpa using hhandled.nonempty, by simpa using hknown, ?_⟩
    · rwa [Pool.kind_handled, Pool.kind_of_make hmake]
    · exact fun number hnumber ↦ hknown number (handled.rest_walk_perm.mem_iff.mp hnumber)
  have hhands := handsOut_answers handled.begun_walk handled.fresh_walk hinformed questions
  rw [Pool.all_walk, Pool.rest_walk] at hhands
  refine ⟨hhands, hhands.nodup ?_⟩
  rw [← Pool.rest_walk]
  exact hhandled.toSound.nodup_walk

open Send (nodeAt longDead)

/-- Three nodes that nothing is known about. -/
def trio : Pool :=
  { kind := .fixed
    register := [{ url := nodeAt "a" }, { url := nodeAt "b" }, { url := nodeAt "c" }]
    ring := [0, 1, 2] }

/-- The walk after these begins at the second node, which is dead for long. The third is due. -/
def mixedHealth : List Handling :=
  [.view, .mark 1 fun _ ↦ longDead, .mark 2 fun _ ↦ { longDead with deadUntil := some 5 }]

/-- The first node dies before the walk reaches it, and recovers when the walk is over. -/
def lateRecovery : List Question :=
  [{ now := 10 }, { handlings := [.mark 0 fun _ ↦ longDead], now := 10 },
    { handlings := [.mark 0 fun _ ↦ .recovered], now := 2000 }]

/-- All three nodes are dead for long, the third not so long as the others. -/
def deadTrio : List Handling :=
  [.mark 0 fun _ ↦ longDead, .mark 1 fun _ ↦ longDead,
    .mark 2 fun _ ↦ { longDead with deadUntil := some 500 }]

/-- One walk over three nodes hands out only the node that is due, and another falls back. -/
theorem walk_hands_out_trio :
    let mixed := trio.handled mixedHealth
    let dead := trio.handled deadTrio
    PoolKind.fixed ≠ .single ∧
    Pool.make .fixed [nodeAt "a", nodeAt "b", nodeAt "c"] = .ok trio ∧
    (mixed.walk.1.answers mixed.walk.2 lateRecovery).map (·.stride.node) = [some 2, none, none] ∧
    HandsOut [0, 1, 2] [1, 2, 0] (mixed.walk.1.answers mixed.walk.2 lateRecovery) ∧
    (dead.walk.1.answers dead.walk.2 [{}, {}]).map (·.stride.node) = [some 2, none] ∧
    HandsOut [0, 1, 2] [0, 1, 2] (dead.walk.1.answers dead.walk.2 [{}, {}]) := by
  have hkind : PoolKind.fixed ≠ .single := by decide
  have hmake : Pool.make .fixed [nodeAt "a", nodeAt "b", nodeAt "c"] = .ok trio := rfl
  exact ⟨hkind, hmake, rfl, (walk_hands_out hkind hmake mixedHealth lateRecovery).1, rfl,
    (walk_hands_out hkind hmake deadTrio [{}, {}]).1⟩

end Walk

end SearchClient

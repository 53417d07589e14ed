import SearchClient.Proofs.Cluster.LateMarks

/-!
# Health charts

The health of a node is kept as four entries of a chart, and each change touches some of them. A
node that takes the place of another takes over its chart, and with it all that happened to the
other. `Node.Reached` says which nodes there can be and what lies behind the chart of each, and
`Health.Tells` says what a chart has to tell about that past: alive is a node that has not failed
since it last answered, and how often it has and until when it is dead follow from its past alone.
The count of failures in a row is the node's own as long as they are fewer than 2^32 (`Health`).

Each change keeps a chart telling (`tells_failure`, `tells_answer`, `tells_revival`), so every node
that is reached has such a chart. Requests change health in no other way (`Goes.charted`), so these
are all nodes that requests ever meet, however many run together.
-/

set_option autoImplicit false
set_option relaxedAutoImplicit false

namespace SearchClient

namespace Health

/-! ### Changes of health -/

/-- What can happen to the health of a node. -/
inductive Change where
  | failure (now deadTime maxDeadTime : Nat)
  | answer
  | revival
  deriving DecidableEq, Repr

/-- The health after a change. -/
def Change.apply : Change → Health → Health
  | failure now deadTime maxDeadTime, h => h.fail now deadTime maxDeadTime
  | answer, _ => recovered
  | revival, h => h.revive

def Change.isFailure : Change → Bool
  | failure .. => true
  | _ => false

/-- What happened since the last answer. The past of a chart has the latest change first. -/
def sinceAnswer (past : List Change) : List Change := past.takeWhile (· ≠ .answer)

/-- How often a node has failed since its last answer. -/
def failuresInRow (past : List Change) : Nat := (sinceAnswer past).countP Change.isFailure

/-- The last mark of a node is a failure, and the time that it has to be dead for it, which depends
on the failures in a row before, ends at a moment. -/
def DeadBy (past : List Change) (moment : Nat) : Prop :=
  ∃ later now deadTime maxDeadTime earlier,
    past = later ++ .failure now deadTime maxDeadTime :: earlier ∧
    (∀ change ∈ later, change = .revival) ∧
    moment = now + backoff (failuresInRow earlier) deadTime maxDeadTime

/-- What a chart tells about its past. -/
structure Tells (h : Health) (past : List Change) : Prop where
  alive_iff_failures : h.alive = true ↔ h.failures = 0
  alive_iff_deadUntil : h.alive = true ↔ h.deadUntil = none
  failures_eq : h.failures = failuresInRow past
  /-- A node that is alive asks for a ping if it was never marked, or was given another chance since
  its last answer. -/
  resurrected_iff : h.alive = true →
    (h.resurrected = true ↔ (∀ change ∈ past, change = .revival) ∨ .revival ∈ sinceAnswer past)
  deadUntil_iff : ∀ moment, h.deadUntil = some moment ↔ DeadBy past moment

variable {h : Health} {past : List Change} {moment now deadTime maxDeadTime : Nat}

/-! ### What follows from the past -/

@[simp] theorem sinceAnswer_answer (past : List Change) : sinceAnswer (.answer :: past) = [] := by
  simp [sinceAnswer]

@[simp] theorem sinceAnswer_failure (past : List Change) :
    sinceAnswer (.failure now deadTime maxDeadTime :: past) =
      .failure now deadTime maxDeadTime :: sinceAnswer past := by
  simp [sinceAnswer]

@[simp] theorem sinceAnswer_revival (past : List Change) :
    sinceAnswer (.revival :: past) = .revival :: sinceAnswer past := by
  simp [sinceAnswer]

theorem failuresInRow_answer (past : List Change) : failuresInRow (.answer :: past) = 0 := by
  simp [failuresInRow]

theorem failuresInRow_failure (past : List Change) :
    failuresInRow (.failure now deadTime maxDeadTime :: past) = failuresInRow past + 1 := by
  simp [failuresInRow, List.countP_cons, Change.isFailure]

theorem failuresInRow_revival (past : List Change) :
    failuresInRow (.revival :: past) = failuresInRow past := by
  simp [failuresInRow, Change.isFailure]

theorem not_deadBy_nil : ¬ DeadBy [] moment := by
  rintro ⟨later, now, deadTime, maxDeadTime, earlier, hpast, -⟩
  exact List.append_ne_nil_of_right_ne_nil later (List.cons_ne_nil _ _) hpast.symm

/-- The last change is a failure and decides, or it is none that counts. -/
theorem deadBy_cons_iff {change : Change} : DeadBy (change :: past) moment ↔
    (∃ now deadTime maxDeadTime, change = .failure now deadTime maxDeadTime ∧
      moment = now + backoff (failuresInRow past) deadTime maxDeadTime) ∨
    change = .revival ∧ DeadBy past moment := by
  constructor
  · rintro ⟨later, now, deadTime, maxDeadTime, earlier, hpast, hlater, hmoment⟩
    cases later with
    | nil =>
      obtain ⟨rfl, rfl⟩ := List.cons.inj hpast
      exact .inl ⟨now, deadTime, maxDeadTime, rfl, hmoment⟩
    | cons last later =>
      obtain ⟨rfl, rfl⟩ := List.cons.inj hpast
      obtain ⟨hlast, hlater⟩ := List.forall_mem_cons.mp hlater
      exact .inr ⟨hlast, later, now, deadTime, maxDeadTime, earlier, rfl, hlater, hmoment⟩
  · rintro (⟨now, deadTime, maxDeadTime, rfl, hmoment⟩ |
      ⟨rfl, later, now, deadTime, maxDeadTime, earlier, rfl, hlater, hmoment⟩)
    · exact ⟨[], now, deadTime, maxDeadTime, past, rfl, by simp, hmoment⟩
    · exact ⟨.revival :: later, now, deadTime, maxDeadTime, earlier, rfl,
        List.forall_mem_cons.mpr ⟨rfl, hlater⟩, hmoment⟩

/-! ### Charts that tell their past -/

/-- The chart of a new node. -/
theorem tells_new : Tells {} [] where
  alive_iff_failures := by simp
  alive_iff_deadUntil := by simp
  failures_eq := rfl
  resurrected_iff _ := by simp
  deadUntil_iff moment := by simp [not_deadBy_nil]

theorem tells_failure (htells : h.Tells past) (now deadTime maxDeadTime : Nat) :
    (h.fail now deadTime maxDeadTime).Tells (.failure now deadTime maxDeadTime :: past) where
  alive_iff_failures := by simp [fail]
  alive_iff_deadUntil := by simp [fail]
  failures_eq := by rw [fail, failuresInRow_failure, htells.failures_eq]
  resurrected_iff := nofun
  deadUntil_iff moment := by
    rw [deadBy_cons_iff, ← htells.failures_eq]
    simp [fail, eq_comm]

theorem tells_answer (past : List Change) : recovered.Tells (.answer :: past) where
  alive_iff_failures := by simp [recovered]
  alive_iff_deadUntil := by simp [recovered]
  failures_eq := by rw [recovered, failuresInRow_answer]
  resurrected_iff _ := by simp [recovered]
  deadUntil_iff moment := by simp [recovered, deadBy_cons_iff]

theorem tells_revival (htells : h.Tells past) : h.revive.Tells (.revival :: past) where
  alive_iff_failures := htells.alive_iff_failures
  alive_iff_deadUntil := htells.alive_iff_deadUntil
  failures_eq := htells.failures_eq.trans (failuresInRow_revival past).symm
  resurrected_iff _ := by simp [revive]
  deadUntil_iff moment := (htells.deadUntil_iff moment).trans (by simp [deadBy_cons_iff])

/-- Whatever happens to a node, its chart goes on telling its past. -/
theorem Tells.apply (htells : h.Tells past) (change : Change) :
    (change.apply h).Tells (change :: past) := by
  cases change with
  | failure now deadTime maxDeadTime => exact tells_failure htells now deadTime maxDeadTime
  | answer => exact tells_answer past
  | revival => exact tells_revival htells

end Health

/-! ### Nodes that can be reached -/

/-- The nodes there can be, each with the past of its chart. A node that takes over the chart of
another takes over its past. -/
inductive Node.Reached : Node → List Health.Change → Prop
  | new (url : Url) (id name : Option String) (roles : Roles) :
      Reached { url := url, id := id, name := name, roles := roles } []
  | changed {node : Node} {past : List Health.Change} (h : Reached node past)
      (change : Health.Change) :
      Reached { node with health := change.apply node.health } (change :: past)
  | inherits {node other : Node} {past past' : List Health.Change} (h : Reached node past)
      (hother : Reached other past') : Reached { node with health := other.health } past'

/-- The chart of a node that is reached tells its past. -/
theorem Node.Reached.tells {node : Node} {past : List Health.Change} (h : node.Reached past) :
    node.health.Tells past := by
  induction h with
  | new => exact Health.tells_new
  | changed _ change ih => exact ih.apply change
  | inherits _ _ _ ih => exact ih

/-- A node of which nothing is known is one that can be reached. -/
theorem Node.reached_of_health_eq {node : Node} (h : node.health = {}) : node.Reached [] := by
  obtain ⟨url, id, name, roles, health⟩ := node
  subst h
  exact .new url id name roles

namespace Pool

variable {pool : Pool} {number : Nat}

/-- All nodes there have been are ones that can be reached. -/
def Charted (pool : Pool) : Prop := ∀ node ∈ pool.register, ∃ past, node.Reached past

theorem charted_iff : pool.Charted ↔
    ∀ number node, pool.node? number = some node → ∃ past, node.Reached past := by
  constructor
  · intro h number node hnode
    exact h node (List.mem_of_getElem? hnode)
  · intro h node hnode
    obtain ⟨number, hnumber⟩ := List.getElem?_of_mem hnode
    exact h number node hnumber

theorem charted_of_make {kind : PoolKind} {urls : List Url} (h : make kind urls = .ok pool) :
    pool.Charted := by
  unfold make at h
  split_ifs at h
  cases h
  exact List.forall_mem_map.mpr fun url _ ↦ ⟨[], .new url none none {}⟩

theorem Charted.changeHealth (h : pool.Charted) (change : Health.Change) :
    (pool.changeHealth number change.apply).Charted := by
  rw [charted_iff] at h ⊢
  intro i node hnode
  by_cases hi : number = i
  · subst hi
    rw [node?_changeHealth_self] at hnode
    obtain ⟨before, hbefore, rfl⟩ := Option.map_eq_some_iff.mp hnode
    obtain ⟨past, hpast⟩ := h number before hbefore
    exact ⟨change :: past, hpast.changed change⟩
  · rw [node?_changeHealth_of_ne hi] at hnode
    exact h i node hnode

/-- A new node takes over the chart that is known of its locator. -/
theorem Charted.inherited (h : pool.Charted) {node : Node} (hnew : node.Reached []) :
    ∃ past, (pool.inherited node).Reached past := by
  unfold Pool.inherited
  cases hhealth : pool.healthAt? node.url with
  | none => exact ⟨[], hnew⟩
  | some health =>
    obtain ⟨known, hknown, rfl⟩ := Option.map_eq_some_iff.mp hhealth
    obtain ⟨number, -, hnumber⟩ := mem_nodes_iff.mp (List.mem_of_find?_eq_some hknown)
    obtain ⟨past, hpast⟩ := charted_iff.mp h number known hnumber
    exact ⟨past, hnew.inherits hpast⟩

theorem Charted.reseed (h : pool.Charted) {nodes : List Node}
    (hnew : ∀ node ∈ nodes, node.health = {}) : (pool.reseed nodes).1.Charted := by
  by_cases htakes : pool.kind.takesNewNodes = true ∧ nodes ≠ []
  · rw [reseed_of_takes htakes.1 htakes.2]
    refine List.forall_mem_append.mpr ⟨h, List.forall_mem_map.mpr fun node hnode ↦ ?_⟩
    exact h.inherited (Node.reached_of_health_eq (hnew node hnode))
  · rw [reseed_of_not_takes htakes]
    exact h

theorem Charted.walk (h : pool.Charted) : pool.walk.2.Charted := by
  rwa [Charted, register_walk]

end Pool

/-! ### Nodes that requests meet -/

namespace Send

variable {s : Settings} {r : Request} {requests : List Request} {start : Scene}
  {c : Crowd (Except Failure Response)} {places : Nat → Place} {story : List Happening} {who : Nat}
  {place place' : Place} {sc sc' : Scene} {move : Move}

/-- What a request does to the health of nodes are changes that charts tell of. -/
theorem Goes.charted [Url.Domain.Spelling] (h : Goes s r who place sc move place' sc')
    (hcharted : sc.shared.pool.Charted) : sc'.shared.pool.Charted := by
  refine h.pool_of hcharted (fun found hnew ↦ hcharted.reseed hnew) hcharted.walk
    (fun number ↦ hcharted.changeHealth .revival) fun number what ↦ ?_
  cases what with
  | dead moment => exact hcharted.changeHealth (.failure moment s.deadTimeout s.maxDeadTimeout)
  | alive => exact hcharted.changeHealth .answer

theorem Chronicle.charted [Url.Domain.Spelling] (hstory : Chronicle s requests start c places story)
    (hcharted : start.shared.pool.Charted) : c.scene.shared.pool.Charted := by
  induction hstory with
  | start => exact hcharted
  | happen _ _ _ hgoes _ _ ih => exact hgoes.charted ih

/-- Health charts tell the past of their nodes: that of every node that can be reached, and so that
of every node that requests meet, in whatever order they and their answers come. -/
theorem health_charts_tell_the_past [Url.Domain.Spelling] :
    (∀ node past, Node.Reached node past → node.health.Tells past) ∧
      ∀ kind urls s requests start choices c, Pool.make kind urls = .ok start.shared.pool →
        (Crowd.ofSends s requests start).play choices = some c →
        ∀ node ∈ c.scene.shared.pool.register,
          ∃ past, Node.Reached node past ∧ node.health.Tells past := by
  refine ⟨fun node past hreached ↦ hreached.tells, ?_⟩
  intro kind urls s requests start choices c hmake hplay node hnode
  obtain ⟨places, story, hstory⟩ := exists_chronicle hplay
  obtain ⟨past, hpast⟩ := hstory.charted (Pool.charted_of_make hmake) node hnode
  exact ⟨past, hpast, hpast.tells⟩

/-! ### A chart that is handed on -/

/-- A failure for a minute at first, and for half an hour at most. -/
def failureAt (moment : Nat) : Health.Change := .failure moment 60000000000 1800000000000

/-- A failure, an answer, and two failures, after which the node gets another chance. -/
def heirPast : List Health.Change :=
  [.revival, failureAt 20, failureAt 10, .answer, failureAt 5]

/-- A node that took over the chart of another, and then got its chance. -/
def heir : Node :=
  { url := nodeAt "b"
    health :=
      { alive := false, resurrected := true, failures := 2, deadUntil := some 84852000020 } }

theorem reached_heir : heir.Reached heirPast := by
  have hbackoff : backoff 1 60000000000 1800000000000 = 84852000000 := by decide +kernel
  have hother : ∃ other : Node, other.Reached heirPast.tail ∧
      other.health = { heir.health with resurrected := false } := by
    refine ⟨_, ((((Node.Reached.new (nodeAt "a") none none {}).changed (failureAt 5)).changed
      .answer).changed (failureAt 10)).changed (failureAt 20), ?_⟩
    simp [Health.Change.apply, failureAt, Health.fail, Health.recovered, heir, hbackoff]
  obtain ⟨other, hother, hhealth⟩ := hother
  have hheir := ((Node.Reached.new (nodeAt "b") none none {}).inherits hother).changed .revival
  rw [hhealth] at hheir
  exact hheir

/-- The heir has failed twice in a row, as the other had. Requests of which one marks its node late
meet only nodes whose charts tell their past. -/
theorem health_charts_tell_the_past_of_heir :
    heir.Reached heirPast ∧ heir.health.Tells heirPast ∧
      Health.failuresInRow heirPast = 2 ∧ Health.DeadBy heirPast 84852000020 ∧
      lateCrowd.scene.shared.pool.register.map (·.health.failures) = [1, 0] ∧
      ∀ node ∈ lateCrowd.scene.shared.pool.register,
        ∃ past, node.Reached past ∧ node.health.Tells past := by
  obtain ⟨hcharts, hrequests⟩ := health_charts_tell_the_past
  have htells := hcharts heir heirPast reached_heir
  have hmake : Pool.make .sniffing [nodeAt "a"] = .ok (Scene.among [nodeAt "a"]).shared.pool := rfl
  have hplay : (Crowd.ofSends (aging 5) [plainRequest, plainRequest] (.among [nodeAt "a"])).play
      (lateChoices ++ [lateMark]) = some lateCrowd := rfl
  exact ⟨reached_heir, htells, htells.failures_eq.symm, (htells.deadUntil_iff _).mp rfl, rfl,
    hrequests _ _ _ _ _ _ _ hmake hplay⟩

end Send

end SearchClient

import SearchClient.Proofs.Cluster.Budget
import SearchClient.Proofs.Cluster.ExactSniff

/-!
# The budget of the first request

How often a request may move on to another node is settled when it begins. Where neither settings
nor request have a say, that is the size of the pool less one. The first request of a client that
sniffs asks the cluster only afterwards, so it walks the nodes that were named with a budget that
was made for the seeds.

Nobody has failed yet in the pool that it walks (`Pool.Untouched`), so the walk passes over no node
and takes the nodes in the order in which they were named. `Walked.inOrder` and `Walked.reaches`
follow such a walk, and `first_request_is_bound_by_seeds` says how far it gets: to as many nodes as
there were seeds, or as were named, whichever is less.
-/

set_option autoImplicit false
set_option relaxedAutoImplicit false

namespace SearchClient

namespace Pool

variable {pool : Pool} {numbers : List Nat} {number : Nat} {change : Health → Health}

/-! ### Nodes in order -/

/-- The locators of the nodes with these numbers. -/
def locators (pool : Pool) (numbers : List Nat) : List Url :=
  numbers.filterMap fun number ↦ (pool.node? number).map Node.url

theorem map_url_nodes (pool : Pool) : pool.nodes.map Node.url = pool.locators pool.ring := by
  rw [nodes_eq, List.map_filterMap]
  rfl

theorem locators_cons {node : Node} (hnode : pool.node? number = some node) :
    pool.locators (number :: numbers) = node.url :: pool.locators numbers :=
  List.filterMap_cons_some (by rw [hnode, Option.map_some])

@[simp] theorem locators_changeHealth (numbers : List Nat) :
    (pool.changeHealth number change).locators numbers = pool.locators numbers := by
  refine List.filterMap_congr fun other _ ↦ ?_
  by_cases hother : number = other
  · subst hother
    rw [node?_changeHealth_self, Option.map_map]
    rfl
  · rw [node?_changeHealth_of_ne hother]

@[simp] theorem locators_walk (numbers : List Nat) :
    pool.walk.2.locators numbers = pool.locators numbers := by
  simp only [locators, node?_walk]

theorem map_url_nodes_changeHealth :
    (pool.changeHealth number change).nodes.map Node.url = pool.nodes.map Node.url := by
  rw [map_url_nodes, map_url_nodes, locators_changeHealth, ring_changeHealth]

/-! ### Pools that nobody has failed in -/

/-- The nodes with these numbers are there and alive. -/
def AllAlive (pool : Pool) (numbers : List Nat) : Prop :=
  ∀ number ∈ numbers, ∃ node, pool.node? number = some node ∧ node.health.alive = true

/-- What happens to the health of a node is nothing to the others. -/
theorem AllAlive.changeHealth (h : pool.AllAlive numbers) (hnumber : number ∉ numbers) :
    (pool.changeHealth number change).AllAlive numbers := by
  intro other hother
  have hne : number ≠ other := fun heq ↦ hnumber (heq ▸ hother)
  rw [node?_changeHealth_of_ne hne]
  exact h other hother

theorem AllAlive.length_locators (h : pool.AllAlive numbers) :
    (pool.locators numbers).length = numbers.length := by
  induction numbers with
  | nil => rfl
  | cons number numbers ih =>
    obtain ⟨⟨node, hnode, -⟩, hothers⟩ := List.forall_mem_cons.mp h
    rw [locators_cons hnode, List.length_cons, List.length_cons, ih hothers]

/-- A pool that no request has walked: all its nodes are alive, and the first has its turn. -/
structure Untouched (pool : Pool) : Prop extends Sound pool where
  alive : pool.AllAlive pool.ring
  turns_eq : pool.turns = 0

theorem untouched_of_make {kind : PoolKind} {urls : List Url} (h : make kind urls = .ok pool) :
    pool.Untouched := by
  have hsound := sound_of_make h
  unfold make at h
  split_ifs at h
  cases h
  refine ⟨hsound, fun number hnumber ↦ ?_, rfl⟩
  rw [List.mem_range] at hnumber
  exact ⟨{ url := urls[number] }, by simp [node?, hnumber], rfl⟩

/-- A node that is listed is alive, whether it was there before or not. -/
theorem Untouched.alive_inherited (h : pool.Untouched) {node : Node} (hnew : node.health = {}) :
    (pool.inherited node).health.alive = true := by
  unfold inherited
  cases hhealth : pool.healthAt? node.url with
  | none => simp only [hnew]
  | some health =>
    obtain ⟨known, hknown, rfl⟩ := Option.map_eq_some_iff.mp hhealth
    obtain ⟨i, hi, hnode⟩ := mem_nodes_iff.mp (List.mem_of_find?_eq_some hknown)
    obtain ⟨node', hnode', halive⟩ := h.alive i hi
    rw [hnode, Option.some.injEq] at hnode'
    exact hnode' ▸ halive

theorem Untouched.reseed (h : pool.Untouched) {nodes : List Node}
    (hnew : ∀ node ∈ nodes, node.health = {}) : (pool.reseed nodes).1.Untouched := by
  have hsound := h.toSound.reseed nodes
  by_cases htakes : pool.kind.takesNewNodes = true ∧ nodes ≠ []
  · rw [reseed_of_takes htakes.1 htakes.2] at hsound ⊢
    refine ⟨hsound, fun number hnumber ↦ ?_, rfl⟩
    obtain ⟨node, hnode⟩ := hsound.exists_node hnumber
    obtain ⟨k, hk, -, rfl⟩ := exists_of_relisted hnumber hnode
    exact ⟨_, hnode, h.alive_inherited (hnew _ (List.getElem_mem hk))⟩
  · rw [reseed_of_not_takes htakes]
    exact h

theorem lastsThroughNews_untouched : Send.LastsThroughNews Untouched :=
  fun _ _ hnew hpool ↦ hpool.reseed hnew

/-- A walk over such a pool begins with its first node. -/
theorem Untouched.rest_walk (h : pool.Untouched) : pool.walk.1.rest = pool.ring := by
  unfold Pool.walk
  cases pool.kind with
  | single | sticky => rfl
  | fixed | sniffing => simp [h.turns_eq]

end Pool

/-! ### Walks that pass over no node -/

/-- A node that is alive is not passed over. -/
theorem Pool.not_resting_of_alive {pool : Pool} {always : Bool} {now number : Nat} {node : Node}
    (hnode : pool.node? number = some node) (halive : node.health.alive = true) :
    ¬ pool.Resting always now number := by
  intro hresting
  have hdue := (hresting node hnode).2
  rw [Health.isDue, halive, Bool.true_or] at hdue
  cases hdue

/-- None is passed over where all are alive. -/
theorem Pool.AllAlive.eq_nil_of_resting {pool : Pool} {numbers : List Nat} {always : Bool}
    {now : Nat} (h : pool.AllAlive numbers)
    (hresting : ∀ number ∈ numbers, pool.Resting always now number) : numbers = [] := by
  refine List.eq_nil_iff_forall_not_mem.mpr fun number hnumber ↦ ?_
  obtain ⟨node, hnode, halive⟩ := h number hnumber
  exact Pool.not_resting_of_alive hnode halive (hresting number hnumber)

/-- A walk takes the first of the nodes it has before it, if they are alive, and leaves the pool as
it is. -/
theorem Walk.Onward.of_alive {w : Walk} {pool : Pool} {now : Nat} {onward : Stride}
    (h : w.Onward pool now onward) (hfresh : w.Fresh) (halive : pool.AllAlive w.rest) :
    onward.node = w.rest.head? ∧ onward.walk.rest = w.rest.tail ∧ onward.pool = pool ∧
      onward.entries = [] := by
  cases h with
  | @taken skipped rest number _ hrest hskipped =>
    have hnone : skipped = [] := by
      refine Pool.AllAlive.eq_nil_of_resting (fun other hother ↦ halive other ?_) hskipped
      rw [hrest]
      exact List.mem_append_left _ hother
    rw [hrest, hnone]
    exact ⟨rfl, rfl, rfl, rfl⟩
  | @revived skipped rest number _ hrest hskipped hnode hdead =>
    obtain ⟨node, hnode', hnodeAlive⟩ := halive number (by simp [hrest])
    rw [hnode, Option.some.injEq] at hnode'
    subst hnode'
    rw [hnodeAlive, Bool.or_true] at hdead
    cases hdead
  | spent hresting =>
    rw [halive.eq_nil_of_resting hresting]
    exact ⟨rfl, rfl, rfl, rfl⟩
  | nobody hbegun hall =>
    have hperm := hfresh hbegun
    rw [hall, List.perm_nil] at hperm
    rw [hperm]
    exact ⟨rfl, rfl, rfl, rfl⟩
  | longestDead hresting hbegun hlongest =>
    have hperm := hfresh hbegun
    rw [halive.eq_nil_of_resting hresting, List.nil_perm] at hperm
    rw [hperm] at hlongest
    cases hlongest

namespace Send

open Program

variable {c : Course} {w w' : Walk} {p p' : Progress} {sh sh' : Shared} {deeds : List Deed}
  {log : Log} {result : Except Failure Response} {stop : Stop} {s : Settings} {timeout : Nat}

/-- A stride over nodes that are alive changes nothing, and comes to the first of them. -/
theorem stride_of_alive {found : Option (Nat × Url)} (hfresh : w.Fresh)
    (halive : sh.pool.AllAlive w.rest)
    (h : (stride w p).Runs sh deeds (found, w', p') sh') : p' = p ∧ sh' = sh ∧
      w'.rest = w.rest.tail ∧
      found = w.rest.head?.bind
        (fun number ↦ (sh.pool.node? number).map fun node ↦ (number, node.url)) := by
  obtain ⟨looked, onward, honward, -, rfl, rfl, rfl, rfl⟩ := stride_runs h
  obtain ⟨hnode, hrest, hpool, hentries⟩ := honward.of_alive hfresh halive
  rw [hnode, hrest, hpool, hentries, List.append_nil]
  exact ⟨rfl, rfl, rfl, rfl⟩

/-- Where no node is left, a stride comes to none. -/
theorem rest_eq_nil_of_stride (hfresh : w.Fresh) (halive : sh.pool.AllAlive w.rest)
    (h : (stride w p).Runs sh deeds (none, w', p') sh') : w.rest = [] := by
  obtain ⟨-, -, -, hfound⟩ := stride_of_alive hfresh halive h
  cases hrest : w.rest with
  | nil => rfl
  | cons number rest =>
    obtain ⟨node, hnode, -⟩ := halive number (by simp [hrest])
    simp [hrest, hnode] at hfound

/-- The node that a stride comes to is the first of those before it. -/
theorem rest_eq_cons_of_stride {found : Nat × Url} (hfresh : w.Fresh)
    (halive : sh.pool.AllAlive w.rest)
    (h : (stride w p).Runs sh deeds (some found, w', p') sh') :
    w.rest = found.1 :: w'.rest ∧
      sh.pool.locators w.rest = found.2 :: sh.pool.locators w'.rest := by
  obtain ⟨-, -, hleft, hfound⟩ := stride_of_alive hfresh halive h
  cases hrest : w.rest with
  | nil => simp [hrest] at hfound
  | cons number rest =>
    obtain ⟨node, hnode, -⟩ := halive number (by simp [hrest])
    rw [hrest, List.head?_cons, Option.bind_some, hnode, Option.map_some, Option.some.injEq]
      at hfound
    rw [hrest, List.tail_cons] at hleft
    rw [hfound, hleft]
    exact ⟨rfl, Pool.locators_cons hnode⟩

/-! ### How far a walk gets -/

theorem Stop.kind_after (stop : Stop) : (stop.after s sh).pool.kind = sh.pool.kind := rfl

/-- After a failed stop at the first of the nodes before it, a walk has the others before it, and
they are alive. -/
theorem onward_of_alive {found : Nat × Url} (hfresh : w.Fresh) (hnodup : w.rest.Nodup)
    (halive : sh.pool.AllAlive w.rest)
    (h : (stride w p).Runs sh deeds (some found, w', p') sh') (hstop : found.1 = stop.number) :
    w'.Fresh ∧ w'.rest.Nodup ∧ (stop.after s sh').pool.AllAlive w'.rest := by
  obtain ⟨-, hsame, -, -⟩ := stride_of_alive hfresh halive h
  obtain ⟨hrest, -⟩ := rest_eq_cons_of_stride hfresh halive h
  rw [hrest, hstop] at hnodup halive
  obtain ⟨hnumber, hnodup⟩ := List.nodup_cons.mp hnodup
  refine ⟨(turnsLeft_of_stride hfresh h).2, hnodup, ?_⟩
  rw [hsame]
  exact Pool.AllAlive.changeHealth (fun number hmem ↦ halive number (List.mem_cons_of_mem _ hmem))
    hnumber

theorem runOut_of_exhausted (h : c.limits.maxRetries < p.tried) :
    runOut c p = p.surrender .maxRetriesReached .maxRetriesReached := by
  rw [runOut, if_neg (by omega), if_pos h]

/-- How a walk is given up on which nodes were tried. -/
theorem runOut_of_tried (h : 0 < p.tried) : ∃ e, runOut c p = .error (.givenUp e) ∧
    e.attempts = p.tried ∧
    e.why = if c.limits.maxRetries < p.tried then .maxRetriesReached else .failedOverAllNodes := by
  rw [runOut, if_neg (Nat.ne_of_gt h)]
  split_ifs with hexhausted
  · exact ⟨_, rfl, rfl, rfl⟩
  · exact ⟨_, rfl, rfl, rfl⟩

section Spelled

variable [Url.Domain.Spelling]

/-- A walk over nodes that are alive comes to them in order, and not further than the budget that a
request has left. -/
theorem Walked.inOrder (h : Walked c w p sh log p' result sh') (hfresh : w.Fresh)
    (hnodup : w.rest.Nodup) (halive : sh.pool.AllAlive w.rest)
    (hnothing : c.LearnsNothing sh.pool.kind) : log.stops.map Stop.node <+:
      (sh.pool.locators w.rest).take (c.limits.maxRetries + 1 - p.tried) := by
  induction h with
  | spent | late | exhausted => exact List.nil_prefix
  | ended moment stop hstride htime hbudget =>
    obtain ⟨rfl, -, -, -⟩ := stride_of_alive hfresh halive hstride
    obtain ⟨-, hlocators⟩ := rest_eq_cons_of_stride hfresh halive hstride
    rw [hlocators, Nat.succ_sub hbudget, List.take_succ_cons]
    exact ⟨_, rfl⟩
  | onward moment stop hstride htime hbudget hstop hresult hfault hrest ih =>
    obtain ⟨rfl, rfl, -, -⟩ := stride_of_alive hfresh halive hstride
    obtain ⟨-, hlocators⟩ := rest_eq_cons_of_stride hfresh halive hstride
    obtain ⟨hfresh', hnodup', halive'⟩ :=
      onward_of_alive (s := c.settings) hfresh hnodup halive hstride rfl
    obtain ⟨-, rfl⟩ := hnothing stop.kind_after hfault
    obtain ⟨asked, -, rfl, -⟩ := hfault.consulted
    have hlater := ih hfresh' hnodup' halive' hnothing
    rw [hlocators, Nat.succ_sub hbudget, List.take_succ_cons, List.map_cons]
    refine List.cons_prefix_cons.mpr ⟨rfl, ?_⟩
    simpa [Stop.after, Stop.progress, Progress.trying] using hlater
  | anew moment stop hstride _ _ _ _ hfault =>
    obtain ⟨-, rfl, -, -⟩ := stride_of_alive hfresh halive hstride
    obtain ⟨hlearnt, -⟩ := hnothing stop.kind_after hfault
    cases hlearnt

/-- Where all nodes fail in time, a walk over nodes that are alive ends for no other reason than
that no node or no retry is left. -/
theorem Walked.reaches (h : Walked c w p sh log p' result sh') (hfresh : w.Fresh)
    (hnodup : w.rest.Nodup) (halive : sh.pool.AllAlive w.rest)
    (hnothing : c.LearnsNothing sh.pool.kind)
    (htime : log.InTime c)
    (hfailed : ∀ stop ∈ log.stops, stop.Failed) : result = runOut c p' ∧
      (w.rest.length ≤ log.stops.length ∨ c.limits.maxRetries < p'.tried) := by
  induction h with
  | spent hstride =>
    rw [rest_eq_nil_of_stride hfresh halive hstride]
    exact ⟨rfl, .inl (Nat.le_refl _)⟩
  | late moment _ hlate =>
    have hcheck := htime (moment, []) List.mem_cons_self
    exact absurd hlate (Nat.not_lt.mpr hcheck)
  | exhausted _ _ _ hbudget => exact ⟨(runOut_of_exhausted hbudget).symm, .inr hbudget⟩
  | ended _ stop _ _ _ hstop hresult =>
    exact absurd (hfailed stop List.mem_cons_self) (Stop.not_failed_of_result hstop hresult)
  | onward moment stop hstride _ _ _ _ hfault _ ih =>
    obtain ⟨rfl, rfl, -, -⟩ := stride_of_alive hfresh halive hstride
    obtain ⟨hrest, -⟩ := rest_eq_cons_of_stride hfresh halive hstride
    obtain ⟨hfresh', hnodup', halive'⟩ :=
      onward_of_alive (s := c.settings) hfresh hnodup halive hstride rfl
    obtain ⟨-, rfl⟩ := hnothing stop.kind_after hfault
    obtain ⟨hend, hreached⟩ := ih hfresh' hnodup' halive' hnothing
      (List.forall_mem_cons.mp htime).2 (List.forall_mem_cons.mp hfailed).2
    refine ⟨hend, hreached.imp_left fun hlength ↦ ?_⟩
    rw [hrest]
    exact Nat.succ_le_succ hlength
  | anew moment stop hstride _ _ _ _ hfault =>
    obtain ⟨-, rfl, -, -⟩ := stride_of_alive hfresh halive hstride
    obtain ⟨hlearnt, -⟩ := hnothing stop.kind_after hfault
    cases hlearnt

/-! ### The nodes that are walked -/

/-- A walk on which nothing new is learnt leaves the pool with the nodes that it had. -/
theorem Walked.map_url_nodes (h : Walked c w p sh log p' result sh')
    (hnothing : c.LearnsNothing sh.pool.kind) :
    sh'.pool.nodes.map Node.url = sh.pool.nodes.map Node.url := by
  have hstrode {w w' : Walk} {p p' : Progress} {sh sh' : Shared} {deeds : List Deed}
      {found : Option (Nat × Url)} (hstride : (stride w p).Runs sh deeds (found, w', p') sh') :
      sh'.pool.nodes.map Node.url = sh.pool.nodes.map Node.url ∧ sh'.pool.kind = sh.pool.kind := by
    obtain ⟨_, onward, honward, -, -, -, -, rfl⟩ := stride_runs hstride
    refine ⟨?_, honward.kind_eq⟩
    cases honward with
    | taken | spent | nobody => rfl
    | revived | longestDead => exact Pool.map_url_nodes_changeHealth
  induction h with
  | spent hstride | late _ hstride | exhausted _ hstride => exact (hstrode hstride).1
  | ended _ stop hstride => exact Pool.map_url_nodes_changeHealth.trans (hstrode hstride).1
  | onward _ stop hstride _ _ _ _ hfault _ ih =>
    obtain ⟨hurls, hkind⟩ := hstrode hstride
    obtain ⟨-, rfl⟩ := hnothing (stop.kind_after.trans hkind) hfault
    have hlater := ih (by rwa [stop.kind_after, hkind])
    exact hlater.trans (Pool.map_url_nodes_changeHealth.trans hurls)
  | anew _ stop hstride _ _ _ _ hfault =>
    obtain ⟨-, hkind⟩ := hstrode hstride
    obtain ⟨hlearnt, -⟩ := hnothing (stop.kind_after.trans hkind) hfault
    cases hlearnt

/-- An answer that names nodes names at least one. -/
theorem Inquiry.Holds.found_ne_nil {i : Inquiry} {found : List Node} (h : i.Holds s timeout)
    (hfound : i.found? = some found) : found ≠ [] := by
  rintro rfl
  obtain ⟨node, finding⟩ := i
  cases finding with
  | unsendable | broken | declined | flawed => cases hfound
  | told message reply found =>
    cases hfound
    exact Sniff.readNodes_ne_nil h.2.2

/-- The nodes of a pool are those that an answer among these deeds named. -/
def Named (s : Settings) (timeout : Nat) (deeds : List Deed) (pool : Pool) : Prop :=
  ∃ i : Inquiry, ∃ found, i.Holds s timeout ∧ i.found? = some found ∧ i.deeds <:+: deeds ∧
    pool.nodes.map Node.url = found.map Node.url

theorem Named.mono {deeds' : List Deed} {pool : Pool} (h : Named s timeout deeds pool)
    (hinside : deeds <:+: deeds') : Named s timeout deeds' pool := by
  obtain ⟨i, found, hi, hfound, hdeeds, hurls⟩ := h
  exact ⟨i, found, hi, hfound, hdeeds.trans hinside, hurls⟩

/-- Pools of nodes with the same locators are named by the same answers. -/
theorem Named.congr {pool pool' : Pool} (h : Named s timeout deeds pool)
    (hurls : pool'.nodes.map Node.url = pool.nodes.map Node.url) :
    Named s timeout deeds pool' := by
  obtain ⟨i, found, hi, hfound, hdeeds, hnamed⟩ := h
  exact ⟨i, found, hi, hfound, hdeeds, hurls.trans hnamed⟩

/-- A pool of nodes that were named has some. -/
theorem Named.length_pos {pool : Pool} (h : Named s timeout deeds pool) :
    0 < pool.nodes.length := by
  obtain ⟨i, found, hi, hfound, -, hnamed⟩ := h
  have hpos := List.length_pos_iff.mpr (hi.found_ne_nil hfound)
  rwa [← List.length_map Node.url, hnamed, List.length_map]

theorem Sniffed.named {nodes : List Url} {earlier : Option LinkFault} {inquiries : List Inquiry}
    (h : Sniffed s timeout nodes earlier sh inquiries .replaced sh')
    (htakes : sh.pool.kind.takesNewNodes = true) :
    Named s timeout (inquiries.flatMap Inquiry.deeds) sh'.pool := by
  cases h with
  | @replaced vain last found hvain hlast hfound =>
    refine ⟨last, found, hlast, hfound, ?_, ?_⟩
    · rw [List.flatMap_append, List.flatMap_singleton]
      exact (List.suffix_append ..).isInfix
    · rw [Pool.nodes_reseed htakes (hlast.found_ne_nil hfound), List.map_map]
      exact List.map_congr_left fun node _ ↦ Pool.url_inherited ..

/-- A request that asked at its start, and goes on, has a pool of nodes that were named. -/
theorem Startup.named (h : Startup c p sh deeds (.ok p') sh') (hfirst : sh.started = false)
    (hasks : asksAtStartup c sh = true) :
    Named c.settings c.limits.pingTimeout deeds sh'.pool := by
  cases h with
  | passed hwhy => simp [hfirst, hasks] at hwhy
  | replaced moment _ _ hsniff =>
    simp only [asksAtStartup, Bool.and_eq_true] at hasks
    exact (hsniff.named hasks.1.1).mono (List.prefix_append ..).isInfix

theorem Stale.named {before : List Deed} (h : Stale c p sh deeds p' sh')
    (hnamed : Named c.settings c.limits.pingTimeout before sh.pool) :
    Named c.settings c.limits.pingTimeout (before ++ deeds) sh'.pool := by
  cases h with
  | passed | young => exact hnamed.mono (List.prefix_append ..).isInfix
  | failed _ _ _ _ hsniff =>
    cases hsniff
    exact hnamed.mono (List.prefix_append ..).isInfix
  | replaced moment ended hasks _ _ hsniff =>
    simp only [asksWhenStale, Bool.and_eq_true] at hasks
    refine (hsniff.named hasks.1).mono ?_
    exact ⟨before ++ [.read moment], [.read ended], by simp⟩

/-! ### The first request -/

theorem learnsNothing_of_not_sniffOnFault (h : c.settings.sniffOnFault = false) (kind : PoolKind) :
    c.LearnsNothing kind := by
  intro p p' sh sh' deeds learnt _ hfault
  cases hfault with
  | passed => exact ⟨rfl, rfl⟩
  | replaced _ hasks | failed hasks => simp [asksAfterFault, h] at hasks

/-- How far a request gets that walks nodes which were named after it had settled its budget for so
many seeds. -/
structure SeedBudget (seeds : Nat) (c : Course) (log : Log) (result : Except Failure Response)
    (pool : Pool) : Prop where
  /-- The pool consists of the nodes that an answer named. -/
  named : Named c.settings c.limits.pingTimeout log.deeds pool
  /-- They are tried in their order, each once, and no more of them than there were seeds. -/
  tried : log.stops.map Stop.node <+: (pool.nodes.map Node.url).take seeds
  /-- If all fail in time, all that the budget allows for are tried before the request is given
  up. -/
  givenUp : log.InTime c → (∀ stop ∈ log.stops, stop.Failed) →
    log.stops.map Stop.node = (pool.nodes.map Node.url).take seeds ∧
    ∃ e, result = .error (.givenUp e) ∧ e.attempts = min seeds pool.nodes.length ∧
      e.why = if seeds ≤ pool.nodes.length then .maxRetriesReached else .failedOverAllNodes

/-- A walk on which nothing new is learnt, over an untouched pool of nodes that were named, keeps to
the budget. -/
theorem Walked.seedBudget {asked : List Deed}
    (h : Walked c sh.pool.walk.1 p { sh with pool := sh.pool.walk.2 } log p' result sh')
    (hpool : sh.pool.Untouched) (hnothing : ∀ kind, c.LearnsNothing kind) (hp : p.tried = 0)
    (hnamed : Named c.settings c.limits.pingTimeout asked sh.pool) :
    SeedBudget (c.limits.maxRetries + 1) c
      { log with walks := log.walks + 1, deeds := asked ++ log.deeds } result sh'.pool := by
  have hurls : sh'.pool.nodes.map Node.url = sh.pool.nodes.map Node.url := by
    rw [h.map_url_nodes (hnothing _), Pool.map_url_nodes, Pool.map_url_nodes]
    simp
  have hlocators : sh'.pool.nodes.map Node.url = sh.pool.walk.2.locators sh.pool.walk.1.rest := by
    rw [hurls, Pool.map_url_nodes, hpool.rest_walk, Pool.locators_walk]
  have hnodup := hpool.toSound.nodup_walk
  have halive : sh.pool.walk.2.AllAlive sh.pool.walk.1.rest := by
    simpa [hpool.rest_walk, Pool.AllAlive] using hpool.alive
  have horder := h.inOrder sh.pool.fresh_walk hnodup halive (hnothing _)
  rw [← hlocators, hp] at horder
  have hnamed' := hnamed.congr hurls
  refine ⟨hnamed'.mono (List.prefix_append ..).isInfix, horder, fun htime hfailed ↦ ?_⟩
  obtain ⟨hend, hreached⟩ := h.reaches sh.pool.fresh_walk hnodup halive (hnothing _) htime hfailed
  have htried : p'.tried = log.stops.length := by
    rw [h.progress.1, hp, Nat.zero_add]
  have hlength : sh.pool.walk.1.rest.length = sh'.pool.nodes.length := by
    rw [← List.length_map Node.url, hlocators, halive.length_locators]
  have hnodes := hnamed'.length_pos
  have hmin : log.stops.length = min (c.limits.maxRetries + 1) sh'.pool.nodes.length := by
    have hle := horder.length_le
    rw [List.length_map, List.length_take, List.length_map] at hle
    omega
  refine ⟨horder.eq_of_length (by simp [hmin]), ?_⟩
  obtain ⟨e, he, hattempts, hwhy⟩ := runOut_of_tried (c := c) (p := p') (by omega)
  refine ⟨e, hend.trans he, hattempts.trans (htried.trans hmin), ?_⟩
  rw [hwhy]
  congr 1
  rw [htried, hmin, eq_iff_iff]
  omega

/-- A client was made with some seeds, and neither its settings nor its first request bound the
retries. If that request asks the cluster and is told of nodes, the pool consists of these, but the
request tries no more of them than there were seeds: one that is given up because they all failed
has tried as many as there were seeds, or all if they were fewer. -/
theorem first_request_is_bound_by_seeds {s : Settings} {r : Request} {urls : List Url}
    (hseeds : Pool.make .sniffing urls = .ok sh.pool) (hfirst : sh.started = false)
    (hstartup : s.sniffOnStartup = true) (hsniff : r.overrides.disableSniff = false)
    (hfault : s.sniffOnFault = false) (hunset : s.maxRetries = none)
    (hunbound : r.overrides.maxRetries = none) (hopen : r.overrides.onlyNode = none)
    (h : (send s r).Runs sh deeds result sh')
    (htold : ∀ e, result = .error (.givenUp e) → e.why ≠ .couldNotSniffOnStartup) :
    ∃ began log p, deeds = .read began :: log.deeds ∧
      Journey (courseOf s r sh.pool began) sh log p result sh' ∧
      SeedBudget urls.length (courseOf s r sh.pool began) log result sh'.pool := by
  obtain ⟨began, log, p, rfl, hjourney⟩ := send_runs hopen h
  refine ⟨began, log, p, rfl, hjourney, ?_⟩
  have hbudget : (courseOf s r sh.pool began).limits.maxRetries + 1 = urls.length := by
    unfold Pool.make at hseeds
    split_ifs at hseeds with hnone
    rw [Except.ok.injEq] at hseeds
    have hpos := List.length_pos_iff.mpr hnone
    simp only [courseOf, limits, ← hseeds, hunset, hunbound, Pool.maxRetries, Pool.size,
      reduceCtorEq, if_false, Option.or_self, Option.getD_none, List.length_range]
    omega
  have hasks : asksAtStartup (courseOf s r sh.pool began) sh = true := by
    have hkind := Pool.kind_of_make hseeds
    simp [asksAtStartup, courseOf, hkind, hstartup, hsniff, PoolKind.takesNewNodes]
  cases hjourney with
  | stranded hstart =>
    obtain ⟨_, -, hend | ⟨_, hend⟩⟩ := hstart.consulted
    · cases hend
    · cases hend
      exact absurd rfl (htold _ rfl)
  | walked hstart hstale hwalk =>
    obtain ⟨_, -, hbegun | ⟨_, hbegun⟩⟩ := hstart.consulted
    · cases hbegun
      obtain ⟨_, -, rfl⟩ := hstale.consulted
      have hpool := hstale.lasts Pool.lastsThroughNews_untouched
        (hstart.lasts Pool.lastsThroughNews_untouched (Pool.untouched_of_make hseeds))
      rw [← hbudget]
      exact hwalk.seedBudget hpool (learnsNothing_of_not_sniffOnFault hfault) rfl
        (hstale.named (hstart.named hfirst hasks))
    · cases hbegun

end Spelled

/-- Settings of a client that asks for the nodes before its first request only. -/
def once : Settings := { disablePings := true, sniffOnFault := false }

/-- A client with these seeds, an answer that lists nodes by their names, and silence after it. -/
def silentAfter (seeds listed : List String) : World (List (Except LinkFault Reply)) :=
  .start [.ok (listing listed)]
    { kind := .sniffing, register := seeds.map fun name ↦ { url := nodeAt name }
      ring := List.range seeds.length }

/-- Two seeds, one of which names three nodes. -/
def threeNamed : World (List (Except LinkFault Reply)) := silentAfter ["a", "b"] ["a", "c", "d"]

set_option maxRecDepth 1000 in
/-- Two of the three nodes are tried. -/
theorem first_request_tries_two_of_three : ∃ e,
    ((send once plainRequest).run .ofAnswers threeNamed).1 = .error (.givenUp e) ∧
      e.attempts = 2 ∧ e.why = .maxRetriesReached ∧
    ∃ began log p,
      (send once plainRequest).deeds .ofAnswers threeNamed = .read began :: log.deeds ∧
      Journey (courseOf once plainRequest threeNamed.shared.pool began) threeNamed.shared log p
        (.error (.givenUp e)) ((send once plainRequest).run .ofAnswers threeNamed).2.shared ∧
      SeedBudget 2 (courseOf once plainRequest threeNamed.shared.pool began) log
        (.error (.givenUp e))
        ((send once plainRequest).run .ofAnswers threeNamed).2.shared.pool := by
  refine ⟨_, rfl, rfl, rfl, ?_⟩
  have hseeds : Pool.make .sniffing [nodeAt "a", nodeAt "b"] = .ok threeNamed.shared.pool := rfl
  refine first_request_is_bound_by_seeds hseeds rfl rfl rfl rfl rfl rfl rfl
    (runs_run .ofAnswers (send once plainRequest) threeNamed) fun e he ↦ ?_
  cases he
  decide

/-- One seed, which names itself and another node. -/
def twoNamed : World (List (Except LinkFault Reply)) := silentAfter ["a"] ["a", "b"]

/-- The request is given up long before its time is over, though one of two nodes was never
tried. -/
theorem second_named_node_is_not_tried :
    (∃ e, ((send once plainRequest).run .ofAnswers twoNamed).1 = .error (.givenUp e) ∧
      e.attempts = 1 ∧ e.why = .maxRetriesReached) ∧
    ((send once plainRequest).run .ofAnswers twoNamed).2.clock < once.requestTimeout ∧
    (exchanges ((send once plainRequest).deeds .ofAnswers twoNamed)).map (·.1.url.hostText) =
      ["a", "a"] ∧
    ((send once plainRequest).run .ofAnswers twoNamed).2.shared.pool.nodes.map
      (fun node ↦ (node.url.hostText, node.health.failures)) = [("a", 1), ("b", 0)] := by
  refine ⟨⟨_, rfl, rfl, rfl⟩, ?_, rfl, rfl⟩
  decide

end Send

end SearchClient

import SearchClient.Proofs.Cluster.Budget
import SearchClient.Proofs.Cluster.ExactSniff
import SearchClient.Proofs.Cluster.Headers

/-!
# Requests with headers that cannot be sent

A request with a header that cannot be sent, be it its own or one of the settings, never reaches a
node. Where only its own headers are bad it ends with a failure of the configuration and nobody is
blamed: what is known of the health of nodes stays as it is (`NobodysFault`).

Where a header of the settings is bad no ping and no sniff can be sent either, and these take that
for a fault of the link. The first sniff fails, and so does the request that asked. A node that is
due a ping is dead after it (`TakenForFaults`), although nothing was sent to any node; only a node
that is due no ping ends the request with the failure that it is.
-/

set_option autoImplicit false
set_option relaxedAutoImplicit false

namespace SearchClient

/-! ### What is known of nodes -/

/-- What is known of the health of the nodes has not changed, but for the chances that they get. -/
structure Pool.Keeps (pool pool' : Pool) : Prop where
  /-- The nodes that there were are spared. -/
  spared : ∀ number, pool.Spares pool' number
  /-- Of nodes that are new to the ring is known what was known of their locators. -/
  inherited : ∀ number ∈ pool'.ring, number ∉ pool.ring → ∃ node resurrected,
    pool'.node? number = some node ∧
      node.health = { (pool.healthAt? node.url).getD {} with resurrected := resurrected }

namespace Pool

variable {pool pool' pool'' : Pool}

theorem health_inherited (pool : Pool) (node : Node) :
    (pool.inherited node).health = (pool.healthAt? node.url).getD node.health := by
  unfold inherited
  cases pool.healthAt? node.url <;> rfl

theorem Keeps.refl (pool : Pool) : pool.Keeps pool :=
  ⟨fun _ ↦ spares_of_eq rfl, fun _ hmem hnot ↦ absurd hmem hnot⟩

/-- What spares the nodes of a ring leaves what is known of them. -/
theorem Keeps.spare (h : pool.Keeps pool') (hring : pool''.ring = pool'.ring)
    (hspares : ∀ number, pool'.Spares pool'' number) : pool.Keeps pool'' where
  spared number := (h.spared number).trans (hspares number)
  inherited := by
    intro number hmem hnew
    obtain ⟨node, resurrected, hnode, hhealth⟩ := h.inherited number (hring ▸ hmem) hnew
    obtain ⟨again, hafter⟩ := hspares number node hnode
    exact ⟨_, again, hafter, by rw [hhealth]⟩

/-- New nodes take the place of all with what is known of their locators. -/
theorem keeps_reseed {nodes : List Node} (hnew : ∀ node ∈ nodes, node.health = {}) :
    pool.Keeps (pool.reseed nodes).1 := by
  refine ⟨fun number node hnode ↦ ⟨node.health.resurrected, node?_reseed hnode nodes⟩, ?_⟩
  intro number hmem hnot
  by_cases htakes : pool.kind.takesNewNodes = true ∧ nodes ≠ []
  · rw [reseed_of_takes htakes.1 htakes.2] at hmem ⊢
    obtain ⟨k, hk, rfl⟩ := List.mem_range'.mp hmem
    refine ⟨pool.inherited nodes[k], (pool.inherited nodes[k]).health.resurrected,
      by simp [node?, hk], ?_⟩
    rw [health_inherited, url_inherited, hnew _ (List.getElem_mem hk)]
  · rw [reseed_of_not_takes htakes] at hmem
    exact absurd hmem hnot

end Pool

namespace Send

open Program

variable {s : Settings} {c : Course} {sh sh' : Shared} {w w' : Walk} {p p' : Progress} {log : Log}
  {deeds deeds' : List Deed} {result : Except Failure Response} {stop : Stop} {pool : Pool}
  {timeout : Nat} {nodes : List Url} {earlier : Option LinkFault} {inquiries : List Inquiry}
  {ending : SniffEnd}

/-! ### Stops at which the request cannot be prepared -/

/-- The request got to the node, but could not be prepared for it. -/
def Stop.Unprepared (stop : Stop) : Prop :=
  ∃ greeting what, stop.meeting = .attempted greeting (.unsendable what)

theorem Stop.Unprepared.not_failed (h : stop.Unprepared) : ¬ stop.Failed := by
  obtain ⟨greeting, what, hmeeting⟩ := h
  rintro ⟨⟨moment, hmoment⟩, -⟩
  simp [Stop.failedAt?, hmeeting] at hmoment

/-- A request ends there. -/
theorem Stop.Unprepared.exists_result (h : stop.Unprepared) (c : Course) (p : Progress) :
    ∃ what, stop.result? c p = some (.error (.config (.unsendable what))) := by
  obtain ⟨greeting, what, hmeeting⟩ := h
  exact ⟨what, by simp only [Stop.result?, hmeeting]⟩

/-- The node stays as it was. -/
theorem Stop.Unprepared.after_eq (h : stop.Unprepared) (s : Settings) (sh : Shared) :
    stop.after s sh = sh := by
  obtain ⟨greeting, what, hmeeting⟩ := h
  have hmark : stop.mark s = id := by
    unfold Stop.mark Stop.failedAt? Stop.answer?
    rw [hmeeting]
  unfold Stop.after
  rw [hmark, Pool.changeHealth_id]

/-- A request fails for its configuration exactly if it could not be prepared for a node that it got
to. -/
theorem Ending.config_iff (h : Ending c log p result) :
    (∃ what, result = .error (.config (.unsendable what))) ↔
      ∃ stop ∈ log.stops, stop.Unprepared := by
  cases h with
  | surrendered _ hfailed =>
    constructor
    · rintro ⟨what, hresult⟩
      cases hresult
    · rintro ⟨stop, hstop, hunprepared⟩
      exact absurd (hfailed stop hstop) hunprepared.not_failed
  | @stopped earlier last _ _ hstops hfailed hended =>
    cases hended with
    | @unsendable greeting what hmeeting =>
      exact ⟨fun _ ↦ ⟨last, by simp [hstops], greeting, what, hmeeting⟩, fun _ ↦ ⟨what, rfl⟩⟩
    | answered hmeeting =>
      constructor
      · rintro ⟨what, hresult⟩
        cases hresult
      · rintro ⟨stop, hstop, hunprepared⟩
        rw [hstops, List.mem_append, List.mem_singleton] at hstop
        rcases hstop with hstop | rfl
        · exact absurd (hfailed stop hstop) hunprepared.not_failed
        · obtain ⟨greeting, what, hunsendable⟩ := hunprepared
          rw [hmeeting] at hunsendable
          cases hunsendable

/-- With settings that cannot be sent nothing goes to a node, whether it is due a ping or not. -/
theorem Stop.Holds.silent_of_not_wellHeaded (hstop : stop.Holds c pool)
    (hsettings : ¬ c.settings.WellHeaded) : exchanges stop.deeds = [] ∧
      ((∃ what moment, stop.meeting = .unpingable what moment) ∨
        ∃ what, stop.meeting = .attempted none (.unsendable what)) := by
  have hbad : Misheaded c.settings c.request := fun hgood ↦ hsettings hgood.1
  have hping {message : Message} :
      pingMessage c.settings stop.node c.limits.pingTimeout ≠ .ok message :=
    fun hmessage ↦ hsettings (exists_pingMessage_iff.mp ⟨message, hmessage⟩)
  obtain ⟨number, node, meeting⟩ := stop
  cases meeting with
  | unpingable what moment => exact ⟨rfl, .inl ⟨what, moment, rfl⟩⟩
  | pingFailed => exact absurd hstop.2.1 hping
  | attempted greeting attempt =>
    cases greeting with
    | some => exact absurd hstop.2.1 hping
    | none =>
      cases attempt with
      | unsendable what => exact ⟨rfl, .inr ⟨what, rfl⟩⟩
      | refused | answered => exact absurd hstop.2.1 hbad.not_messageTo
      | broken => exact absurd hstop.2 hbad.not_messageTo

/-- Where nothing is sent, a request could be prepared for no node, and came to prepare it for those
that were due no ping. -/
theorem Stop.unprepared_iff_of_silent
    (h : (∃ what moment, stop.meeting = .unpingable what moment) ∨
      ∃ what, stop.meeting = .attempted none (.unsendable what)) :
    stop.Unprepared ↔ ∃ what, stop.meeting = .attempted none (.unsendable what) := by
  constructor
  · rintro ⟨greeting, unsendable, hunsendable⟩
    refine h.resolve_left ?_
    rintro ⟨what, moment, hmeeting⟩
    rw [hmeeting] at hunsendable
    cases hunsendable
  · rintro ⟨what, hmeeting⟩
    exact ⟨none, what, hmeeting⟩

/-! ### What there is to ask and to book -/

theorem sniffOrder_ne_nil (h : pool.Populated) : sniffOrder pool ≠ [] := by
  obtain ⟨number, hnumber⟩ := List.exists_mem_of_ne_nil _ h.nonempty
  obtain ⟨node, hnode⟩ := h.toSound.exists_node hnumber
  have hmem : node ∈ pool.nodes := Pool.mem_nodes_iff.mpr ⟨number, hnumber, hnode⟩
  rw [sniffOrder_eq]
  refine List.ne_nil_of_mem (a := node.url) (List.mem_map_of_mem ?_)
  rw [List.mem_append, List.mem_filter, List.mem_filter]
  cases node.health.alive with
  | true => exact .inl ⟨hmem, rfl⟩
  | false => exact .inr ⟨hmem, rfl⟩

/-- A request without a stop books nothing. -/
theorem booked_nil {failure : Failure} {pool' : Pool} (hpool : pool' = pool) :
    Booked s [] (.error failure) pool pool' where
  nodup := List.nodup_nil
  failed := by simp
  answered := by simp
  returned := by simp
  others _ _ := Pool.spares_of_eq (by rw [hpool])

section Spelled

variable [Url.Domain.Spelling]

/-! ### What a sniff leaves -/

theorem Sniffed.keeps (h : Sniffed s timeout nodes earlier sh inquiries ending sh') :
    sh.pool.Keeps sh'.pool := by
  cases h with
  | replaced _ hlast hfound => exact Pool.keeps_reseed (hlast.health_of_found hfound)
  | failed => exact .refl _

theorem Startup.keeps {begun : Except Failure Progress} (h : Startup c p sh deeds begun sh') :
    sh.pool.Keeps sh'.pool := by
  cases h with
  | passed => exact .refl _
  | replaced _ _ _ hsniff =>
    have hkeeps := hsniff.keeps
    exact hkeeps
  | failed _ _ hsniff => exact hsniff.keeps

theorem Stale.keeps (h : Stale c p sh deeds p' sh') : sh.pool.Keeps sh'.pool := by
  cases h with
  | passed | young => exact .refl _
  | replaced _ _ _ _ _ hsniff =>
    have hkeeps := hsniff.keeps
    exact hkeeps
  | failed _ _ _ _ hsniff => exact hsniff.keeps

/-! ### The end of a first walk -/

/-- A request that could not be prepared at any stop, and whose time is not over, ends at its first
stop. Nodes are spared. -/
theorem Walked.ends_unprepared (h : Walked c w p sh log p' result sh') (hbegun : w.begun = false)
    (hall : w.all = sh.pool.ring) (hpool : sh.pool.Populated) (hp : p.tried = 0)
    (htime : log.InTime c) (hstops : ∀ stop ∈ log.stops, stop.Unprepared) :
    (∃ what, result = .error (.config (.unsendable what))) ∧ sh'.pool.ring = sh.pool.ring ∧
      ∀ number, sh.pool.Spares sh'.pool number := by
  cases h with
  | spent hstride =>
    obtain ⟨looked, onward, honward, -, hfound, -, -, -⟩ := stride_runs hstride
    obtain ⟨number, node, hnumber, hnode⟩ := honward.exists_node hbegun hall hpool
    rw [hnumber, Option.bind_some, hnode] at hfound
    cases hfound
  | late moment _ hlate =>
    exact absurd hlate (Nat.not_lt.mpr (htime (moment, []) List.mem_cons_self))
  | exhausted _ hstride _ hbudget =>
    obtain ⟨added, -, rfl, -⟩ := stride_writes hstride
    simp [hp] at hbudget
  | ended _ stop hstride _ _ _ hresult =>
    obtain ⟨looked, onward, honward, -, -, -, -, rfl⟩ := stride_runs hstride
    have hunprepared := hstops stop List.mem_cons_self
    obtain ⟨what, hends⟩ := hunprepared.exists_result c _
    rw [hends, Option.some.injEq] at hresult
    rw [hunprepared.after_eq]
    exact ⟨⟨what, hresult.symm⟩, honward.ring_eq, honward.spares⟩
  | onward _ stop _ _ _ _ hresult | anew _ stop _ _ _ _ hresult =>
    obtain ⟨what, hends⟩ := (hstops stop List.mem_cons_self).exists_result c _
    rw [hends] at hresult
    cases hresult

/-! ### Answers that leave nothing to be desired -/

/-- All messages were answered with success, and all questions for the nodes of the cluster with
nodes that can be used. -/
structure AnsweredWell (s : Settings) (deeds : List Deed) : Prop where
  success : ∀ message answer, (message, answer) ∈ exchanges deeds →
    ∃ reply, answer = .ok reply ∧ isSuccess reply.status = true
  named : ∀ message reply node timeout, (message, .ok reply) ∈ exchanges deeds →
    sniffMessage s node timeout = .ok message →
      ∃ found, Sniff.readNodes reply.body node s.skipManagerOnly = .ok found

theorem AnsweredWell.mono (h : AnsweredWell s deeds') (hdeeds : deeds ⊆ deeds') :
    AnsweredWell s deeds := by
  have hexchanges : exchanges deeds ⊆ exchanges deeds' := List.filterMap_subset _ hdeeds
  exact ⟨fun message answer hmem ↦ h.success message answer (hexchanges hmem),
    fun message reply node timeout hmem ↦ h.named message reply node timeout (hexchanges hmem)⟩

/-- Only the request itself cannot be prepared where the settings are good and all is answered
well. -/
theorem Stop.Holds.unprepared_of_answeredWell (hstop : stop.Holds c pool)
    (hbad : Misheaded c.settings c.request) (hsettings : c.settings.WellHeaded)
    (hwell : AnsweredWell c.settings stop.deeds) : stop.Unprepared := by
  obtain ⟨number, node, meeting⟩ := stop
  cases meeting with
  | unpingable what moment =>
    have hping : pingMessage c.settings node c.limits.pingTimeout = .error what := hstop.2
    obtain ⟨message, hmessage⟩ := exists_pingMessage_iff.mpr hsettings
    rw [hping] at hmessage
    cases hmessage
  | pingFailed message answer fault moment =>
    obtain ⟨reply, rfl, hsuccess⟩ := hwell.success message answer (by simp [Stop.deeds])
    have hfault : pingFault? (.ok reply) = some fault := hstop.2.2
    simp [pingFault?, hsuccess] at hfault
  | attempted greeting attempt =>
    have hattempt : attempt.Holds c node := Stop.attempt_holds hstop
    cases attempt with
    | unsendable what => exact ⟨greeting, what, rfl⟩
    | refused | answered => exact absurd hattempt.1 hbad.not_messageTo
    | broken => exact absurd hattempt hbad.not_messageTo

theorem Inquiry.Holds.told_of_answeredWell {i : Inquiry} (h : i.Holds s timeout)
    (hsettings : s.WellHeaded) (hwell : AnsweredWell s i.deeds) : i.found? ≠ none := by
  obtain ⟨node, finding⟩ := i
  cases finding with
  | unsendable what =>
    have hsniff : sniffMessage s node timeout = .error what := h
    obtain ⟨message, hmessage⟩ := exists_sniffMessage_iff.mpr hsettings
    rw [hsniff] at hmessage
    cases hmessage
  | broken message fault =>
    obtain ⟨reply, hreply, -⟩ := hwell.success message (.error fault) (by simp [Inquiry.deeds])
    cases hreply
  | declined message reply =>
    obtain ⟨_, hreply, hsuccess⟩ := hwell.success message (.ok reply) (by simp [Inquiry.deeds])
    cases hreply
    rw [h.2] at hsuccess
    cases hsuccess
  | flawed message reply flaw =>
    obtain ⟨found, hfound⟩ :=
      hwell.named message reply node timeout (by simp [Inquiry.deeds]) h.1
    rw [h.2.2] at hfound
    cases hfound
  | told => simp [Inquiry.found?]

/-- A sniff of some nodes is told new ones. -/
theorem Sniffed.replaced_of_answeredWell
    (h : Sniffed s timeout nodes earlier sh inquiries ending sh') (hnodes : nodes ≠ [])
    (hsettings : s.WellHeaded) (hwell : AnsweredWell s (inquiries.flatMap Inquiry.deeds)) :
    ending = .replaced := by
  cases h with
  | replaced => rfl
  | failed hvain hasked =>
    obtain ⟨i, hi⟩ : ∃ i, i ∈ inquiries := by
      refine List.exists_mem_of_ne_nil _ fun hnone ↦ hnodes ?_
      rw [← hasked, hnone, List.map_nil]
    have hdeeds : i.deeds ⊆ inquiries.flatMap Inquiry.deeds :=
      fun deed hdeed ↦ List.mem_flatMap.mpr ⟨i, hi, hdeed⟩
    obtain ⟨hholds, hnothing⟩ := hvain i hi
    exact absurd hnothing (hholds.told_of_answeredWell hsettings (hwell.mono hdeeds))

/-- A request that asks before it sets out is told. -/
theorem Startup.goes_on_of_answeredWell {begun : Except Failure Progress}
    (h : Startup c p sh deeds begun sh') (hpool : sh.pool.Populated)
    (hsettings : c.settings.WellHeaded) (hwell : AnsweredWell c.settings deeds) :
    ∃ p', begun = .ok p' := by
  cases h with
  | passed | replaced => exact ⟨_, rfl⟩
  | failed _ _ hsniff =>
    have hreplaced :=
      hsniff.replaced_of_answeredWell (sniffOrder_ne_nil hpool) hsettings hwell
    cases hreplaced

/-! ### Settings that let nothing be sent -/

theorem Inquiry.Holds.silent_of_not_wellHeaded {i : Inquiry} (h : i.Holds s timeout)
    (hsettings : ¬ s.WellHeaded) : i.deeds = [] ∧ i.found? = none := by
  have hsniff {message : Message} : sniffMessage s i.node timeout ≠ .ok message :=
    fun hmessage ↦ hsettings (exists_sniffMessage_iff.mp ⟨message, hmessage⟩)
  obtain ⟨node, finding⟩ := i
  cases finding with
  | unsendable => exact ⟨rfl, rfl⟩
  | broken => exact absurd h hsniff
  | declined | flawed | told => exact absurd h.1 hsniff

/-- A sniff comes to nothing. -/
theorem Sniffed.silent_of_not_wellHeaded
    (h : Sniffed s timeout nodes earlier sh inquiries ending sh') (hsettings : ¬ s.WellHeaded) :
    inquiries.flatMap Inquiry.deeds = [] ∧ ending ≠ .replaced ∧ sh' = sh := by
  have hsilent : inquiries.flatMap Inquiry.deeds = [] :=
    List.flatMap_eq_nil_iff.mpr fun i hi ↦ ((h.holds i hi).silent_of_not_wellHeaded hsettings).1
  cases h with
  | replaced _ hlast hfound =>
    rw [(hlast.silent_of_not_wellHeaded hsettings).2] at hfound
    cases hfound
  | failed => exact ⟨hsilent, by simp, rfl⟩

/-- Before it sets out, a request gives up if it has to ask, and else nothing happens. -/
theorem Startup.silent_of_not_wellHeaded {begun : Except Failure Progress}
    (h : Startup c p sh deeds begun sh') (hsettings : ¬ c.settings.WellHeaded) :
    exchanges deeds = [] ∧ sh'.pool = sh.pool ∧
      ((begun = .ok p ∧ (asksAtStartup c sh = false ∨ sh.started = true)) ∨
        (asksAtStartup c sh = true ∧ sh.started = false ∧
          ∃ e, begun = .error (.givenUp e) ∧ e.why = .couldNotSniffOnStartup)) := by
  cases h with
  | passed hwhy => exact ⟨rfl, rfl, .inl ⟨rfl, hwhy⟩⟩
  | replaced _ _ _ hsniff =>
    exact absurd rfl (hsniff.silent_of_not_wellHeaded hsettings).2.1
  | failed hasks hfirst hsniff =>
    obtain ⟨hsilent, -, rfl⟩ := hsniff.silent_of_not_wellHeaded hsettings
    exact ⟨by rw [hsilent, exchanges_nil], rfl, .inr ⟨hasks, hfirst, _, rfl, rfl⟩⟩

theorem Stale.silent_of_not_wellHeaded (h : Stale c p sh deeds p' sh')
    (hsettings : ¬ c.settings.WellHeaded) : exchanges deeds = [] ∧ sh' = sh := by
  cases h with
  | passed | young => exact ⟨rfl, rfl⟩
  | replaced _ _ _ _ _ hsniff =>
    exact absurd rfl (hsniff.silent_of_not_wellHeaded hsettings).2.1
  | failed _ _ _ _ hsniff =>
    obtain ⟨hsilent, -, rfl⟩ := hsniff.silent_of_not_wellHeaded hsettings
    exact ⟨by rw [hsilent, exchanges_read, exchanges_nil], rfl⟩

theorem Fault.silent_of_not_wellHeaded {learnt : Bool} (h : Fault c p sh deeds learnt p' sh')
    (hsettings : ¬ c.settings.WellHeaded) :
    exchanges deeds = [] ∧ learnt = false ∧ sh' = sh := by
  cases h with
  | passed => exact ⟨rfl, rfl, rfl⟩
  | replaced _ _ hsniff =>
    exact absurd rfl (hsniff.silent_of_not_wellHeaded hsettings).2.1
  | failed _ hsniff =>
    obtain ⟨hsilent, -, rfl⟩ := hsniff.silent_of_not_wellHeaded hsettings
    exact ⟨by rw [hsilent, exchanges_nil], rfl, rfl⟩

theorem Walked.silent_of_not_wellHeaded (h : Walked c w p sh log p' result sh')
    (hsettings : ¬ c.settings.WellHeaded) : exchanges log.deeds = [] := by
  induction h with
  | spent hstride =>
    obtain ⟨added, hstrode, -⟩ := stride_writes hstride
    exact hstrode
  | late _ hstride | exhausted _ hstride =>
    obtain ⟨added, hstrode, -⟩ := stride_writes hstride
    simp [hstrode]
  | ended _ stop hstride _ _ hstop =>
    obtain ⟨added, hstrode, -⟩ := stride_writes hstride
    simp [hstrode, (hstop.silent_of_not_wellHeaded hsettings).1]
  | onward _ stop hstride _ _ hstop _ hfault _ ih | anew _ stop hstride _ _ hstop _ hfault _ ih =>
    obtain ⟨added, hstrode, -⟩ := stride_writes hstride
    obtain ⟨hasked, -⟩ := hfault.silent_of_not_wellHeaded hsettings
    simp [hstrode, (hstop.silent_of_not_wellHeaded hsettings).1, hasked, ih]

theorem learnsNothing_of_not_wellHeaded (hsettings : ¬ c.settings.WellHeaded) (kind : PoolKind) :
    c.LearnsNothing kind :=
  fun _ hfault ↦ (hfault.silent_of_not_wellHeaded hsettings).2

/-! ### Requests -/

/-- A request that fails for its configuration, and for which nobody is blamed. The nodes may be new
ones after a sniff: what is known of them was known before it. -/
structure NobodysFault (result : Except Failure Response) (pool pool' : Pool) : Prop where
  config : ∃ what, result = .error (.config (.unsendable what))
  kept : ∃ between : Pool, pool.Keeps between ∧ between.Keeps pool'

/-- A request that set out, could not be prepared at any stop, and whose time is not over. -/
theorem Walked.nobodysFault {first second : List Deed} {q : Progress} {sh₁ sh₂ sh₃ : Shared}
    (hstart : Startup c {} sh first (.ok p) sh₁) (hstale : Stale c p sh₁ second p' sh₂)
    (h : Walked c sh₂.pool.walk.1 p' { sh₂ with pool := sh₂.pool.walk.2 } log q result sh₃)
    (hpool : sh.pool.Populated) (htime : log.InTime c)
    (hstops : ∀ stop ∈ log.stops, stop.Unprepared) : NobodysFault result sh.pool sh₃.pool := by
  have hset : p'.tried = 0 := by
    obtain ⟨_, -, rfl⟩ := hstale.consulted
    obtain ⟨_, -, hbegun | ⟨_, hbegun⟩⟩ := hstart.consulted
    · cases hbegun
      rfl
    · cases hbegun
  have hasked : sh₂.pool.Populated :=
    hstale.lasts lasting_populated.news (hstart.lasts lasting_populated.news hpool)
  obtain ⟨hconfig, hring, hspares⟩ := h.ends_unprepared (Pool.begun_walk _)
    ((Pool.all_walk _).trans (Pool.ring_walk _).symm) hasked.walk hset htime hstops
  refine ⟨hconfig, _, hstart.keeps, hstale.keeps.spare (hring.trans (Pool.ring_walk _)) ?_⟩
  intro number
  exact (Pool.spares_of_eq (Pool.node?_walk _ number)).trans (hspares number)

/-- What becomes of a request with settings that let nothing be sent. -/
structure TakenForFaults (c : Course) (sh : Shared) (log : Log)
    (result : Except Failure Response) (sh' : Shared) : Prop where
  silent : exchanges log.deeds = []
  /-- If it has to ask before it sets out, it gives up without a stop. -/
  stranded : asksAtStartup c sh = true → sh.started = false → log.stops = [] ∧
    ∃ e, result = .error (.givenUp e) ∧ e.why = .couldNotSniffOnStartup
  /-- At each stop a ping was due and could not be prepared, or none was due. -/
  stops : ∀ stop ∈ log.stops, (∃ what moment, stop.meeting = .unpingable what moment) ∨
    ∃ what, stop.meeting = .attempted none (.unsendable what)
  /-- Nodes that were due a ping are dead, and have failed once more. -/
  booked : Booked c.settings log.stops result sh.pool sh'.pool
  /-- It fails for its configuration only at a node that was due no ping. -/
  config_iff : (∃ what, result = .error (.config (.unsendable what))) ↔
    ∃ stop ∈ log.stops, ∃ what, stop.meeting = .attempted none (.unsendable what)
  /-- Nobody is blamed if it does not have to ask, and comes to no node that is due a ping. -/
  harmless : asksAtStartup c sh = false ∨ sh.started = true → log.InTime c →
    (∀ stop ∈ log.stops, ∀ what moment, stop.meeting ≠ .unpingable what moment) →
      NobodysFault result sh.pool sh'.pool

/-- A request that had to ask before it sets out gives up. -/
theorem Startup.takenForFaults {failure : Failure}
    (h : Startup c {} sh deeds (.error failure) sh') (hsettings : ¬ c.settings.WellHeaded) :
    TakenForFaults c sh { deeds := deeds } (.error failure) sh' := by
  obtain ⟨hsilent, hsame, ⟨hend, -⟩ | ⟨hasks, hfirst, e, hend, hwhy⟩⟩ :=
    h.silent_of_not_wellHeaded hsettings
  · cases hend
  · cases hend
    refine ⟨hsilent, fun _ _ ↦ ⟨rfl, e, rfl, hwhy⟩, by simp, booked_nil hsame, by simp, ?_⟩
    rintro (hnot | hnot)
    · rw [hasks] at hnot
      cases hnot
    · rw [hfirst] at hnot
      cases hnot

/-- A request that set out learns nothing on its way. -/
theorem Walked.takenForFaults {first second : List Deed} {q : Progress} {sh₁ sh₂ sh₃ : Shared}
    (hstart : Startup c {} sh first (.ok p) sh₁) (hstale : Stale c p sh₁ second p' sh₂)
    (h : Walked c sh₂.pool.walk.1 p' { sh₂ with pool := sh₂.pool.walk.2 } log q result sh₃)
    (hpool : sh.pool.Populated) (hsettings : ¬ c.settings.WellHeaded) :
    TakenForFaults c sh
      { log with walks := log.walks + 1, deeds := first ++ second ++ log.deeds } result sh₃ := by
  obtain ⟨hfirst, hsame, hbegun⟩ := hstart.silent_of_not_wellHeaded hsettings
  obtain ⟨hsecond, hsame'⟩ := hstale.silent_of_not_wellHeaded hsettings
  have hpoolEq : sh₂.pool = sh.pool := by rw [hsame', hsame]
  have hstops (stop : Stop) (hstop : stop ∈ log.stops) :
      (∃ what moment, stop.meeting = .unpingable what moment) ∨
        ∃ what, stop.meeting = .attempted none (.unsendable what) := by
    obtain ⟨pool, hholds⟩ := h.holds stop hstop
    exact (hholds.silent_of_not_wellHeaded hsettings).2
  refine ⟨?_, ?_, hstops, ?_, h.ending.config_iff.trans ?_, ?_⟩
  · simp [hfirst, hsecond, h.silent_of_not_wellHeaded hsettings]
  · intro hasks hnew
    rcases hbegun with ⟨-, hwhy⟩ | ⟨-, -, e, hend, -⟩
    · simp [hasks, hnew] at hwhy
    · cases hend
  · have hsettled := h.settled (Pool.fresh_walk _) (hpoolEq ▸ hpool.toSound).nodup_walk
      (learnsNothing_of_not_wellHeaded hsettings _)
    rw [← hpoolEq]
    exact hsettled.of_walk.booked h.ending
  · exact exists_congr fun stop ↦
      and_congr_right fun hstop ↦ Stop.unprepared_iff_of_silent (hstops stop hstop)
  · intro _ htime hpingable
    refine h.nobodysFault hstart hstale hpool htime fun stop hstop ↦ ?_
    refine (Stop.unprepared_iff_of_silent (hstops stop hstop)).mpr ?_
    refine (hstops stop hstop).resolve_left ?_
    rintro ⟨what, moment, hmeeting⟩
    exact hpingable stop hstop what moment hmeeting

theorem Journey.takenForFaults (h : Journey c sh log p result sh') (hpool : sh.pool.Populated)
    (hsettings : ¬ c.settings.WellHeaded) : TakenForFaults c sh log result sh' := by
  cases h with
  | stranded hstart => exact hstart.takenForFaults hsettings
  | walked hstart hstale hwalk => exact hwalk.takenForFaults hstart hstale hpool hsettings

/-- A header that cannot be sent, of the settings or of the request, keeps a request from every
node. If it is the request's own, all answers are good and the time is not over, that is a failure
of the configuration and nobody's fault. If it is one of the settings, pings and the first sniff
take it for a fault of the link, and nodes die of it. Pools are made with nodes in them, and
`populated_of_send` shows that they keep some. -/
theorem misheaded_request_fails {s : Settings} {r : Request} (hbad : Misheaded s r)
    (hpool : sh.pool.Populated) (h : (send s r).Runs sh deeds result sh') :
    (r.overrides.onlyNode ≠ none → exchanges deeds = [] ∧ sh' = sh ∧
      ∃ what, result = .error (.config (.unsendable what))) ∧
    (r.overrides.onlyNode = none → ∃ began log p, deeds = .read began :: log.deeds ∧
      Journey (courseOf s r sh.pool began) sh log p result sh' ∧
      (s.WellHeaded → log.InTime (courseOf s r sh.pool began) → AnsweredWell s log.deeds →
        NobodysFault result sh.pool sh'.pool) ∧
      (¬ s.WellHeaded → TakenForFaults (courseOf s r sh.pool began) sh log result sh')) := by
  constructor
  · intro honly
    obtain ⟨node, hnode⟩ := Option.ne_none_iff_exists'.mp honly
    obtain ⟨began, rest, rfl, hdirect, rfl⟩ := send_runs_only hnode h
    cases hdirect with
    | unsendable => exact ⟨rfl, rfl, _, rfl⟩
    | broken hmessage | answered hmessage =>
      exact absurd hmessage (Misheaded.not_messageTo (c := courseOf s r sh'.pool began) hbad)
  · intro hopen
    obtain ⟨began, log, p, rfl, hjourney⟩ := send_runs hopen h
    refine ⟨began, log, p, rfl, hjourney, fun hsettings htime hwell ↦ ?_,
      hjourney.takenForFaults hpool⟩
    cases hjourney with
    | stranded hstart =>
      obtain ⟨_, hend⟩ := hstart.goes_on_of_answeredWell hpool hsettings hwell
      cases hend
    | @walked first second _ _ _ _ _ _ log _ hstart hstale hwalk =>
      refine hwalk.nobodysFault hstart hstale hpool htime fun stop hstop ↦ ?_
      obtain ⟨pool, hholds⟩ := hwalk.holds stop hstop
      refine hholds.unprepared_of_answeredWell hbad hsettings (hwell.mono ?_)
      exact fun deed hdeed ↦
        List.mem_append_right _ ((hwalk.deeds_infix stop hstop).subset hdeed)

end Spelled

/-! ### One node and a name with a blank in it -/

/-- A header whose name cannot be sent. -/
def blankName : String × String := ("bad name", "x")

/-- A request with a header that cannot be sent. -/
def misheadedRequest : Request := { plainRequest with overrides := { headers := [blankName] } }

/-- Settings with a header that cannot be sent. -/
def misheadedSettings : Settings := { headers := [blankName] }

theorem not_wellHeaded_misheadedSettings : ¬ misheadedSettings.WellHeaded :=
  fun hgood ↦ absurd (hgood blankName List.mem_cons_self) (by decide)

/-- One node that has never been tried, and answers the first message that it gets. -/
def untried : World (List (Except LinkFault Reply)) :=
  .start [.ok { status := 200, body := [] }]
    { kind := .fixed, register := [{ url := nodeAt "a" }], ring := [0] }

/-- The node gets a ping, answers it, and gets nothing else. -/
theorem deeds_untried : ∃ ping, ping.method = .head ∧
    (send {} misheadedRequest).deeds .ofAnswers untried =
      [.read 0, .read 1, .read 2, .exchange ping (.ok { status := 200, body := [] })] :=
  ⟨_, rfl, rfl⟩

/-- The node is pinged and answers, the time is not over, and the request ends with a failure of the
configuration that is nobody's fault. -/
theorem misheaded_request_fails_of_one :
    Misheaded {} misheadedRequest ∧ untried.shared.pool.Populated ∧
    ((send {} misheadedRequest).run .ofAnswers untried).1 =
      .error (.config (.unsendable (.headerName "bad name"))) ∧
    (exchanges ((send {} misheadedRequest).deeds .ofAnswers untried)).length = 1 ∧
    ∃ began log p, (send {} misheadedRequest).deeds .ofAnswers untried = .read began :: log.deeds ∧
      Journey (courseOf {} misheadedRequest untried.shared.pool began) untried.shared log p
        (.error (.config (.unsendable (.headerName "bad name"))))
        ((send {} misheadedRequest).run .ofAnswers untried).2.shared ∧
      Settings.WellHeaded {} ∧
      log.InTime (courseOf {} misheadedRequest untried.shared.pool began) ∧
      AnsweredWell {} log.deeds ∧
      NobodysFault ((send {} misheadedRequest).run .ofAnswers untried).1 untried.shared.pool
        ((send {} misheadedRequest).run .ofAnswers untried).2.shared.pool := by
  have hbad : Misheaded {} misheadedRequest :=
    fun hgood ↦ absurd (hgood.2.headers blankName List.mem_cons_self) (by decide)
  have hpool : untried.shared.pool.Populated := ⟨⟨by decide, by decide⟩, by decide⟩
  have hsettings : Settings.WellHeaded {} := List.forall_mem_nil _
  obtain ⟨ping, hmethod, hdeeds⟩ := deeds_untried
  obtain ⟨began, log, p, hlog, hjourney, hfault, -⟩ := (misheaded_request_fails hbad hpool
    (runs_run .ofAnswers (send {} misheadedRequest) untried)).2 rfl
  obtain ⟨-, htail⟩ := List.cons.inj (hlog.symm.trans hdeeds)
  have htime : log.InTime (courseOf {} misheadedRequest untried.shared.pool began) := by
    intro check hcheck
    have hread := (hjourney.bounded.deadline check hcheck).1.subset List.mem_cons_self
    have hlimit : (courseOf {} misheadedRequest untried.shared.pool began).limits.maxRetryTimeout =
      60000000000 := rfl
    rw [hlimit]
    simp only [htail, List.mem_cons, Deed.read.injEq, reduceCtorEq, List.not_mem_nil, or_false]
      at hread
    omega
  have hwell : AnsweredWell {} log.deeds := by
    rw [htail]
    constructor
    · intro message answer hmem
      obtain ⟨-, rfl⟩ := Prod.mk.inj (List.mem_singleton.mp hmem)
      exact ⟨_, rfl, rfl⟩
    · intro message reply node timeout hmem hsniff
      obtain ⟨rfl, -⟩ := Prod.mk.inj (List.mem_singleton.mp hmem)
      have hget := hmethod.symm.trans (Message.method_of_prepare hsniff)
      exact absurd hget (by decide)
  exact ⟨hbad, hpool, rfl, rfl, began, log, p, hlog, hjourney, hsettings, htime, hwell,
    hfault hsettings htime hwell⟩

/-- A header of the settings that cannot be sent kills the node, to which nothing was sent. -/
theorem bad_header_kills_node :
    ¬ misheadedSettings.WellHeaded ∧
    (∃ e, ((send misheadedSettings plainRequest).run .ofAnswers untried).1 = .error (.givenUp e) ∧
      e.why = .maxRetriesReached) ∧
    exchanges ((send misheadedSettings plainRequest).deeds .ofAnswers untried) = [] ∧
    ((send misheadedSettings plainRequest).run .ofAnswers untried).2.clock <
      misheadedSettings.requestTimeout ∧
    ((send misheadedSettings plainRequest).run .ofAnswers untried).2.shared.pool.nodes.map
      (fun node ↦ (node.health.alive, node.health.failures)) = [(false, 1)] := by
  refine ⟨not_wellHeaded_misheadedSettings, ⟨_, rfl, rfl⟩, rfl, ?_, rfl⟩
  decide

end Send

end SearchClient

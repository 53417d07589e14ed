import SearchClient.Proofs.Cluster.Journey

/-!
# What a request makes of the health of the nodes

In a pool that takes no new nodes a request makes one walk, on which it comes to each node at most
once. A node that failed is dead and has failed once more; the node whose answer ends the request is
as good as new; and of any other node nothing changes, except that it may have been given another
chance (`Journey.booked`). A request that is bound to one node changes nothing at all.

The induction is on the walk. What carries it is that the nodes which a walk has left behind stay as
they are (`Settled.frame`), so a node is marked once and by the stop that was made there.
-/

set_option autoImplicit false
set_option relaxedAutoImplicit false

namespace SearchClient.Send

variable {c : Course} {sh sh' sh₁ : Shared} {w w' : Walk} {p p' q : Progress} {log : Log}
  {deeds asked : List Deed} {result : Except Failure Response} {stop : Stop} {s : Settings}
  {pool pool' pool'' : Pool} {learnt : Bool}

/-! ### Pools that take no new nodes -/

theorem takesNewNodes_of_ne_sniffing {kind : PoolKind} (h : kind ≠ .sniffing) :
    kind.takesNewNodes = false := by
  simpa [PoolKind.takesNewNodes] using h

theorem Startup.passed_of_ne_sniffing [Url.Domain.Spelling] {begun : Except Failure Progress}
    (h : Startup c p sh deeds begun sh') (hkind : sh.pool.kind ≠ .sniffing) :
    begun = .ok p ∧ sh' = sh := by
  cases h with
  | passed => exact ⟨rfl, rfl⟩
  | replaced _ hasks | failed hasks =>
    simp [asksAtStartup, takesNewNodes_of_ne_sniffing hkind] at hasks

theorem Stale.passed_of_ne_sniffing [Url.Domain.Spelling] (h : Stale c p sh deeds p' sh')
    (hkind : sh.pool.kind ≠ .sniffing) : p' = p ∧ sh' = sh := by
  cases h with
  | passed | young => exact ⟨rfl, rfl⟩
  | replaced _ _ hasks | failed _ hasks =>
    simp [asksWhenStale, takesNewNodes_of_ne_sniffing hkind] at hasks

theorem learnsNothing_of_ne_sniffing [Url.Domain.Spelling] {kind : PoolKind}
    (hkind : kind ≠ .sniffing) : c.LearnsNothing kind := by
  intro p p' sh sh' deeds learnt hsame h
  cases h with
  | passed => exact ⟨rfl, rfl⟩
  | replaced _ hasks | failed hasks =>
    simp [asksAfterFault, hsame, takesNewNodes_of_ne_sniffing hkind] at hasks

/-! ### Walks -/

/-- What the stops of a walk make of a pool. -/
structure Settled (s : Settings) (w : Walk) (stops : List Stop) (pool pool' : Pool) : Prop where
  /-- No node is tried twice. -/
  nodup : (stops.map Stop.number).Nodup
  /-- Only nodes are tried that the walk has before it. -/
  before : ∀ stop ∈ stops, stop.number ∈ w.rest
  /-- The nodes that a walk has left behind stay as they are. -/
  frame : ∀ number, number ∉ w.rest → pool'.node? number = pool.node? number
  /-- A node that is tried is marked by the stop, perhaps after it was given another chance. -/
  marked : ∀ stop ∈ stops, ∃ node resurrected, pool.node? stop.number = some node ∧
    node.url = stop.node ∧ pool'.node? stop.number = some
      { node with health := stop.mark s { node.health with resurrected := resurrected } }
  /-- A node that is not tried is spared. -/
  spared : ∀ number, number ∉ stops.map Stop.number → pool.Spares pool' number
  kind : pool'.kind = pool.kind
  length_register : pool'.register.length = pool.register.length

/-- A walk that does not come to a node settles nothing. -/
theorem settled_of_stride {found : Option (Nat × Url)} (hfresh : w.Fresh)
    (h : (stride w p).Runs sh deeds (found, w', p') sh') : Settled s w [] sh.pool sh'.pool := by
  obtain ⟨looked, onward, honward, -, -, -, -, rfl⟩ := stride_runs h
  exact ⟨List.nodup_nil, by simp, fun number ↦ honward.frame hfresh, by simp,
    fun number _ ↦ honward.spares number, honward.kind_eq, honward.length_register_eq⟩

/-- A stride to a node and the stop there. -/
theorem settled_of_stop (hfresh : w.Fresh) (hnodup : w.rest.Nodup)
    (h : (stride w p).Runs sh deeds (some (stop.number, stop.node), w', p') sh') :
    Settled s w [stop] sh.pool (stop.after s sh').pool ∧ stop.number ∉ w'.rest ∧
      w'.rest <:+ w.rest := by
  have hstrode := settled_of_stride (s := s) hfresh h
  obtain ⟨looked, onward, honward, -, hfound, rfl, -, rfl⟩ := stride_runs h
  obtain ⟨number, hnumber, hnode⟩ := Option.bind_eq_some_iff.mp hfound.symm
  obtain ⟨node, hnode, heq⟩ := Option.map_eq_some_iff.mp hnode
  rw [Prod.mk.injEq] at heq
  obtain ⟨rfl, hurl⟩ := heq
  obtain ⟨hmem, hleft, hsuffix⟩ := honward.leaves hfresh hnodup hnumber
  refine ⟨⟨by simp, by simpa using hmem, ?_, ?_, ?_, hstrode.kind, ?_⟩, hleft, hsuffix⟩
  · intro other hother
    have hne : stop.number ≠ other := fun heq ↦ hother (heq ▸ hmem)
    exact (Pool.node?_changeHealth_of_ne hne).trans (hstrode.frame other hother)
  · obtain ⟨resurrected, hafter⟩ := honward.spares stop.number node hnode
    simp only [List.mem_singleton, forall_eq]
    refine ⟨node, resurrected, hnode, hurl, ?_⟩
    simp only [Stop.after]
    rw [Pool.node?_changeHealth_self, hafter]
    rfl
  · intro other hother
    rw [List.map_singleton, List.mem_singleton] at hother
    refine (honward.spares other).trans (Pool.spares_of_eq ?_)
    exact Pool.node?_changeHealth_of_ne fun heq ↦ hother heq.symm
  · exact Pool.length_register_changeHealth.trans hstrode.length_register

/-- A stop, and a walk over what is left behind it. -/
theorem Settled.cons {stops : List Stop} (h : Settled s w [stop] pool pool')
    (hleft : stop.number ∉ w'.rest) (hsuffix : w'.rest <:+ w.rest)
    (h' : Settled s w' stops pool' pool'') : Settled s w (stop :: stops) pool pool'' where
  nodup := by
    refine List.nodup_cons.mpr ⟨fun hmem ↦ ?_, h'.nodup⟩
    obtain ⟨other, hother, hnumber⟩ := List.mem_map.mp hmem
    exact hleft (hnumber ▸ h'.before other hother)
  before := by
    refine List.forall_mem_cons.mpr ⟨h.before stop List.mem_cons_self, fun other hother ↦ ?_⟩
    exact hsuffix.subset (h'.before other hother)
  frame := by
    intro number hnumber
    rw [h'.frame number fun hrest ↦ hnumber (hsuffix.subset hrest), h.frame number hnumber]
  marked := by
    refine List.forall_mem_cons.mpr ⟨?_, fun other hother ↦ ?_⟩
    · obtain ⟨node, resurrected, hnode, hurl, hmarked⟩ := h.marked stop List.mem_cons_self
      exact ⟨node, resurrected, hnode, hurl, (h'.frame _ hleft).trans hmarked⟩
    -- A node that is tried later was spared so far, so its health before is that of the start.
    · obtain ⟨_, resurrected, hnode, hurl, hmarked⟩ := h'.marked other hother
      have hne : other.number ≠ stop.number := fun heq ↦ hleft (heq ▸ h'.before other hother)
      have hspared := h.spared other.number (by simpa using hne)
      obtain ⟨node, _, hbefore, rfl⟩ := hspared.exists_before h.length_register hnode
      exact ⟨node, resurrected, hbefore, hurl, hmarked⟩
  spared := by
    intro number hnumber
    rw [List.map_cons, List.mem_cons, not_or] at hnumber
    exact (h.spared number (by simpa using hnumber.1)).trans (h'.spared number hnumber.2)
  kind := h'.kind.trans h.kind
  length_register := h'.length_register.trans h.length_register

/-- What a walk settles on which nothing new is learnt. -/
theorem Walked.settled [Url.Domain.Spelling] (h : Walked c w p sh log p' result sh')
    (hfresh : w.Fresh) (hnodup : w.rest.Nodup) (hnothing : c.LearnsNothing sh.pool.kind) :
    Settled c.settings w log.stops sh.pool sh'.pool := by
  induction h with
  | spent hstride | late _ hstride | exhausted _ hstride => exact settled_of_stride hfresh hstride
  | ended _ stop hstride => exact (settled_of_stop hfresh hnodup hstride).1
  | onward _ stop hstride _ _ _ _ hfault _ ih =>
    obtain ⟨hsettled, hleft, hsuffix⟩ := settled_of_stop (s := c.settings) hfresh hnodup hstride
    obtain ⟨-, rfl⟩ := hnothing hsettled.kind hfault
    refine hsettled.cons hleft hsuffix (ih ?_ (hsuffix.sublist.nodup hnodup) ?_)
    · exact (turnsLeft_of_stride hfresh hstride).2
    · rwa [hsettled.kind]
  | anew _ stop hstride _ _ _ _ hfault =>
    obtain ⟨hsettled, -, -⟩ := settled_of_stop (s := c.settings) hfresh hnodup hstride
    obtain ⟨hlearnt, -⟩ := hnothing hsettled.kind hfault
    cases hlearnt

/-! ### Journeys -/

/-- What the stops of a request make of the health of the nodes. -/
structure Booked (s : Settings) (stops : List Stop) (result : Except Failure Response)
    (pool pool' : Pool) : Prop where
  /-- No node is tried twice. -/
  nodup : (stops.map Stop.number).Nodup
  /-- A node that failed is dead, and has failed once more. The moment is the last deed there. -/
  failed : ∀ stop ∈ stops, ∀ moment, stop.failedAt? = some moment →
    stop.deeds.getLast? = some (.read moment) ∧ ∃ node, pool.node? stop.number = some node ∧
      node.url = stop.node ∧ pool'.node? stop.number = some
        { node with health :=
            { alive := false, resurrected := false, failures := node.health.failures + 1
              deadUntil := some
                (moment + backoff node.health.failures s.deadTimeout s.maxDeadTimeout) } }
  /-- A node that gave a usable answer is as good as new. -/
  answered : ∀ stop ∈ stops, ∀ reply, stop.answer? = some reply →
    ∃ node, pool.node? stop.number = some node ∧ node.url = stop.node ∧
      pool'.node? stop.number = some { node with health :=
        { alive := true, resurrected := false, failures := 0, deadUntil := none } }
  /-- The response is the answer of one of them. -/
  returned : ∀ response, result = .ok response → ∃ stop ∈ stops, ∃ reply,
    stop.answer? = some reply ∧ response.status = reply.status ∧
      response.headers = reply.headers ∧ response.body = reply.body
  /-- A node that neither failed nor answered is spared. -/
  others : ∀ number, (∀ stop ∈ stops, stop.number = number →
    stop.failedAt? = none ∧ stop.answer? = none) → pool.Spares pool' number

theorem Stop.getLast?_deeds {moment : Nat} (h : stop.failedAt? = some moment) :
    stop.deeds.getLast? = some (.read moment) := by
  obtain ⟨number, node, meeting⟩ := stop
  cases meeting with
  | unpingable | pingFailed =>
    cases h
    rfl
  | attempted greeting attempt =>
    cases attempt with
    | unsendable | answered => cases h
    | refused | broken =>
      cases h
      cases greeting <;> rfl

/-- A node that answered has not failed. -/
theorem Stop.failedAt?_of_answer {reply : Reply} (h : stop.answer? = some reply) :
    stop.failedAt? = none := by
  obtain ⟨number, node, meeting⟩ := stop
  cases meeting with
  | unpingable | pingFailed => cases h
  | attempted greeting attempt =>
    cases attempt with
    | unsendable | refused | broken => cases h
    | answered => rfl

/-- To begin a walk changes no node. -/
theorem Settled.of_walk {stops : List Stop} (h : Settled s w stops pool.walk.2 pool') :
    Settled s w stops pool pool' where
  nodup := h.nodup
  before := h.before
  frame := by simpa using h.frame
  marked := by simpa using h.marked
  spared := by simpa [Pool.Spares] using h.spared
  kind := h.kind.trans pool.kind_walk
  length_register := h.length_register.trans (congrArg List.length pool.register_walk)

/-- The marks of the stops of a request tell which node failed and which answered. -/
theorem Settled.booked (h : Settled s w log.stops pool pool') (hending : Ending c log p result) :
    Booked s log.stops result pool pool' where
  nodup := h.nodup
  failed := by
    intro stop hstop moment hmoment
    obtain ⟨node, resurrected, hnode, hurl, hmarked⟩ := h.marked stop hstop
    refine ⟨Stop.getLast?_deeds hmoment, node, hnode, hurl, ?_⟩
    simp only [hmarked, Stop.mark, hmoment]
    rfl
  answered := by
    intro stop hstop reply hreply
    obtain ⟨node, resurrected, hnode, hurl, hmarked⟩ := h.marked stop hstop
    refine ⟨node, hnode, hurl, ?_⟩
    simp only [hmarked, Stop.mark, Stop.failedAt?_of_answer hreply, hreply]
    rfl
  returned := by
    intro response hresponse
    cases hending with
    | surrendered => cases hresponse
    | @stopped _ last _ _ hstops _ hended =>
      cases hended with
      | unsendable => cases hresponse
      | @answered _ _ reply _ hmeeting =>
        cases hresponse
        exact ⟨last, by simp [hstops], reply, by simp [Stop.answer?, hmeeting], rfl, rfl, rfl⟩
  others := by
    intro number hnumber
    by_cases htried : number ∈ log.stops.map Stop.number
    · obtain ⟨stop, hstop, rfl⟩ := List.mem_map.mp htried
      obtain ⟨hfailed, hanswer⟩ := hnumber stop hstop rfl
      obtain ⟨node, resurrected, hnode, hurl, hmarked⟩ := h.marked stop hstop
      intro other hother
      rw [hnode, Option.some.injEq] at hother
      subst hother
      refine ⟨resurrected, ?_⟩
      simp only [hmarked, Stop.mark, hfailed, hanswer]
      rfl
    · exact h.spared number htried

/-- What a request settles that walks a pool which takes no new nodes. -/
theorem Journey.booked [Url.Domain.Spelling] (h : Journey c sh log p result sh')
    (hsound : sh.pool.Sound) (hkind : sh.pool.kind ≠ .sniffing) :
    Booked c.settings log.stops result sh.pool sh'.pool := by
  cases h with
  | stranded hstart =>
    obtain ⟨hbegun, -⟩ := hstart.passed_of_ne_sniffing hkind
    cases hbegun
  | walked hstart hstale hwalk =>
    obtain ⟨hbegun, rfl⟩ := hstart.passed_of_ne_sniffing hkind
    obtain ⟨-, rfl⟩ := hstale.passed_of_ne_sniffing hkind
    have hsettled := hwalk.settled (Pool.fresh_walk _) hsound.nodup_walk
      (learnsNothing_of_ne_sniffing ((Pool.kind_walk _).trans_ne hkind))
    exact hsettled.of_walk.booked hwalk.ending

/-- Whatever the clock and the answers, a request books its failures and its answer with the nodes
concerned and with no other, if the pool takes no new nodes. A request that is bound to one node
leaves all as it was. Pools are sound when they are made, and `sound_of_send` shows that they stay
so. -/
theorem health_bookkeeping [Url.Domain.Spelling] {s : Settings} {r : Request}
    (h : (send s r).Runs sh deeds result sh') :
    (r.overrides.onlyNode = none → sh.pool.Sound → sh.pool.kind ≠ .sniffing →
      ∃ began log p, deeds = .read began :: log.deeds ∧
        Journey (courseOf s r sh.pool began) sh log p result sh' ∧
        Booked s log.stops result sh.pool sh'.pool) ∧
    (r.overrides.onlyNode ≠ none → sh' = sh) := by
  constructor
  · intro hopen hsound hkind
    obtain ⟨began, log, p, rfl, hjourney⟩ := send_runs hopen h
    exact ⟨began, log, p, rfl, hjourney, hjourney.booked hsound hkind⟩
  · intro honly
    obtain ⟨node, hnode⟩ := Option.ne_none_iff_exists'.mp honly
    obtain ⟨began, rest, -, -, hsame⟩ := send_runs_only hnode h
    exact hsame

/-- The first of two nodes is dead after its bad gateway and the second as good as new; a request to
the second alone leaves both as they were. -/
theorem health_bookkeeping_of_two :
    (∃ began log p, (send trusting plainRequest).deeds .ofAnswers badGateway =
        .read began :: log.deeds ∧
      Journey (courseOf trusting plainRequest badGateway.shared.pool began) badGateway.shared log p
        (.ok responseOfSecond) ((send trusting plainRequest).run .ofAnswers badGateway).2.shared ∧
      Booked trusting log.stops (.ok responseOfSecond) badGateway.shared.pool
        ((send trusting plainRequest).run .ofAnswers badGateway).2.shared.pool) ∧
    ((send trusting (boundTo (nodeAt "b"))).run .ofAnswers badGateway).2.shared =
      badGateway.shared :=
  ⟨(health_bookkeeping runs_badGateway).1 rfl ⟨by decide, by decide⟩ (by decide),
    (health_bookkeeping (Program.runs_run .ofAnswers (send trusting (boundTo (nodeAt "b")))
      badGateway)).2 (by simp [boundTo])⟩

end SearchClient.Send

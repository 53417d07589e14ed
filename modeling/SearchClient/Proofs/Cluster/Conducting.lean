import SearchClient.Proofs.Cluster.Conduct

/-!
# Requests conduct themselves by the rules

Every part of a request keeps to the rules of `Goes`, from the place where it begins to the places
where it may leave the request. `send_conducts` puts the parts together: whatever others do
meanwhile, a request that ends was stranded by the first sniff and says so, or it ends somewhere
else and does not say so; and it tells of the first sniff only if it has begun it.
-/

set_option autoImplicit false
set_option relaxedAutoImplicit false

namespace SearchClient

/-! ### Walks within a view -/

namespace Walk

/-- All that is before a walk belongs to its view. -/
structure Inside (w : Walk) (view : List Nat) : Prop where
  rest : w.rest ⊆ view
  all : w.all ⊆ view

/-- What is left after a walk passed over some nodes belongs to its view. -/
theorem Inside.subset_of_append {w : Walk} {view skipped rest : List Nat} (h : w.Inside view)
    (hrest : w.rest = skipped ++ rest) : rest ⊆ view :=
  fun _ hnumber ↦ h.rest (hrest ▸ List.mem_append_right skipped hnumber)

/-- What a walk finds belongs to its view, and what is before it then does so too. -/
theorem Inside.next {w : Walk} {view : List Nat} (h : w.Inside view) (pool : Pool) (moment : Nat) :
    (w.next pool moment).walk.Inside view ∧
      (∀ number, (w.next pool moment).node = some number → number ∈ view ∧
        ((w.next pool moment).pool = pool ∨
          (w.next pool moment).pool = pool.changeHealth number Health.revive)) ∧
      ((w.next pool moment).node = none → (w.next pool moment).pool = pool) ∧
      ∀ entry ∈ (w.next pool moment).entries, entry.event ≠ .sniffOnStartup := by
  have honward := w.onward_next pool moment
  generalize w.next pool moment = onward at honward
  cases honward with
  | @taken skipped rest number node hrest =>
    obtain ⟨hfound, hleft⟩ := List.cons_subset.mp (h.subset_of_append hrest)
    refine ⟨⟨hleft, h.all⟩, ?_, fun hnone ↦ absurd hnone (Option.some_ne_none _), by simp⟩
    rintro _ ⟨⟩
    exact ⟨hfound, .inl rfl⟩
  | @revived skipped rest number node hrest =>
    obtain ⟨hfound, hleft⟩ := List.cons_subset.mp (h.subset_of_append hrest)
    refine ⟨⟨hleft, h.all⟩, ?_, fun hnone ↦ absurd hnone (Option.some_ne_none _), ?_⟩
    · rintro _ ⟨⟩
      exact ⟨hfound, .inr rfl⟩
    · simp [Pool.revival]
  | spent | nobody => exact ⟨⟨List.nil_subset _, h.all⟩, by simp, fun _ ↦ rfl, by simp⟩
  | longestDead _ _ hlongest =>
    refine ⟨⟨List.nil_subset _, h.all⟩, ?_, fun hnone ↦ absurd hnone (Option.some_ne_none _), ?_⟩
    · rintro _ ⟨⟩
      exact ⟨h.all (Pool.longestDead_mem hlongest), .inr rfl⟩
    · simp [Pool.revival]

/-- A new walk is within the ring. -/
theorem inside_walk (pool : Pool) : pool.walk.1.Inside pool.ring :=
  ⟨pool.rest_walk_perm.subset, by simp⟩

end Walk

namespace Send

open Program

/-! ### What is written down -/

/-- A trail tells of the first sniff only if the request has begun it. -/
def Truthful (begun : Bool) (trail : Trail) : Prop :=
  ∀ entry ∈ trail, entry.event = .sniffOnStartup → begun = true

section Truthful

variable {begun : Bool} {trail trail' : Trail} {p : Progress} {entry : TrailEntry}

theorem truthful_nil : Truthful begun [] := by
  intro entry hentry
  cases hentry

theorem Truthful.append (h : Truthful begun trail)
    (h' : ∀ entry ∈ trail', entry.event ≠ .sniffOnStartup) : Truthful begun (trail ++ trail') := by
  intro entry hentry hevent
  rcases List.mem_append.mp hentry with hentry | hentry
  · exact h entry hentry hevent
  · exact absurd hevent (h' entry hentry)

theorem Truthful.record (h : Truthful begun p.trail)
    (hentry : (entry.event == .sniffOnStartup) = false) : Truthful begun (p.record entry).trail :=
  h.append fun _ hmem ↦ List.mem_singleton.mp hmem ▸ beq_eq_false_iff_ne.mp hentry

theorem truthful_of_begun : Truthful true trail := fun _ _ _ ↦ rfl

/-- How a request gives up tells nothing of the first sniff. -/
theorem Truthful.surrender {why : Surrender} {event : Event} (h : Truthful begun p.trail)
    (hevent : (event == .sniffOnStartup) = false) :
    Truthful begun (trailOf (p.surrender why event)) :=
  h.record hevent

end Truthful

/-! ### Ends -/

/-- The end of a request that could not be told nodes before the first request. -/
def Stranded (result : Except Failure Response) : Prop :=
  ∃ e : GivenUp, result = .error (.givenUp e) ∧ e.why = .couldNotSniffOnStartup

/-- A request ends in its walk, before a walk that it has no turn left for, or past the pool. -/
inductive Place.Ends : Place → Prop
  | fresh : Ends .fresh
  | bound : Ends .bound
  | renewed : Ends .renewed
  | walking (view : List Nat) : Ends (.walking view)
  | trying (view : List Nat) (number : Nat) (url : Url) (verdict : Verdict) :
      Ends (.trying view number url verdict)

/-- How a request may end that has set out. -/
structure Concluded (result : Except Failure Response) (begun : Bool) (place : Place) : Prop where
  truthful : Truthful begun (trailOf result)
  ends : place.Ends
  notStranded : ¬ Stranded result

/-- How a request may end: stranded by the first sniff, without an attempt, or otherwise. -/
def Final (result : Except Failure Response) (begun : Bool) (place : Place) : Prop :=
  (place = .stranded ∧ begun = true ∧ ∃ e : GivenUp, result = .error (.givenUp e) ∧
    e.why = .couldNotSniffOnStartup ∧ e.attempts = 0) ∨ Concluded result begun place

variable {c : Course} {who : Nat} {begun : Bool} {place : Place} {sc : Scene} {p : Progress}
  {view : List Nat} {number : Nat} {url : Url}

theorem not_stranded_ok {response : Response} : ¬ Stranded (.ok response) := by
  rintro ⟨e, he, -⟩
  cases he

theorem not_stranded_config {fault : ConfigFault} : ¬ Stranded (.error (.config fault)) := by
  rintro ⟨e, he, -⟩
  cases he

theorem concluded_unsendable {what : Unsendable} (hplace : place.Ends) :
    Concluded (.error (.config (.unsendable what))) begun place :=
  ⟨truthful_nil, hplace, not_stranded_config⟩

theorem concluded_surrender {why : Surrender} {event : Event} (hp : Truthful begun p.trail)
    (hplace : place.Ends) (hwhy : (why == .couldNotSniffOnStartup) = false)
    (hevent : (event == .sniffOnStartup) = false) :
    Concluded (p.surrender why event) begun place := by
  refine ⟨hp.surrender hevent, hplace, ?_⟩
  rintro ⟨e, he, hstranded⟩
  cases he
  exact beq_eq_false_iff_ne.mp hwhy hstranded

theorem concluded_runOut (hp : Truthful begun p.trail) (hplace : place.Ends) :
    Concluded (runOut c p) begun place := by
  unfold runOut
  split
  · exact concluded_surrender hp hplace rfl rfl
  · split
    · exact concluded_surrender hp hplace rfl rfl
    · exact concluded_surrender hp hplace rfl rfl

/-- The response of a node that answered, if there is one. -/
theorem concluded_respond {node : Url} {reply : Reply} {trail : Trail}
    (htrail : Truthful begun trail) (hplace : place.Ends) :
    Concluded (respond c node reply trail) begun place := by
  unfold respond
  split
  · exact concluded_unsendable hplace
  · exact ⟨htrail, hplace, not_stranded_ok⟩

variable [Url.Domain.Spelling]

/-! ### Sniffs -/

/-- Where a sniff leaves a request. -/
def SniffEnd.placeAfter (occasion : Occasion) (place : Place) : SniffEnd → Place
  | replaced => .learnt occasion
  | failed _ => place

/-- What a sniff leaves behind. -/
def SniffedAt (occasion : Occasion) (before : Bool) (place : Place) (out : SniffEnd × Progress)
    (begun : Bool) (place' : Place) : Prop :=
  begun = before ∧ Truthful begun out.2.trail ∧ place' = out.1.placeAfter occasion place

theorem sniffAmong_conducts {timeout : Nat} {nodes : List Url} {fault : Option LinkFault}
    {occasion : Occasion} (hplace : place.Consults occasion) (hp : Truthful begun p.trail) :
    (sniffAmong c.settings timeout nodes fault p).Conducts c.settings c.request who
      (SniffedAt occasion begun place) begun place sc := by
  have hmoves : place.isLast = false := by cases hplace <;> rfl
  induction nodes generalizing fault p sc with
  | nil => exact ⟨rfl, hp, rfl⟩
  | cons node nodes ih =>
    rw [sniffAmong]
    -- Wherever a node does not tell of nodes, one entry is added and the next is asked.
    cases hmessage : sniffMessage c.settings node timeout with
    | error what => exact ih (hp.record rfl)
    | ok message =>
      refine Conducts.call_bind fun sc answer ↦
        ⟨_, _, .ask answer hplace ⟨node, timeout, hmessage⟩, rfl, ?_⟩
      cases answer with
      | error fault => exact ih (hp.record rfl)
      | ok reply =>
        by_cases hsuccess : isSuccess reply.status = true
        · simp only [hsuccess, if_true]
          cases hread : Sniff.readNodes reply.body node c.settings.skipManagerOnly with
          | error flaw => exact ih (hp.record rfl)
          | ok found =>
            exact Conducts.change_bind hmoves (.reseed hplace hread) rfl
              ⟨rfl, hp.record rfl, rfl⟩
        · simp only [hsuccess]
          exact ih (hp.record rfl)

theorem sniff_conducts {timeout : Nat} {occasion : Occasion} (hplace : place.Consults occasion)
    (hp : Truthful begun p.trail) :
    (sniff c.settings timeout p).Conducts c.settings c.request who
      (SniffedAt occasion begun place) begun place sc :=
  Conducts.look_idle (by cases hplace <;> rfl) (sniffAmong_conducts hplace hp)

/-- The time of a sniff is stored by the request that has the turn. -/
theorem keepSniffTime_conducts {occasion : Occasion} (hoccasion : occasion ≠ .fault) :
    keepSniffTime.Conducts c.settings c.request who
      (fun _ begun' place' ↦ begun' = begun ∧ place' = .kept occasion) begun (.learnt occasion)
      sc := by
  have hheedless : (Place.learnt occasion).heedsTime = false := by cases occasion <;> trivial
  refine Conducts.now_idle rfl hheedless fun moment hmoment ↦ ?_
  exact Conducts.change_bind (f := done) rfl (.store hoccasion) rfl ⟨rfl, rfl⟩

/-- Before the first request. -/
theorem sniffOnStartup_conducts (hopen : c.request.overrides.onlyNode = none) :
    (sniffOnStartup c {}).Conducts c.settings c.request who
      (fun begun begun' place' ↦ match begun with
        | .ok p => place' = .passed ∧ Truthful begun' p.trail
        | .error failure => Final (.error failure) begun' place')
      false .fresh sc := by
  unfold sniffOnStartup
  by_cases hasks : asksFirst c.settings c.request sc.shared = true
  · refine Conducts.look_idle rfl ?_
    rw [asksFirst] at hasks
    simp only [hasks, if_true]
    refine Conducts.acquire_bind fun sc hturn ↦ ⟨_, .enterFirst hopen hturn, rfl, ?_⟩
    refine Conducts.look_idle rfl ?_
    by_cases hstarted : sc.shared.started = true
    · simp only [hstarted, if_true]
      exact Conducts.release_bind (.leaveFirst hstarted) rfl ⟨rfl, truthful_nil⟩
    · simp only [hstarted]
      rw [Bool.not_eq_true] at hstarted
      refine Conducts.change_bind rfl (.begin hstarted) rfl ?_
      refine (sniff_conducts (.asking (by decide)) truthful_of_begun).bind ?_
      rintro ⟨ending, p⟩ begun place sc ⟨rfl, hp, rfl⟩
      cases ending with
      | replaced =>
        refine (keepSniffTime_conducts (by decide)).bind ?_
        rintro - begun place sc ⟨rfl, rfl⟩
        exact Conducts.release_bind .finish rfl ⟨rfl, hp⟩
      | failed fault =>
        exact Conducts.release_bind .strand rfl (.inl ⟨rfl, rfl, _, rfl, rfl, rfl⟩)
  · have hspared := hasks
    rw [Bool.not_eq_true] at hspared
    refine Conducts.look_bind (.pass hopen hspared) ?_
    rw [asksFirst] at hasks
    simp only [hasks]
    exact ⟨rfl, truthful_nil⟩

/-- When the last sniff may be too long ago. -/
theorem sniffIfStale_conducts (hp : Truthful begun p.trail) :
    (sniffIfStale c p).Conducts c.settings c.request who
      (fun p begun' place' ↦ Truthful begun' p.trail ∧
        (place' = .ready ∨ place' = .passed ∧ c.settings.sniffLifespan = none))
      begun .passed sc := by
  unfold sniffIfStale
  cases hlifespan : c.settings.sniffLifespan with
  | none => exact ⟨hp, .inr ⟨rfl, rfl⟩⟩
  | some lifespan =>
    simp only
    by_cases hasks : (sc.shared.pool.kind.takesNewNodes && !c.request.overrides.disableSniff) = true
    · refine Conducts.look_idle rfl ?_
      simp only [hasks, if_true]
      refine Conducts.acquire_bind fun sc hturn ↦ ⟨_, .enterOld hturn, rfl, ?_⟩
      refine Conducts.look_idle rfl ?_
      refine Conducts.now_bind fun moment hmoment ↦ ?_
      by_cases hyoung : moment - sc.shared.lastSniff < lifespan
      · refine ⟨_, _, .young hlifespan hmoment hyoung, rfl, ?_⟩
        simp only [hyoung, if_true]
        exact Conducts.release_bind .leaveYoung rfl ⟨hp, .inl rfl⟩
      · refine ⟨_, _, .old hlifespan hmoment (Nat.le_of_not_lt hyoung), rfl, ?_⟩
        simp only [hyoung, if_false]
        refine (sniff_conducts (.asking (by decide)) (hp.record rfl)).bind ?_
        rintro ⟨ending, p⟩ begun place sc ⟨rfl, hp, rfl⟩
        cases ending with
        | replaced =>
          refine (keepSniffTime_conducts (by decide)).bind ?_
          rintro - begun place sc ⟨rfl, rfl⟩
          exact Conducts.release_bind .finish rfl ⟨hp, .inl rfl⟩
        | failed fault => exact Conducts.release_bind .carryOn rfl ⟨hp, .inl rfl⟩
    · refine Conducts.look_bind (.spare ?_) ?_
      · rw [asksWhenOld, hlifespan, Option.isSome_some, Bool.true_and]
        simpa using hasks
      · simp only [hasks]
        exact ⟨hp, .inl rfl⟩

/-- After a node failed. -/
theorem sniffOnFault_conducts (hp : Truthful begun p.trail) :
    (sniffOnFault c p).Conducts c.settings c.request who
      (fun out begun' place' ↦ begun' = begun ∧ Truthful begun' out.2.trail ∧
        place' = if out.1 then .renewed else .walking view)
      begun (.walking view) sc := by
  unfold sniffOnFault
  refine Conducts.look_idle rfl ?_
  split
  · exact ⟨rfl, hp, rfl⟩
  · refine (sniff_conducts (.walking view)
      (hp.record (p := { p with sniffed := true }) rfl)).bind ?_
    rintro ⟨ending, p⟩ begun place sc ⟨rfl, hp, rfl⟩
    cases ending with
    | replaced =>
      refine Conducts.now_bind fun moment hmoment ↦ ⟨_, _, .read hmoment, rfl, ?_⟩
      refine Conducts.acquire_bind fun sc hturn ↦ ⟨_, .enterFault hturn, rfl, ?_⟩
      refine Conducts.change_bind rfl .storeFault rfl ?_
      exact Conducts.release_bind .finish rfl ⟨rfl, hp, rfl⟩
    | failed fault => exact ⟨rfl, hp, rfl⟩

/-! ### Nodes that are tried -/

/-- What a visit to a node leaves behind: the end of the request, or a walk that goes on. -/
def Visited (view : List Nat) (before : Bool) (out : Visit) (begun : Bool) (place : Place) : Prop :=
  begun = before ∧ match out with
    | .answered result => Concluded result begun place
    | .failed p => place = .walking view ∧ Truthful begun p.trail

/-- What a ping leaves behind: a node that may get the request, or one that has to be marked. -/
def PingedAt (s : Settings) (view : List Nat) (number : Nat) (url : Url) (before : Bool)
    (out : Option LinkFault × Progress) (begun : Bool) (place : Place) : Prop :=
  begun = before ∧ Truthful begun out.2.trail ∧ match out.1 with
    | none => place = .trying view number url .undecided
    | some _ => ∃ verdict, place = .trying view number url verdict ∧
      ∀ moment, verdict.CallsFor s url moment (.dead moment)

theorem ping_conducts {timeout : Nat} (hp : Truthful begun p.trail) :
    (ping c.settings url timeout p).Conducts c.settings c.request who
      (PingedAt c.settings view number url begun) begun (.trying view number url .undecided)
      sc := by
  unfold ping
  cases hmessage : pingMessage c.settings url timeout with
  | error what => exact ⟨rfl, hp, .undecided, rfl, fun _ ↦ .unpingable hmessage⟩
  | ok message =>
    refine Conducts.call_bind fun sc answer ↦ ⟨_, _, .ping answer hmessage, rfl, ?_⟩
    cases answer with
    | error fault => exact ⟨rfl, hp.record rfl, .failed, rfl, fun _ ↦ .failed⟩
    | ok reply =>
      by_cases hsuccess : isSuccess reply.status = true
      · simp only [Verdict.ofPing, hsuccess, if_true]
        exact ⟨rfl, hp.record rfl, rfl⟩
      · simp only [Verdict.ofPing, hsuccess]
        exact ⟨rfl, hp.record rfl, .failed, rfl, fun _ ↦ .failed⟩

theorem markDead_bind_conducts {α : Type} {f : Unit → Program α} {post : α → Bool → Place → Prop}
    {verdict : Verdict} (hcalls : ∀ moment, verdict.CallsFor c.settings url moment (.dead moment))
    (h : ∀ sc, (f ()).Conducts c.settings c.request who post begun (.walking view) sc) :
    (markDead c.settings number >>= f).Conducts c.settings c.request who post begun
      (.trying view number url verdict) sc :=
  Conducts.now_idle (f := fun moment ↦
    mark number (fun h ↦ h.fail moment c.settings.deadTimeout c.settings.maxDeadTimeout) >>= f)
    rfl rfl fun _ _ ↦ Conducts.change_bind rfl (.mark (hcalls _)) rfl (h _)

theorem markAlive_bind_conducts {α : Type} {f : Unit → Program α} {post : α → Bool → Place → Prop}
    (h : ∀ sc, (f ()).Conducts c.settings c.request who post begun (.walking view) sc) :
    (markAlive number >>= f).Conducts c.settings c.request who post begun
      (.trying view number url .answered) sc :=
  Conducts.change_bind rfl (.mark .answered) rfl (h _)

theorem attempt_conducts (hp : Truthful begun p.trail) :
    (attempt c number url p).Conducts c.settings c.request who (Visited view begun) begun
      (.trying view number url .undecided) sc := by
  unfold attempt
  cases hmessage : messageTo c url with
  | error what => exact ⟨rfl, concluded_unsendable (.trying view number url .undecided)⟩
  | ok message =>
    refine Conducts.call_bind fun sc answer ↦ ⟨_, _, .attempt answer rfl rfl hmessage, rfl, ?_⟩
    cases answer with
    | error fault =>
      exact markDead_bind_conducts (fun _ ↦ .failed) fun _ ↦ ⟨rfl, rfl, hp.record rfl⟩
    | ok reply =>
      by_cases hretryable : isRetryable reply.status = true
      · simp only [Verdict.ofAttempt, hretryable, if_true]
        exact markDead_bind_conducts (fun _ ↦ .failed) fun _ ↦ ⟨rfl, rfl, hp.record rfl⟩
      · simp only [Verdict.ofAttempt, hretryable]
        refine markAlive_bind_conducts fun _ ↦
          ⟨rfl, concluded_respond (hp.record ?_) (.walking view)⟩
        unfold statusEntry
        split <;> rfl

theorem visit_conducts (hp : Truthful begun p.trail) :
    (visit c number url p).Conducts c.settings c.request who (Visited view begun) begun
      (.trying view number url .undecided) sc := by
  unfold visit
  refine Conducts.look_idle rfl ?_
  split
  · refine (ping_conducts hp).bind ?_
    rintro ⟨fault, p⟩ begun place sc ⟨rfl, hp, hpinged⟩
    cases fault with
    | none =>
      obtain rfl := hpinged
      exact attempt_conducts hp
    | some fault =>
      obtain ⟨verdict, rfl, hcalls⟩ := hpinged
      exact markDead_bind_conducts hcalls fun _ ↦ ⟨rfl, rfl, hp⟩
  · exact attempt_conducts hp

/-! ### Walks -/

/-- Where a stride leaves a request. -/
def placeAfterStride (view : List Nat) : Option (Nat × Url) → Place
  | none => .walking view
  | some (number, url) => .trying view number url .undecided

theorem stride_conducts {w : Walk} (hw : w.Inside view) (hp : Truthful begun p.trail) :
    (stride w p).Conducts c.settings c.request who
      (fun out begun' place' ↦ begun' = begun ∧ place' = placeAfterStride view out.1 ∧
        out.2.1.Inside view ∧ Truthful begun' out.2.2.trail)
      begun (.walking view) sc := by
  unfold stride
  refine Conducts.now_idle rfl rfl fun moment _ ↦ Conducts.look_idle rfl ?_
  obtain ⟨hinside, hsome, hnone, hentries⟩ := hw.next sc.shared.pool moment
  simp only
  generalize w.next sc.shared.pool moment = onward at *
  obtain ⟨node, w', pool, entries⟩ := onward
  have htrail : Truthful begun (p.trail ++ entries) := hp.append hentries
  cases node with
  | none =>
    exact Conducts.change_bind rfl (.spent (.inl (hnone rfl))) rfl ⟨rfl, rfl, hinside, htrail⟩
  | some number =>
    obtain ⟨hview, hpool⟩ := hsome number rfl
    cases hnode : sc.shared.pool.node? number with
    | none =>
      refine Conducts.change_bind rfl (.spent ?_) rfl ⟨rfl, ?_, hinside, htrail⟩
      · exact hpool.imp_right fun h ↦ ⟨number, h⟩
      · simp [placeAfterStride, hnode]
    | some node =>
      refine Conducts.change_bind rfl (.stride hview hnode hpool) rfl ⟨rfl, ?_, hinside, htrail⟩
      simp [placeAfterStride, hnode]

/-- A walk settles its request if any walk that takes over does. -/
theorem walk_conducts {another : Progress → Program (Except Failure Response)}
    (hanother : ∀ p begun sc, Truthful begun p.trail →
      (another p).Conducts c.settings c.request who Concluded begun .renewed sc)
    (turns : Nat) {w : Walk} (hw : w.Inside view) (hp : Truthful begun p.trail) :
    (walk c another turns w p).Conducts c.settings c.request who Concluded begun (.walking view)
      sc := by
  induction turns generalizing w p begun sc with
  | zero => exact concluded_runOut hp (.walking view)
  | succ turns ih =>
    unfold walk
    refine (stride_conducts hw hp).bind ?_
    rintro ⟨found, w, p⟩ begun place sc ⟨rfl, rfl, hw, hp⟩
    cases found with
    | none => exact concluded_runOut hp (.walking view)
    | some found =>
      obtain ⟨number, url⟩ := found
      refine Conducts.now_idle rfl rfl fun moment _ ↦ ?_
      split
      · exact concluded_surrender hp (.trying view number url .undecided) rfl rfl
      · split
        · exact concluded_surrender hp (.trying view number url .undecided) rfl rfl
        · refine (visit_conducts (p := { p with tried := p.tried + 1 }) hp).bind ?_
          rintro (result | p) begun place sc ⟨rfl, hvisited⟩
          · exact hvisited
          · obtain ⟨rfl, hp⟩ := hvisited
            refine (sniffOnFault_conducts hp).bind ?_
            rintro ⟨learnt, p⟩ begun place sc ⟨rfl, hp, rfl⟩
            cases learnt with
            | true => exact hanother p _ sc hp
            | false => exact ih hw hp

/-- A walk of the ring as it is now. -/
theorem walks_conducts_of_ready {more : Nat}
    (hmore : ∀ p begun sc, Truthful begun p.trail →
      (walks c more p).Conducts c.settings c.request who Concluded begun .renewed sc)
    (hplace : place = .ready ∨ place = .renewed) (hp : Truthful begun p.trail) :
    (walks c (more + 1) p).Conducts c.settings c.request who Concluded begun place sc := by
  have hmoves : place.isLast = false := by rcases hplace with rfl | rfl <;> rfl
  unfold walks
  refine Conducts.look_idle hmoves ?_
  refine Conducts.change_bind hmoves (.view hplace) rfl ?_
  exact walk_conducts hmore _ (Walk.inside_walk sc.shared.pool) hp

theorem walks_conducts_of_renewed (more : Nat) (hp : Truthful begun p.trail) :
    (walks c more p).Conducts c.settings c.request who Concluded begun .renewed sc := by
  induction more generalizing p begun sc with
  | zero => exact concluded_runOut hp .renewed
  | succ more ih => exact walks_conducts_of_ready (fun _ _ _ ↦ ih) (.inr rfl) hp

/-- A request that needs no sniff sets out as soon as it has looked at the pool. -/
theorem walks_conducts_of_passed {more : Nat} (hlifespan : c.settings.sniffLifespan = none)
    (hp : Truthful begun p.trail) :
    (walks c (more + 1) p).Conducts c.settings c.request who Concluded begun .passed sc := by
  unfold walks
  refine Conducts.look_bind (.spare (by rw [asksWhenOld, hlifespan]; rfl)) ?_
  refine Conducts.change_bind rfl (.view (.inl rfl)) rfl ?_
  exact walk_conducts (fun _ _ _ ↦ walks_conducts_of_renewed more) _
    (Walk.inside_walk sc.shared.pool) hp

/-! ### Requests -/

/-- A request to one node that it names. -/
theorem sendOnly_conducts {node : Url} (honly : c.request.overrides.onlyNode = some node) :
    (sendOnly c node).Conducts c.settings c.request who Concluded begun .fresh sc := by
  unfold sendOnly
  cases hmessage : messageTo c node with
  | error what => exact concluded_unsendable .fresh
  | ok message =>
    refine Conducts.call_bind fun sc answer ↦ ⟨_, _, .direct message answer honly, rfl, ?_⟩
    cases answer with
    | error fault =>
      refine ⟨?_, .bound, ?_⟩
      · exact truthful_nil.append (by simp [faultEntry])
      · rintro ⟨e, he, hstranded⟩
        cases he
        cases hstranded
    | ok reply =>
      refine concluded_respond (truthful_nil.append ?_) .bound
      simp only [List.mem_singleton, forall_eq, statusEntry]
      split
      · decide
      · split <;> decide

/-- Whatever the others do, a request keeps to the rules and ends as it should. -/
theorem send_conducts (s : Settings) (r : Request) (who : Nat) (sc : Scene) :
    (send s r).Conducts s r who Final false .fresh sc := by
  unfold send
  refine Conducts.now_idle rfl rfl fun began _ ↦ Conducts.look_idle rfl ?_
  simp only
  generalize hc : ({ settings := s, request := r, payload := _, limits := _, began := _ } : Course)
    = c
  obtain rfl : c.settings = s := by rw [← hc]
  obtain rfl : c.request = r := by rw [← hc]
  cases honly : c.request.overrides.onlyNode with
  | some node => exact (sendOnly_conducts honly).mono fun _ _ _ ↦ .inr
  | none =>
    refine (sniffOnStartup_conducts honly).bind ?_
    rintro (failure | p) begun place sc hstart
    · exact hstart
    · obtain ⟨rfl, hp⟩ := hstart
      refine (sniffIfStale_conducts hp).bind ?_
      rintro p begun place sc ⟨hp, rfl | ⟨rfl, hlifespan⟩⟩
      · exact (walks_conducts_of_ready (fun _ _ _ ↦ walks_conducts_of_renewed 1) (.inl rfl) hp).mono
          fun _ _ _ ↦ .inr
      · exact (walks_conducts_of_passed hlifespan hp).mono fun _ _ _ ↦ .inr

end Send

end SearchClient

import SearchClient.Proofs.Cluster.FaithfulTrail

/-!
# The budget of a request

A request that is not bound to one node comes to an end whatever is around it. It begins at most two
walks, since only the one sniff after a fault begins another; the nodes it tries on both together
are no more than its retries and one; and once it has found its time over it sends nothing more.

The counter of tries goes up before the ping. That of the trail goes up when a ping failed or the
request itself did, so the two agree when a request is given up, as long as every ping that was due
could be prepared.
-/

set_option autoImplicit false
set_option relaxedAutoImplicit false

namespace SearchClient.Send

/-! ### How often something was written down -/

/-- How often an event stands in a trail. -/
def times (event : Event) (trail : Trail) : Nat := trail.countP (·.event == event)

/-- How often a trail tells that a node failed. -/
def misses (trail : Trail) : Nat := times .pingFailure trail + times .badResponse trail

variable {event : Event} {trail trail' : Trail} {c : Course} {sh sh' : Shared} {w w' : Walk}
  {p p' : Progress} {log : Log} {deeds : List Deed} {result : Except Failure Response} {pool : Pool}

@[simp] theorem times_append : times event (trail ++ trail') = times event trail +
    times event trail' :=
  List.countP_append

theorem times_cons (entry : TrailEntry) : times event (entry :: trail) =
    times event trail + if entry.event = event then 1 else 0 := by
  simp only [times, List.countP_cons, beq_iff_eq]

theorem times_eq_zero (h : ∀ entry ∈ trail, entry.event ≠ event) : times event trail = 0 := by
  refine List.countP_eq_zero.mpr fun entry hentry ↦ ?_
  simpa using h entry hentry

@[simp] theorem misses_append : misses (trail ++ trail') = misses trail + misses trail' := by
  simp only [misses, times_append]
  omega

theorem misses_eq_zero
    (h : ∀ entry ∈ trail, entry.event ≠ .pingFailure ∧ entry.event ≠ .badResponse) :
    misses trail = 0 := by
  have hpings := times_eq_zero fun entry hentry ↦ (h entry hentry).1
  have hresponses := times_eq_zero fun entry hentry ↦ (h entry hentry).2
  simp only [misses, hpings, hresponses]

/-! ### Strides and questions -/

/-- A stride counts for nothing. -/
theorem stride_counts {found : Option (Nat × Url)}
    (h : (stride w p).Runs sh deeds (found, w', p') sh') :
    ∃ added, exchanges deeds = [] ∧ p' = { p with trail := p.trail ++ added } ∧
      times .sniffOnFail added = 0 ∧ misses added = 0 := by
  obtain ⟨added, hdeeds, hp', hadded⟩ := stride_writes h
  refine ⟨added, hdeeds, hp', times_eq_zero fun entry hentry ↦ ?_,
    misses_eq_zero fun entry hentry ↦ ?_⟩
  · rcases hadded entry hentry with hevent | hevent <;> simp [hevent]
  · rcases hadded entry hentry with hevent | hevent <;> simp [hevent]

theorem Inquiry.event_entry (i : Inquiry) :
    i.entry.event = .sniffSuccess ∨ i.entry.event = .sniffFailure := by
  obtain ⟨node, finding⟩ := i
  cases finding with
  | told => exact .inl rfl
  | unsendable | broken | declined | flawed => exact .inr rfl

/-! ### Stops -/

theorem Stop.times_entries (stop : Stop) : times .sniffOnFail stop.entries = 0 := by
  obtain ⟨number, node, meeting⟩ := stop
  rcases meeting with _ | _ | ⟨_ | _, _ | _ | _ | ⟨_, reply⟩⟩ <;> try rfl
  all_goals
    simp only [Stop.entries, Stop.greetingEntries, Attempt.entries, statusEntry]
    split_ifs <;> rfl

/-- No ping was due at a stop, or it could be prepared. -/
def Stop.Pingable (stop : Stop) : Prop := ∀ what moment, stop.meeting ≠ .unpingable what moment

/-- A node that failed is written down as such once. -/
theorem Stop.misses_entries {stop : Stop} (hfailed : stop.Failed) (hping : stop.Pingable) :
    misses stop.entries = 1 := by
  obtain ⟨⟨moment, hmoment⟩, -⟩ := hfailed
  obtain ⟨number, node, meeting⟩ := stop
  cases meeting with
  | unpingable what moment => exact absurd rfl (hping what moment)
  | pingFailed => rfl
  | attempted greeting attempt =>
    cases attempt with
    | unsendable | answered => cases hmoment
    | refused | broken => cases greeting <;> rfl

/-! ### Ends -/

/-- What a request writes down when it is given up counts for nothing. -/
theorem counts_of_closing
    (h : ∀ entry ∈ trail, ∃ why, (why, entry.event) ∈ closings) :
    times .sniffOnFail trail = 0 ∧ misses trail = 0 := by
  have hevents (entry : TrailEntry) (hentry : entry ∈ trail) :
      entry.event ≠ .sniffOnFail ∧ entry.event ≠ .pingFailure ∧ entry.event ≠ .badResponse := by
    obtain ⟨why, hwhy⟩ := h entry hentry
    simp only [closings, List.mem_cons, Prod.mk.injEq, List.not_mem_nil, or_false] at hwhy
    rcases hwhy with ⟨-, hevent⟩ | ⟨-, hevent⟩ | ⟨-, hevent⟩ | ⟨-, hevent⟩ <;> simp [hevent]
  exact ⟨times_eq_zero fun entry hentry ↦ (hevents entry hentry).1,
    misses_eq_zero fun entry hentry ↦ (hevents entry hentry).2⟩

/-- A request that ended tells of as many sniffs after faults as it has written down, or of none. -/
theorem Ending.times_sniffOnFail_le (h : Ending c log p result) :
    times .sniffOnFail (trailOf result) ≤ times .sniffOnFail p.trail := by
  rcases h.told with ⟨node, what, -, rfl⟩ | ⟨closing, htrail, hclosing⟩
  · exact Nat.zero_le _
  · refine Nat.le_of_eq ?_
    rw [htrail, times_append, (counts_of_closing hclosing).1, Nat.add_zero]

/-- A request that is given up counts the nodes that it tried. -/
theorem Ending.attempts_eq {e : GivenUp} (h : Ending c log p result)
    (hresult : result = .error (.givenUp e)) :
    e.attempts = p.tried ∧ misses e.trail = misses p.trail := by
  cases h with
  | surrendered hclosing =>
    cases hresult
    refine ⟨rfl, ?_⟩
    have hevent : misses [{ event := _ }] = 0 :=
      (counts_of_closing (by simpa using ⟨_, hclosing⟩)).2
    simp [Progress.record, hevent]
  | stopped _ _ hended =>
    subst hresult
    cases hended

section Spelled

variable [Url.Domain.Spelling]

/-! ### Asking the cluster -/

/-- Asking the cluster counts for its occasion only. -/
theorem Consulted.counts {occasion : Event} (h : Consulted c occasion deeds trail)
    (hoccasion : occasion ≠ .pingFailure ∧ occasion ≠ .badResponse) :
    misses trail = 0 ∧ times .sniffOnFail trail =
      if occasion = .sniffOnFail then (!trail.isEmpty).toNat else 0 := by
  cases h with
  | silent => simp [misses, times]
  | @asked inquiries =>
    constructor
    · refine misses_eq_zero fun entry hentry ↦ ?_
      rcases List.mem_cons.mp hentry with rfl | hentry
      · exact hoccasion
      · obtain ⟨i, -, rfl⟩ := List.mem_map.mp hentry
        rcases i.event_entry with hevent | hevent <;> simp [hevent]
    · have hrest : times .sniffOnFail (List.map Inquiry.entry inquiries) = 0 := by
        refine times_eq_zero fun entry hentry ↦ ?_
        obtain ⟨i, -, rfl⟩ := List.mem_map.mp hentry
        rcases i.event_entry with hevent | hevent <;> simp [hevent]
      rw [times_cons, hrest, Nat.zero_add]
      rfl

/-- A sniff after a fault is written down where the request remembers it. -/
theorem Fault.counts {learnt : Bool} (h : Fault c p sh deeds learnt p' sh') :
    ∃ asked, p'.trail = p.trail ++ asked ∧ misses asked = 0 ∧
      times .sniffOnFail asked + p.sniffed.toNat = p'.sniffed.toNat ∧ p'.tried = p.tried := by
  obtain ⟨asked, hasked, rfl, honce⟩ := h.consulted
  obtain ⟨hmisses, htimes⟩ := hasked.counts ⟨by decide, by decide⟩
  refine ⟨asked, rfl, hmisses, ?_, rfl⟩
  rw [htimes, if_pos rfl]
  cases hsniffed : p.sniffed with
  | false => simp
  | true => simp [honce hsniffed]

/-! ### Turns -/

/-- What a turn adds to the counts: the stride to a node, the stop there, and the sniff after it. -/
theorem turn_counts {number : Nat × Url} {stop : Stop} {asked : List Deed} {learnt : Bool}
    {q : Progress} {sh₁ : Shared}
    (hstride : (stride w p).Runs sh deeds (some number, w', p') sh')
    (hfault : Fault c (stop.progress p'.trying) (stop.after c.settings sh') asked learnt q sh₁) :
    ∃ added, q.trail = p.trail ++ added ∧ misses added = misses stop.entries ∧
      times .sniffOnFail added + p.sniffed.toNat = q.sniffed.toNat ∧ q.tried = p.tried + 1 := by
  obtain ⟨strode, -, rfl, hstrode, hstrodeMisses⟩ := stride_counts hstride
  obtain ⟨asked, htrail, hmisses, htimes, htried⟩ := hfault.counts
  refine ⟨strode ++ (stop.entries ++ asked), ?_, ?_, ?_, htried⟩
  · simp [htrail, Stop.progress, Progress.trying]
  · simp [hstrodeMisses, hmisses]
  · rw [times_append, times_append, hstrode, stop.times_entries, Nat.zero_add, Nat.zero_add]
    exact htimes

/-! ### Walks -/

/-- A request that has not tried too many nodes does not do so on a walk. -/
theorem Walked.tried_le (h : Walked c w p sh log p' result sh')
    (hp : p.tried ≤ c.limits.maxRetries + 1) : p'.tried ≤ c.limits.maxRetries + 1 := by
  induction h with
  | spent hstride | late _ hstride | exhausted _ hstride =>
    obtain ⟨added, -, rfl, -⟩ := stride_writes hstride
    exact hp
  | ended _ stop _ _ hbudget => exact Nat.succ_le_succ hbudget
  | onward _ stop _ _ hbudget _ _ hfault _ ih | anew _ stop _ _ hbudget _ _ hfault _ ih =>
    obtain ⟨asked, -, rfl, -⟩ := hfault.consulted
    exact ih (Nat.succ_le_succ hbudget)

/-- Another walk is begun at most once, and not after a request has asked the cluster on account of
a fault. -/
theorem Walked.walks_le (h : Walked c w p sh log p' result sh') :
    log.walks + p.sniffed.toNat ≤ 1 := by
  induction h with
  | spent | late | exhausted | ended =>
    rw [Nat.zero_add]
    exact Bool.toNat_le _
  | onward _ stop hstride _ _ _ _ hfault _ ih =>
    obtain ⟨added, -, -, hsniffed, -⟩ := turn_counts hstride hfault
    refine Nat.le_trans (Nat.add_le_add_left ?_ _) ih
    omega
  | anew _ stop hstride _ _ _ _ hfault _ ih =>
    obtain ⟨added, -, rfl, -⟩ := stride_writes hstride
    -- The walk that is begun here is the one that the sniff before it allows for.
    obtain ⟨hfirst, hlast⟩ := hfault.sniffed_of_learnt
    rw [hlast] at ih
    simp only [Stop.progress, Progress.trying] at hfirst
    rw [hfirst]
    exact ih

/-- The trail tells of as many sniffs after faults as the request remembers. -/
theorem Walked.times_sniffOnFail (h : Walked c w p sh log p' result sh') :
    times .sniffOnFail p'.trail + p.sniffed.toNat =
      times .sniffOnFail p.trail + p'.sniffed.toNat := by
  induction h with
  | spent hstride | late _ hstride | exhausted _ hstride =>
    obtain ⟨added, -, rfl, hadded, -⟩ := stride_counts hstride
    rw [times_append, hadded, Nat.add_zero]
  | ended _ stop hstride =>
    obtain ⟨added, -, rfl, hadded, -⟩ := stride_counts hstride
    simp [Stop.progress, Progress.trying, hadded, stop.times_entries]
  | onward _ stop hstride _ _ _ _ hfault _ ih | anew _ stop hstride _ _ _ _ hfault _ ih =>
    obtain ⟨added, htrail, -, hsniffed, -⟩ := turn_counts hstride hfault
    rw [htrail, times_append] at ih
    omega

/-- A request that is given up was counted once for each node that it tried, and each of them is
written down as failed. -/
theorem Walked.misses_add_tried (h : Walked c w p sh log p' result sh')
    (hpings : ∀ stop ∈ log.stops, stop.Pingable) (hgivenUp : ∃ e, result = .error (.givenUp e)) :
    misses p'.trail + p.tried = misses p.trail + p'.tried := by
  induction h with
  | spent hstride | late _ hstride | exhausted _ hstride =>
    obtain ⟨added, -, rfl, -, hadded⟩ := stride_counts hstride
    rw [misses_append, hadded, Nat.add_zero]
  | ended _ stop _ _ _ hstop hresult =>
    -- A request that ends at a stop is answered or cannot be prepared, and so not given up.
    obtain ⟨e, rfl⟩ := hgivenUp
    cases Stop.ended_of_result hstop hresult
  | onward _ stop hstride _ _ hstop hresult hfault _ ih
  | anew _ stop hstride _ _ hstop hresult hfault _ ih =>
    obtain ⟨hping, hrest⟩ := List.forall_mem_cons.mp hpings
    obtain ⟨added, htrail, hmisses, -, htried⟩ := turn_counts hstride hfault
    have hstopped := Stop.misses_entries (Stop.failed_of_no_result hstop hresult) hping
    have hwalk := ih hrest hgivenUp
    rw [htrail, misses_append] at hwalk
    omega

/-- What follows a check that found the time over: nothing is sent. -/
theorem Walked.deadline (h : Walked c w p sh log p' result sh') :
    ∀ check ∈ log.checks, (.read check.1 :: check.2) <:+ log.deeds ∧
      (c.limits.maxRetryTimeout < check.1 - c.began → exchanges check.2 = []) := by
  induction h with
  | spent => simp
  | late | exhausted => simp
  | ended moment stop _ htime =>
    simp only [List.mem_singleton, forall_eq]
    exact ⟨List.suffix_append .., fun hlate ↦ absurd htime (Nat.not_le.mpr hlate)⟩
  | onward moment stop _ htime _ _ _ _ _ ih | anew moment stop _ htime _ _ _ _ _ ih =>
    refine List.forall_mem_cons.mpr ⟨⟨List.suffix_append .., ?_⟩, fun check hcheck ↦ ?_⟩
    · exact fun hlate ↦ absurd htime (Nat.not_le.mpr hlate)
    · obtain ⟨hsuffix, hlate⟩ := ih check hcheck
      exact ⟨hsuffix.trans (suffix_later ..), hlate⟩

/-! ### Journeys -/

/-- The bounds that a request keeps on its journey. -/
structure Bounded (c : Course) (log : Log) (p : Progress) (result : Except Failure Response) :
    Prop where
  /-- The pool is walked at most twice. -/
  walks_le : log.walks ≤ 2
  /-- No more nodes are tried than there are retries, and one. -/
  stops_le : log.stops.length ≤ c.limits.maxRetries + 1
  /-- The cluster is asked at most once on account of a fault. -/
  sniffs_le : times .sniffOnFail p.trail ≤ 1 ∧ times .sniffOnFail (trailOf result) ≤ 1
  /-- Each check of the time is followed by the deeds that are remembered with it, and none of them
  is a message if the check found the time over. -/
  deadline : ∀ check ∈ log.checks, (.read check.1 :: check.2) <:+ log.deeds ∧
    (c.limits.maxRetryTimeout < check.1 - c.began → exchanges check.2 = [])
  /-- A request that set out and was given up has counted the nodes that its trail tells failed. -/
  attempts_eq : (∀ stop ∈ log.stops, stop.Pingable) → ∀ e, result = .error (.givenUp e) →
    e.why ≠ .couldNotSniffOnStartup → e.attempts = misses e.trail

theorem Journey.bounded (h : Journey c sh log p result sh') : Bounded c log p result := by
  cases h with
  | stranded hstart =>
    obtain ⟨added, hadded, hend | ⟨fault, hend⟩⟩ := hstart.consulted
    · cases hend
    · cases hend
      have htimes := (hadded.counts ⟨by decide, by decide⟩).2
      refine ⟨Nat.zero_le _, Nat.zero_le _, ⟨Nat.zero_le _, ?_⟩, by simp, ?_⟩
      · simp [trailOf, Failure.trail, htimes]
      · intro _ e hresult hwhy
        cases hresult
        exact absurd rfl hwhy
  | walked hstart hstale hwalk =>
    obtain ⟨first, hfirst, hbegun | ⟨_, hbegun⟩⟩ := hstart.consulted
    · cases hbegun
      obtain ⟨second, hsecond, rfl⟩ := hstale.consulted
      obtain ⟨hfirstMisses, hfirstTimes⟩ := hfirst.counts ⟨by decide, by decide⟩
      obtain ⟨hsecondMisses, hsecondTimes⟩ := hsecond.counts ⟨by decide, by decide⟩
      have hsniffs : times .sniffOnFail p.trail ≤ 1 := by
        have htimes := hwalk.times_sniffOnFail
        have hlast := Bool.toNat_le p.sniffed
        simp [hfirstTimes, hsecondTimes] at htimes
        omega
      refine ⟨?_, ?_, ⟨hsniffs, ?_⟩, ?_, ?_⟩
      · have hwalks := hwalk.walks_le
        simp only at hwalks ⊢
        omega
      · have htried := hwalk.tried_le (Nat.zero_le _)
        have hstops := hwalk.progress.1
        simp only at hstops ⊢
        omega
      · exact Nat.le_trans hwalk.ending.times_sniffOnFail_le hsniffs
      · intro check hcheck
        obtain ⟨hsuffix, hlate⟩ := hwalk.deadline check hcheck
        exact ⟨hsuffix.trans (List.suffix_append ..), hlate⟩
      · intro hpings e hresult _
        obtain ⟨hattempts, htrail⟩ := hwalk.ending.attempts_eq hresult
        have hmisses := hwalk.misses_add_tried hpings ⟨e, hresult⟩
        simp [hfirstMisses, hsecondMisses] at hmisses
        omega
    · cases hbegun

/-- Whatever is around it, a request that is not bound to one node comes to an end, and in all its
runs it keeps its bounds. -/
theorem bounded_work {s : Settings} {r : Request} (hopen : r.overrides.onlyNode = none)
    (sh : Shared) :
    (∀ around : Surroundings, ∃ deeds result sh',
      (send s r).Runs sh deeds result sh' ∧ around.BringAbout [] deeds) ∧
    ∀ deeds result sh', (send s r).Runs sh deeds result sh' → ∃ began log p,
      deeds = .read began :: log.deeds ∧
      Journey (courseOf s r sh.pool began) sh log p result sh' ∧
      Bounded (courseOf s r sh.pool began) log p result := by
  refine ⟨fun around ↦ Program.exists_runs around (send s r) [] sh, ?_⟩
  intro deeds result sh' h
  obtain ⟨began, log, p, rfl, hjourney⟩ := send_runs hopen h
  exact ⟨began, log, p, rfl, hjourney, hjourney.bounded⟩

end Spelled

theorem bounded_work_of_two : ∃ began log p,
    (send trusting plainRequest).deeds .ofAnswers badGateway = .read began :: log.deeds ∧
      Journey (courseOf trusting plainRequest badGateway.shared.pool began) badGateway.shared log p
        (.ok responseOfSecond) ((send trusting plainRequest).run .ofAnswers badGateway).2.shared ∧
      Bounded (courseOf trusting plainRequest badGateway.shared.pool began) log p
        (.ok responseOfSecond) :=
  (bounded_work rfl badGateway.shared).2 _ _ _ runs_badGateway

end SearchClient.Send

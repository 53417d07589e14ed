import SearchClient.Proofs.Cluster.Visiting

/-!
# Journeys of requests

A request that is not bound to one node walks the pool, perhaps after asking the cluster, until a
node answers or a limit is reached. `Walked` and `Journey` tell all that can happen on its way, the
first from some point of a walk on. They speak of no bound on the number of walks or turns: a walk
goes on as long as there are nodes, and begins anew whenever a sniff replaced the pool. A `Log`
keeps what was met with. `Direct` tells what can happen to a request that is bound to one node.

`send_runs` shows that every run of `send` is a journey. The bounds that `walk` and `walks` recurse
on are therefore never what ends a request. `Walked.progress` and `Walked.ending` say what a request
knows in the end and how it ends, and `sound_of_send` that it leaves a sound pool sound.
-/

set_option autoImplicit false
set_option relaxedAutoImplicit false

namespace SearchClient

namespace Send

open Program

/-- What stays the same while a request is under way that sets out at a moment. -/
def courseOf (s : Settings) (r : Request) (pool : Pool) (began : Nat) : Course :=
  { settings := s, request := r, payload := r.body.map (·.payload s.compression)
    limits := limits s pool r.overrides, began := began }

/-- The progress of a request that is about to try a node. -/
def Progress.trying (p : Progress) : Progress := { p with tried := p.tried + 1 }

/-- What is remembered of a journey. -/
structure Log where
  /-- The nodes that were tried. -/
  stops : List Stop := []
  /-- The moments at which the time was checked, each with the deeds that came after it. -/
  checks : List (Nat × List Deed) := []
  /-- How many walks were begun. -/
  walks : Nat := 0
  deeds : List Deed := []

/-- The time was not over at any check. -/
def Log.InTime (c : Course) (log : Log) : Prop :=
  ∀ check ∈ log.checks, check.1 - c.began ≤ c.limits.maxRetryTimeout

variable {c : Course} {w w' : Walk} {p p' : Progress} {sh sh' : Shared} {deeds : List Deed}
  {log : Log} {result : Except Failure Response}

/-! ### Strides -/

/-- A stride is one look at the clock and what the walk then does. -/
theorem stride_runs {found : Option (Nat × Url)}
    (h : (stride w p).Runs sh deeds (found, w', p') sh') :
    ∃ looked onward, w.Onward sh.pool looked onward ∧ deeds = [.read looked] ∧
      found = onward.node.bind
        (fun number ↦ (sh.pool.node? number).map fun node ↦ (number, node.url)) ∧
      w' = onward.walk ∧ p' = { p with trail := p.trail ++ onward.entries } ∧
      sh' = { sh with pool := onward.pool } := by
  rw [stride, runs_now_bind] at h
  obtain ⟨looked, rest, rfl, h⟩ := h
  simp only [runs_look_bind, runs_change_bind, runs_pure, Prod.mk.injEq] at h
  obtain ⟨rfl, ⟨rfl, rfl, rfl⟩, rfl⟩ := h
  exact ⟨looked, _, w.onward_next sh.pool looked, rfl, rfl, rfl, rfl, rfl⟩

/-- A stride sends nothing, and only writes down that nodes get another chance. -/
theorem stride_writes {found : Option (Nat × Url)}
    (h : (stride w p).Runs sh deeds (found, w', p') sh') :
    ∃ added, exchanges deeds = [] ∧ p' = { p with trail := p.trail ++ added } ∧
      ∀ entry ∈ added, entry.event = .resurrection ∨ entry.event = .allNodesDead := by
  obtain ⟨looked, onward, honward, rfl, -, -, rfl, -⟩ := stride_runs h
  refine ⟨onward.entries, rfl, rfl, ?_⟩
  cases honward with
  | taken | spent | nobody => simp
  | revived | longestDead => simp [Pool.revival]

/-- A walk that came to a node has fewer turns left, and is no longer fresh. -/
theorem turnsLeft_of_stride {found : Nat × Url} (hfresh : w.Fresh)
    (h : (stride w p).Runs sh deeds (some found, w', p') sh') :
    w'.turnsLeft + 1 ≤ w.turnsLeft ∧ w'.Fresh := by
  obtain ⟨looked, onward, honward, -, hfound, rfl, -, -⟩ := stride_runs h
  cases honward with
  | taken hrest | revived hrest => exact ⟨by simp [Walk.turnsLeft, hrest], Walk.fresh_of_begun rfl⟩
  | spent => simp at hfound
  | nobody => simp at hfound
  | longestDead _ hbegun hlongest =>
    have hall := List.length_pos_of_mem (Pool.longestDead_mem hlongest)
    have hrest := (hfresh hbegun).length_eq
    refine ⟨?_, Walk.fresh_of_begun rfl⟩
    simp only [Walk.turnsLeft, List.length_nil]
    omega

/-! ### Ends -/

/-- The reasons for which a request that set out is given up, with the events that tell of them. -/
def closings : List (Surrender × Event) :=
  [(.maxTimeoutReached, .maxTimeoutReached), (.maxRetriesReached, .maxRetriesReached),
    (.failedOverAllNodes, .failedOverAllNodes), (.noNodesAttempted, .noNodesAttempted)]

/-- How a request ends that set out: all nodes it tried failed, and it is given up, or all but the
last failed, and it ends there. -/
inductive Ending (c : Course) (log : Log) (p' : Progress) : Except Failure Response → Prop
  | surrendered {why : Surrender} {event : Event} (hclosing : (why, event) ∈ closings)
      (hfailed : ∀ stop ∈ log.stops, stop.Failed) : Ending c log p' (p'.surrender why event)
  | stopped {earlier : List Stop} {last : Stop} {p : Progress} {result : Except Failure Response}
      (hstops : log.stops = earlier ++ [last]) (hfailed : ∀ stop ∈ earlier, stop.Failed)
      (hended : last.Ended c p result) (hp' : p' = last.progress p)
      (hdeeds : last.deeds <:+ log.deeds) : Ending c log p' result

theorem runOut_eq_surrender (c : Course) (p : Progress) :
    ∃ why event, (why, event) ∈ closings ∧ runOut c p = p.surrender why event := by
  unfold runOut
  split_ifs
  · exact ⟨_, _, by simp [closings], rfl⟩
  · exact ⟨_, _, by simp [closings], rfl⟩
  · exact ⟨_, _, by simp [closings], rfl⟩

/-- The deeds after a turn are the last ones. -/
theorem suffix_later (before turn later : List Deed) (moment : Nat) :
    later <:+ before ++ .read moment :: (turn ++ later) :=
  ((List.suffix_append ..).trans (List.suffix_cons ..)).trans (List.suffix_append ..)

/-- A failed stop in front leaves the end as it is. -/
theorem Ending.cons {stop : Stop} {log log' : Log} (hstop : stop.Failed)
    (hstops : log'.stops = stop :: log.stops) (hdeeds : log.deeds <:+ log'.deeds)
    (h : Ending c log p' result) : Ending c log' p' result := by
  cases h with
  | surrendered hclosing hfailed =>
    refine .surrendered hclosing ?_
    rw [hstops]
    exact List.forall_mem_cons.mpr ⟨hstop, hfailed⟩
  | stopped hearlier hfailed hended hp' hlast =>
    refine .stopped ?_ (List.forall_mem_cons.mpr ⟨hstop, hfailed⟩) hended hp' (hlast.trans hdeeds)
    rw [hstops, hearlier, List.cons_append]

/-! ### What lasts -/

/-- What holds of a pool still holds after all that a request can do to it. -/
structure Lasting (P : Pool → Prop) : Prop where
  news : LastsThroughNews P
  changeHealth : ∀ pool number change, P pool → P (pool.changeHealth number change)
  walk : ∀ pool, P pool → P pool.walk.2

theorem lasting_sound : Lasting Pool.Sound :=
  ⟨fun _ nodes _ hsound ↦ hsound.reseed nodes, fun _ _ _ hsound ↦ hsound.changeHealth,
    fun _ hsound ↦ hsound.walk⟩

theorem lasting_populated : Lasting Pool.Populated :=
  ⟨fun _ nodes _ hpool ↦ hpool.reseed nodes, fun _ _ _ hpool ↦ hpool.changeHealth,
    fun _ hpool ↦ hpool.walk⟩

theorem Lasting.stride {P : Pool → Prop} {found : Option (Nat × Url)} (hP : Lasting P)
    (h : (Send.stride w p).Runs sh deeds (found, w', p') sh') (hpool : P sh.pool) : P sh'.pool := by
  obtain ⟨_, onward, honward, -, -, -, -, rfl⟩ := stride_runs h
  cases honward with
  | taken | spent | nobody => exact hpool
  | revived | longestDead => exact hP.changeHealth _ _ _ hpool

section Spelled

variable [Url.Domain.Spelling]

/-! ### Walks and journeys -/

/-- All that can happen to a request from some point of its walk on. -/
inductive Walked (c : Course) :
    Walk → Progress → Shared → Log → Progress → Except Failure Response → Shared → Prop
  | spent {w w' : Walk} {p p' : Progress} {sh sh' : Shared} {deeds : List Deed}
      (hstride : (stride w p).Runs sh deeds (none, w', p') sh') :
      Walked c w p sh { deeds := deeds } p' (runOut c p') sh'
  | late {w w' : Walk} {p p' : Progress} {sh sh' : Shared} {deeds : List Deed} {found : Nat × Url}
      (moment : Nat) (hstride : (stride w p).Runs sh deeds (some found, w', p') sh')
      (hlate : c.limits.maxRetryTimeout < moment - c.began) :
      Walked c w p sh { checks := [(moment, [])], deeds := deeds ++ [.read moment] } p'
        (p'.surrender .maxTimeoutReached .maxTimeoutReached) sh'
  | exhausted {w w' : Walk} {p p' : Progress} {sh sh' : Shared} {deeds : List Deed}
      {found : Nat × Url} (moment : Nat)
      (hstride : (stride w p).Runs sh deeds (some found, w', p') sh')
      (htime : moment - c.began ≤ c.limits.maxRetryTimeout)
      (hbudget : c.limits.maxRetries < p'.tried) :
      Walked c w p sh { checks := [(moment, [])], deeds := deeds ++ [.read moment] } p'
        (p'.surrender .maxRetriesReached .maxRetriesReached) sh'
  | ended {w w' : Walk} {p p' : Progress} {sh sh' : Shared} {deeds : List Deed}
      {result : Except Failure Response} (moment : Nat) (stop : Stop)
      (hstride : (stride w p).Runs sh deeds (some (stop.number, stop.node), w', p') sh')
      (htime : moment - c.began ≤ c.limits.maxRetryTimeout)
      (hbudget : p'.tried ≤ c.limits.maxRetries) (hstop : stop.Holds c sh'.pool)
      (hresult : stop.result? c p'.trying = some result) :
      Walked c w p sh
        { stops := [stop], checks := [(moment, stop.deeds)]
          deeds := deeds ++ .read moment :: stop.deeds }
        (stop.progress p'.trying) result (stop.after c.settings sh')
  | onward {w w' : Walk} {p p' q q' : Progress} {sh sh' sh₁ sh₂ : Shared} {deeds asked : List Deed}
      {log : Log} {result : Except Failure Response} (moment : Nat) (stop : Stop)
      (hstride : (stride w p).Runs sh deeds (some (stop.number, stop.node), w', p') sh')
      (htime : moment - c.began ≤ c.limits.maxRetryTimeout)
      (hbudget : p'.tried ≤ c.limits.maxRetries) (hstop : stop.Holds c sh'.pool)
      (hresult : stop.result? c p'.trying = none)
      (hfault : Fault c (stop.progress p'.trying) (stop.after c.settings sh') asked false q sh₁)
      (hrest : Walked c w' q sh₁ log q' result sh₂) :
      Walked c w p sh
        { stops := stop :: log.stops
          checks := (moment, stop.deeds ++ asked ++ log.deeds) :: log.checks, walks := log.walks
          deeds := deeds ++ .read moment :: (stop.deeds ++ asked ++ log.deeds) } q' result sh₂
  | anew {w w' : Walk} {p p' q q' : Progress} {sh sh' sh₁ sh₂ : Shared} {deeds asked : List Deed}
      {log : Log} {result : Except Failure Response} (moment : Nat) (stop : Stop)
      (hstride : (stride w p).Runs sh deeds (some (stop.number, stop.node), w', p') sh')
      (htime : moment - c.began ≤ c.limits.maxRetryTimeout)
      (hbudget : p'.tried ≤ c.limits.maxRetries) (hstop : stop.Holds c sh'.pool)
      (hresult : stop.result? c p'.trying = none)
      (hfault : Fault c (stop.progress p'.trying) (stop.after c.settings sh') asked true q sh₁)
      (hrest : Walked c sh₁.pool.walk.1 q { sh₁ with pool := sh₁.pool.walk.2 } log q' result sh₂) :
      Walked c w p sh
        { stops := stop :: log.stops
          checks := (moment, stop.deeds ++ asked ++ log.deeds) :: log.checks, walks := log.walks + 1
          deeds := deeds ++ .read moment :: (stop.deeds ++ asked ++ log.deeds) } q' result sh₂

/-- All that can happen to a request that is not bound to one node. -/
inductive Journey (c : Course) (sh : Shared) :
    Log → Progress → Except Failure Response → Shared → Prop
  | stranded {deeds : List Deed} {failure : Failure} {sh' : Shared}
      (hstart : Startup c {} sh deeds (.error failure) sh') :
      Journey c sh { deeds := deeds } {} (.error failure) sh'
  | walked {first second : List Deed} {p p' q : Progress} {sh₁ sh₂ sh₃ : Shared} {log : Log}
      {result : Except Failure Response} (hstart : Startup c {} sh first (.ok p) sh₁)
      (hstale : Stale c p sh₁ second p' sh₂)
      (hwalk : Walked c sh₂.pool.walk.1 p' { sh₂ with pool := sh₂.pool.walk.2 } log q result sh₃) :
      Journey c sh { log with walks := log.walks + 1, deeds := first ++ second ++ log.deeds } q
        result sh₃

/-! ### Runs are journeys -/

/-- A walk runs as it is told, given as many turns as it has left and given that another walk, which
only follows the one sniff of a request, does so too. -/
theorem walk_runs {another : Progress → Program (Except Failure Response)} {turns : Nat}
    (hanother : p.sniffed = false → ∀ {q : Progress} {sh sh' : Shared} {deeds : List Deed},
      q.sniffed = true → (another q).Runs sh deeds result sh' → ∃ log q', log.deeds = deeds ∧
        Walked c sh.pool.walk.1 q { sh with pool := sh.pool.walk.2 } log q' result sh')
    (hfresh : w.Fresh) (hturns : w.turnsLeft ≤ turns)
    (h : (walk c another turns w p).Runs sh deeds result sh') :
    ∃ log q, log.deeds = deeds ∧ Walked c w p sh log q result sh' := by
  induction turns generalizing w p sh deeds with
  | zero => simp [Walk.turnsLeft] at hturns
  | succ turns ih =>
    rw [walk, runs_bind] at h
    obtain ⟨before, ⟨found, w₁, p₁⟩, sh₁, rest, rfl, hstride, h⟩ := h
    have hkept : p₁.sniffed = p.sniffed := by
      obtain ⟨_, _, _, _, _, _, rfl, _⟩ := stride_runs hstride
      rfl
    cases found with
    | none =>
      simp only [runs_pure] at h
      obtain ⟨rfl, rfl, rfl⟩ := h
      exact ⟨_, p₁, (List.append_nil _).symm, .spent hstride⟩
    | some found =>
      -- A stride to a node takes at least one of the turns that the walk has left.
      obtain ⟨hleft, hfresh₁⟩ := turnsLeft_of_stride hfresh hstride
      simp only [runs_now_bind] at h
      obtain ⟨moment, rest, rfl, h⟩ := h
      split_ifs at h with hlate hbudget
      · rw [runs_pure] at h
        obtain ⟨rfl, rfl, rfl⟩ := h
        exact ⟨_, p₁, rfl, .late moment hstride hlate⟩
      · rw [runs_pure] at h
        obtain ⟨rfl, rfl, rfl⟩ := h
        exact ⟨_, p₁, rfl, .exhausted moment hstride (Nat.not_lt.mp hlate) hbudget⟩
      · rw [Nat.not_lt] at hlate hbudget
        rw [runs_bind] at h
        obtain ⟨visited, v, sh₂, rest, rfl, hvisit, h⟩ := h
        obtain ⟨stop, hnumber, hnode, hstop, rfl, hv, rfl⟩ := visit_runs hvisit
        have hfound : found = (stop.number, stop.node) := by rw [hnumber, hnode]
        rw [hfound] at hstride
        change v = stop.outcome c p₁.trying at hv
        cases hresult : stop.result? c p₁.trying with
        | some ended =>
          rw [Stop.outcome_of_result hresult] at hv
          subst hv
          rw [runs_pure] at h
          obtain ⟨rfl, rfl, rfl⟩ := h
          exact ⟨_, _, by simp, .ended moment stop hstride hlate hbudget hstop hresult⟩
        | none =>
          rw [Stop.outcome_of_no_result hresult] at hv
          subst hv
          simp only [runs_bind] at h
          obtain ⟨asked, ⟨learnt, p₂⟩, sh₂, rest, rfl, hsniff, h⟩ := h
          have hfault := sniffOnFault_runs hsniff
          cases learnt with
          | true =>
            obtain ⟨hfirst, hlast⟩ := hfault.sniffed_of_learnt
            obtain ⟨log, q, rfl, hrest⟩ := hanother (hkept ▸ hfirst) hlast h
            exact ⟨_, q, by simp,
              .anew moment stop hstride hlate hbudget hstop hresult hfault hrest⟩
          | false =>
            have hsniffed : p₂.sniffed = false → p.sniffed = false := fun hp₂ ↦
              hkept ▸ hfault.sniffed_mono hp₂
            obtain ⟨log, q, rfl, hrest⟩ :=
              ih (fun hp₂ ↦ hanother (hsniffed hp₂)) hfresh₁ (by omega) h
            exact ⟨_, q, by simp,
              .onward moment stop hstride hlate hbudget hstop hresult hfault hrest⟩

/-- Walks run as they are told: one is enough for a request that has asked the cluster after a
fault, and two for any other. -/
theorem walks_runs {more : Nat} (hmore : p.sniffed = false → 1 ≤ more)
    (h : (walks c (more + 1) p).Runs sh deeds result sh') : ∃ log q, log.deeds = deeds ∧
      Walked c sh.pool.walk.1 p { sh with pool := sh.pool.walk.2 } log q result sh' := by
  induction more generalizing p sh sh' deeds with
  | zero =>
    rw [walks, runs_look_bind] at h
    refine walk_runs (fun hp ↦ ?_) sh.pool.fresh_walk (Nat.le_refl _) (runs_change_bind.mp h)
    exact absurd (hmore hp) (by omega)
  | succ more ih =>
    rw [walks, runs_look_bind] at h
    refine walk_runs (fun _ q sh₁ sh₂ deeds hq hrun ↦ ?_) sh.pool.fresh_walk (Nat.le_refl _)
      (runs_change_bind.mp h)
    -- The sniff that begins a second walk is the last of its request, so there is no third.
    refine ih (fun hnot ↦ ?_) hrun
    rw [hq] at hnot
    cases hnot

/-- A request that is not bound to one node looks at the clock and makes a journey. -/
theorem send_runs {s : Settings} {r : Request} (hopen : r.overrides.onlyNode = none)
    (h : (send s r).Runs sh deeds result sh') :
    ∃ began log p, deeds = .read began :: log.deeds ∧
      Journey (courseOf s r sh.pool began) sh log p result sh' := by
  rw [send, runs_now_bind] at h
  obtain ⟨began, rest, rfl, h⟩ := h
  simp only [runs_look_bind, hopen] at h
  rw [runs_bind] at h
  obtain ⟨first, begun, sh₁, rest, rfl, hstart, h⟩ := h
  have hstart := sniffOnStartup_runs hstart
  cases begun with
  | error failure =>
    simp only [runs_pure] at h
    obtain ⟨rfl, rfl, rfl⟩ := h
    exact ⟨began, _, _, by simp, .stranded hstart⟩
  | ok p =>
    simp only [runs_bind] at h
    obtain ⟨second, p', sh₂, rest, rfl, hstale, h⟩ := h
    obtain ⟨log, q, rfl, hwalk⟩ := walks_runs (fun _ ↦ (Nat.le_refl _)) h
    exact ⟨began, _, q, by simp, .walked hstart (sniffIfStale_runs hstale) hwalk⟩

/-! ### Requests to one node -/

/-- All that can happen to a request that is bound to one node. -/
inductive Direct (c : Course) (node : Url) : List Deed → Except Failure Response → Prop
  | unsendable {what : Unsendable} (hwhat : messageTo c node = .error what) :
      Direct c node [] (.error (.config (.unsendable what)))
  | broken {message : Message} {fault : LinkFault} (hmessage : messageTo c node = .ok message) :
      Direct c node [.exchange message (.error fault)] (.error (.givenUp
        { why := .badResponse, attempts := 1, lastFault := some fault
          trail := [faultEntry .badResponse node fault] }))
  | answered {message : Message} {reply : Reply} {url : Url}
      (hmessage : messageTo c node = .ok message)
      (hurl : Message.place node c.request.path = .ok url) :
      Direct c node [.exchange message (.ok reply)] (.ok
        { method := c.request.method, url := url, status := reply.status, headers := reply.headers
          body := reply.body
          trail := [statusEntry
            (if isSuccess reply.status then .healthyResponse
              else if isRetryable reply.status then .badResponse else .badRequest)
            node reply.status] })

/-- A request that is bound to one node goes there at most once, and changes nothing. -/
theorem send_runs_only {s : Settings} {r : Request} {node : Url}
    (honly : r.overrides.onlyNode = some node) (h : (send s r).Runs sh deeds result sh') :
    ∃ began rest, deeds = .read began :: rest ∧
      Direct (courseOf s r sh.pool began) node rest result ∧ sh' = sh := by
  rw [send, runs_now_bind] at h
  obtain ⟨began, rest, rfl, h⟩ := h
  simp only [runs_look_bind, honly] at h
  refine ⟨began, rest, rfl, ?_⟩
  change (sendOnly (courseOf s r sh.pool began) node).Runs sh rest result sh' at h
  unfold sendOnly at h
  cases hmessage : messageTo (courseOf s r sh.pool began) node with
  | error what =>
    simp only [hmessage, runs_pure] at h
    obtain ⟨rfl, rfl, rfl⟩ := h
    exact ⟨.unsendable hmessage, rfl⟩
  | ok message =>
    simp only [hmessage, runs_call_bind] at h
    obtain ⟨answer, rest, rfl, h⟩ := h
    cases answer with
    | error fault =>
      simp only [runs_pure] at h
      obtain ⟨rfl, rfl, rfl⟩ := h
      exact ⟨.broken hmessage, rfl⟩
    | ok reply =>
      obtain ⟨url, hurl⟩ := place_of_messageTo hmessage
      simp only [runs_pure, respond, hurl] at h
      obtain ⟨rfl, rfl, rfl⟩ := h
      exact ⟨.answered hmessage hurl, rfl⟩

/-! ### Progress -/

/-- What a request knows at the end of a walk is what its stops have brought about. -/
theorem Walked.progress (h : Walked c w p sh log p' result sh') :
    p'.tried = p.tried + log.stops.length ∧
      p'.lastStatus = latest Stop.status? log.stops p.lastStatus ∧
      p'.lastFault = latest Stop.fault? log.stops p.lastFault := by
  induction h with
  | spent hstride | late _ hstride | exhausted _ hstride =>
    obtain ⟨added, -, rfl, -⟩ := stride_writes hstride
    exact ⟨rfl, rfl, rfl⟩
  | ended _ stop hstride =>
    obtain ⟨added, -, rfl, -⟩ := stride_writes hstride
    rw [latest_cons, latest_cons]
    exact ⟨rfl, rfl, rfl⟩
  | onward _ stop hstride _ _ _ _ hfault _ ih | anew _ stop hstride _ _ _ _ hfault _ ih =>
    obtain ⟨added, -, rfl, -⟩ := stride_writes hstride
    obtain ⟨asked, -, rfl, -⟩ := hfault.consulted
    obtain ⟨htried, hstatus, hlast⟩ := ih
    refine ⟨?_, ?_, ?_⟩
    · rw [htried, List.length_cons]
      simp only [Stop.progress, Progress.trying]
      omega
    · rw [hstatus, latest_cons]
      rfl
    · rw [hlast, latest_cons]
      rfl

/-! ### Where a walk leads -/

theorem Walked.ending (h : Walked c w p sh log p' result sh') : Ending c log p' result := by
  induction h with
  | @spent _ _ _ p' =>
    obtain ⟨why, event, hclosing, hend⟩ := runOut_eq_surrender c p'
    rw [hend]
    exact .surrendered hclosing (by simp)
  | late | exhausted => exact .surrendered (by simp [closings]) (by simp)
  | @ended _ _ _ _ _ _ deeds _ moment stop _ _ _ hstop hresult =>
    refine .stopped (List.nil_append _).symm (by simp) (Stop.ended_of_result hstop hresult) rfl ?_
    exact ⟨deeds ++ [.read moment], by simp⟩
  | onward _ stop _ _ _ hstop hresult _ _ ih | anew _ stop _ _ _ hstop hresult _ _ ih =>
    exact ih.cons (Stop.failed_of_no_result hstop hresult) rfl (suffix_later ..)

theorem Walked.holds (h : Walked c w p sh log p' result sh') :
    ∀ stop ∈ log.stops, ∃ pool, stop.Holds c pool := by
  induction h with
  | spent | late | exhausted => simp
  | ended _ stop _ _ _ hstop => simpa using ⟨_, hstop⟩
  | onward _ stop _ _ _ hstop _ _ _ ih | anew _ stop _ _ _ hstop _ _ _ ih =>
    exact List.forall_mem_cons.mpr ⟨⟨_, hstop⟩, ih⟩

/-- The deeds of a stop stand together among those of its walk. -/
theorem Walked.deeds_infix (h : Walked c w p sh log p' result sh') :
    ∀ stop ∈ log.stops, stop.deeds <:+: log.deeds := by
  induction h with
  | spent | late | exhausted => simp
  | @ended _ _ _ _ _ _ deeds _ moment stop =>
    simp only [List.mem_singleton, forall_eq]
    exact ⟨deeds ++ [.read moment], [], by simp⟩
  | @onward _ _ _ _ _ _ _ _ _ _ deeds asked log _ moment stop _ _ _ _ _ _ _ ih
  | @anew _ _ _ _ _ _ _ _ _ _ deeds asked log _ moment stop _ _ _ _ _ _ _ ih =>
    refine List.forall_mem_cons.mpr ⟨?_, fun other hother ↦ ?_⟩
    · exact ⟨deeds ++ [.read moment], asked ++ log.deeds, by simp⟩
    · exact (ih other hother).trans (suffix_later ..).isInfix

/-! ### What requests leave of the pool -/

namespace Lasting

variable {P : Pool → Prop}

theorem walked (hP : Lasting P) (h : Walked c w p sh log p' result sh') (hpool : P sh.pool) :
    P sh'.pool := by
  induction h with
  | spent hstride | late _ hstride | exhausted _ hstride => exact hP.stride hstride hpool
  | ended _ _ hstride => exact hP.changeHealth _ _ _ (hP.stride hstride hpool)
  | onward _ _ hstride _ _ _ _ hfault _ ih =>
    exact ih (hfault.lasts hP.news (hP.changeHealth _ _ _ (hP.stride hstride hpool)))
  | anew _ _ hstride _ _ _ _ hfault _ ih =>
    exact ih (hP.walk _ (hfault.lasts hP.news (hP.changeHealth _ _ _ (hP.stride hstride hpool))))

theorem journey (hP : Lasting P) (h : Journey c sh log p result sh') (hpool : P sh.pool) :
    P sh'.pool := by
  cases h with
  | stranded hstart => exact hstart.lasts hP.news hpool
  | walked hstart hstale hwalk =>
    have hasked := hstale.lasts hP.news (hstart.lasts hP.news hpool)
    exact hP.walked hwalk (hP.walk _ hasked)

theorem send {s : Settings} {r : Request} (hP : Lasting P)
    (h : (SearchClient.send s r).Runs sh deeds result sh') (hpool : P sh.pool) : P sh'.pool := by
  cases honly : r.overrides.onlyNode with
  | some node =>
    obtain ⟨_, _, -, -, rfl⟩ := send_runs_only honly h
    exact hpool
  | none =>
    obtain ⟨_, _, _, -, hjourney⟩ := send_runs honly h
    exact hP.journey hjourney hpool

end Lasting

/-- A request leaves a sound pool sound, whatever is sniffed on the way. Pools are made sound, so
all that a client ever has are. -/
theorem sound_of_send {s : Settings} {r : Request}
    (h : (SearchClient.send s r).Runs sh deeds result sh') (hsound : sh.pool.Sound) :
    sh'.pool.Sound :=
  lasting_sound.send h hsound

/-- A request leaves nodes in a pool that had some. Pools are made with nodes in them, so all that a
client ever has have some. -/
theorem populated_of_send {s : Settings} {r : Request}
    (h : (SearchClient.send s r).Runs sh deeds result sh') (hpool : sh.pool.Populated) :
    sh'.pool.Populated :=
  lasting_populated.send h hpool

end Spelled

/-! ### Two nodes -/

/-- The locator of a node that has a name. -/
def nodeAt (name : String) : Url :=
  { scheme := "http", authority := some { host := .name name, port := some 9200 }
    path := .segments [""] }

example : Url.parse "http://a:9200" = .ok (nodeAt "a") := rfl

/-- A request for whatever a node has at its locator. -/
def plainRequest : Request := { method := .get, path := .values [] }

/-- A request for whatever one node has at its locator. -/
def boundTo (node : Url) : Request := { plainRequest with overrides := { onlyNode := some node } }

/-- Settings of a client that never pings. -/
def trusting : Settings := { disablePings := true }

/-- Two nodes, the first of which cannot reach what it stands for, while the second answers. -/
def badGateway : World (List (Except LinkFault Reply)) :=
  .start [.ok { status := 502, body := [] }, .ok { status := 200, body := [] }]
    { kind := .fixed, register := [{ url := nodeAt "a" }, { url := nodeAt "b" }]
      ring := [0, 1] }

/-- The response of the second of two nodes. -/
def responseOfSecond : Response :=
  { method := .get, url := nodeAt "b", status := 200, headers := [], body := []
    trail := [statusEntry .badResponse (nodeAt "a") 502,
      statusEntry .healthyResponse (nodeAt "b") 200] }

/-- A request moves on from the first of two nodes to the second. -/
theorem runs_badGateway : (send trusting plainRequest).Runs badGateway.shared
    ((send trusting plainRequest).deeds .ofAnswers badGateway) (.ok responseOfSecond)
    ((send trusting plainRequest).run .ofAnswers badGateway).2.shared :=
  runs_run .ofAnswers (send trusting plainRequest) badGateway

end Send

end SearchClient

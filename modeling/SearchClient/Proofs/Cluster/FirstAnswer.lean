import SearchClient.Proofs.Cluster.Journey

/-!
# The first usable answer

A request that is not bound to one node is answered by the first node that gives a usable answer:
one whose status does not tell that a gateway failed. Nothing is sent after that answer. A request
that no node answered so is given up with the status of the latest answer to it and the fault of the
latest ping or of the latest message of its own that was not answered.

What the cluster answers when it is asked for its nodes plays no part in this, and neither does the
status of the answer to a ping. A request can therefore meet with a fault of the link and be given
up without one.
-/

set_option autoImplicit false
set_option relaxedAutoImplicit false

namespace SearchClient.Send

variable {c : Course} {sh sh' : Shared} {log : Log} {p : Progress} {deeds : List Deed}
  {result : Except Failure Response} {stop : Stop}

/-- A request ends with a response exactly where its node gave a usable answer. -/
theorem Stop.Ended.ok_iff (h : stop.Ended c p result) :
    (∃ response, result = .ok response) ↔ stop.Usable := by
  cases h with
  | unsendable hmeeting => simp [Stop.Usable, Stop.reply?, hmeeting, Attempt.reply?]
  | answered hmeeting hmessage husable =>
    exact ⟨fun _ ↦ ⟨_, by simp [Stop.reply?, hmeeting, Attempt.reply?], husable⟩, fun _ ↦ ⟨_, rfl⟩⟩

/-- A response is the answer of the last of the nodes that were tried, the only one to give a usable
answer, and that answer is the last thing that happened and the last that was written down. -/
def AnsweredByLast (c : Course) (log : Log) (deeds : List Deed) (response : Response) : Prop :=
  ∃ earlier last message reply, log.stops = earlier ++ [last] ∧
    (∀ stop ∈ earlier, ¬ stop.Usable) ∧ last.reply? = some reply ∧
    isRetryable reply.status = false ∧ messageTo c last.node = .ok message ∧
    deeds.getLast? = some (.exchange message (.ok reply)) ∧
    response.status = reply.status ∧ response.headers = reply.headers ∧
    response.body = reply.body ∧
    response.trail.getLast? = some (statusEntry
      (if isSuccess reply.status then .healthyResponse else .badRequest) last.node reply.status)

/-- What the stops of a request make of its result. -/
structure FirstAnswerWins (c : Course) (log : Log) (deeds : List Deed)
    (result : Except Failure Response) : Prop where
  /-- There is a response exactly if one of the nodes gave a usable answer. -/
  ok_iff : (∃ response, result = .ok response) ↔ ∃ stop ∈ log.stops, stop.Usable
  /-- The response is that usable answer. -/
  response : ∀ response, result = .ok response → AnsweredByLast c log deeds response
  /-- Without a response, the request could not be prepared for a node, or could not ask the cluster
  before it set out, or is given up with what its stops have brought about. -/
  failure : ∀ failure, result = .error failure →
    (∃ stop ∈ log.stops, ∃ what, messageTo c stop.node = .error what ∧
      failure = .config (.unsendable what)) ∨
    ∃ e, failure = .givenUp e ∧ ((log.stops = [] ∧ e.why = .couldNotSniffOnStartup) ∨
      (e.lastStatus = latest Stop.status? log.stops none ∧
        e.lastFault = latest Stop.fault? log.stops none))

/-- A walk that ends with a response ends at its last stop. -/
theorem Ending.response {response : Response} (h : Ending c log p result)
    (hresult : result = .ok response) : AnsweredByLast c log log.deeds response := by
  cases h with
  | surrendered => cases hresult
  | @stopped earlier last _ _ hstops hfailed hended hp hdeeds =>
    cases hended with
    | unsendable => cases hresult
    | @answered greeting message reply url hmeeting hmessage husable hurl =>
      cases hresult
      refine ⟨earlier, last, message, reply, hstops, fun stop hstop ↦ (hfailed stop hstop).2,
        ?_, husable, hmessage, ?_, rfl, rfl, rfl, ?_⟩
      · simp [Stop.reply?, hmeeting, Attempt.reply?]
      · obtain ⟨before, hbefore⟩ := hdeeds
        simp [← hbefore, Stop.deeds, hmeeting, Attempt.deeds]
      · simp [Stop.progress, Stop.entries, hmeeting, Attempt.entries]

/-- A walk that ends without a response ends where the request cannot be prepared, or is given
up. -/
theorem Ending.failure {failure : Failure} (h : Ending c log p result)
    (hresult : result = .error failure) :
    (∃ stop ∈ log.stops, ∃ what, messageTo c stop.node = .error what ∧
      failure = .config (.unsendable what)) ∨
    ∃ e, failure = .givenUp e ∧ e.lastStatus = p.lastStatus ∧ e.lastFault = p.lastFault := by
  cases h with
  | surrendered =>
    cases hresult
    exact .inr ⟨_, rfl, rfl, rfl⟩
  | @stopped earlier last _ _ hstops _ hended =>
    cases hended with
    | answered => cases hresult
    | unsendable hmeeting hwhat =>
      cases hresult
      exact .inl ⟨last, by simp [hstops], _, hwhat, rfl⟩

/-- A request that is bound to one node takes any answer for its response. -/
theorem Direct.ok_of_answer {node : Url} {message : Message} {reply : Reply}
    (h : Direct c node deeds result) (hmem : (message, .ok reply) ∈ exchanges deeds) :
    ∃ response, result = .ok response ∧ response.status = reply.status ∧
      response.headers = reply.headers ∧ response.body = reply.body := by
  cases h with
  | unsendable => cases hmem
  | broken => simp at hmem
  | answered =>
    simp only [exchanges_exchange, exchanges_nil, List.mem_singleton, Prod.mk.injEq,
      Except.ok.injEq] at hmem
    obtain ⟨-, rfl⟩ := hmem
    exact ⟨_, rfl, rfl, rfl, rfl⟩

section Spelled

variable [Url.Domain.Spelling]

/-- A journey is stranded before any node is tried, or it ends as walks do. -/
theorem Journey.ending (h : Journey c sh log p result sh') :
    (log.stops = [] ∧ ∃ e, result = .error (.givenUp e) ∧ e.why = .couldNotSniffOnStartup) ∨
      Ending c log p result := by
  cases h with
  | stranded hstart =>
    obtain ⟨added, -, hend | ⟨fault, hend⟩⟩ := hstart.consulted
    · cases hend
    · cases hend
      exact .inl ⟨rfl, _, rfl, rfl⟩
  | walked _ _ hwalk =>
    refine .inr ?_
    cases hwalk.ending with
    | surrendered hclosing hfailed => exact .surrendered hclosing hfailed
    | stopped hstops hfailed hended hp hdeeds =>
      exact .stopped hstops hfailed hended hp (hdeeds.trans (List.suffix_append ..))

/-- What a request knows at the end of its journey is what its stops have brought about. -/
theorem Journey.progress (h : Journey c sh log p result sh') :
    p.tried = log.stops.length ∧ p.lastStatus = latest Stop.status? log.stops none ∧
      p.lastFault = latest Stop.fault? log.stops none := by
  cases h with
  | stranded => exact ⟨rfl, rfl, rfl⟩
  | walked hstart hstale hwalk =>
    obtain ⟨first, -, hstart | ⟨_, hstart⟩⟩ := hstart.consulted
    · cases hstart
      obtain ⟨second, -, rfl⟩ := hstale.consulted
      simpa using hwalk.progress
    · cases hstart

/-- A journey ends with a response exactly if one of the nodes it came to gave a usable answer. -/
theorem Journey.ok_iff (h : Journey c sh log p result sh') :
    (∃ response, result = .ok response) ↔ ∃ stop ∈ log.stops, stop.Usable := by
  rcases h.ending with ⟨hstops, e, hresult, -⟩ | hending
  · simp [hstops, hresult]
  · cases hending with
    | surrendered hclosing hfailed =>
      constructor
      · rintro ⟨response, hresult⟩
        cases hresult
      · rintro ⟨stop, hstop, husable⟩
        exact absurd husable (hfailed stop hstop).2
    | @stopped earlier last _ _ hstops hfailed hended =>
      rw [hended.ok_iff]
      constructor
      · intro husable
        exact ⟨last, by simp [hstops], husable⟩
      · rintro ⟨stop, hstop, husable⟩
        rw [hstops, List.mem_append, List.mem_singleton] at hstop
        rcases hstop with hstop | rfl
        · exact absurd husable (hfailed stop hstop).2
        · exact husable

theorem Journey.firstAnswerWins (began : Nat) (h : Journey c sh log p result sh') :
    FirstAnswerWins c log (.read began :: log.deeds) result where
  ok_iff := h.ok_iff
  response response hresult := by
    rcases h.ending with ⟨-, e, herror, -⟩ | hending
    · rw [hresult] at herror
      cases herror
    · obtain ⟨earlier, last, message, reply, hstops, hearlier, hreply, husable, hmessage, hlast,
        hresponse⟩ := hending.response hresult
      refine ⟨earlier, last, message, reply, hstops, hearlier, hreply, husable, hmessage, ?_,
        hresponse⟩
      rw [List.getLast?_cons, hlast, Option.getD_some]
  failure failure hresult := by
    rcases h.ending with ⟨hstops, e, herror, hwhy⟩ | hending
    · rw [hresult, Except.error.injEq] at herror
      exact .inr ⟨e, herror, .inl ⟨hstops, hwhy⟩⟩
    · obtain ⟨-, hlastStatus, hlastFault⟩ := h.progress
      rcases hending.failure hresult with hunsendable | ⟨e, he, hstatus, hfault⟩
      · exact .inl hunsendable
      · exact .inr ⟨e, he, .inr ⟨hstatus.trans hlastStatus, hfault.trans hlastFault⟩⟩

/-- A usable answer is the response, whichever node gave it. -/
theorem Journey.ok_of_usable {reply : Reply} (h : Journey c sh log p result sh')
    (hstop : stop ∈ log.stops) (hreply : stop.reply? = some reply)
    (husable : isRetryable reply.status = false) : ∃ response, result = .ok response ∧
      response.status = reply.status ∧ response.headers = reply.headers ∧
      response.body = reply.body := by
  obtain ⟨response, hresponse⟩ := h.ok_iff.mpr ⟨stop, hstop, reply, hreply, husable⟩
  refine ⟨response, hresponse, ?_⟩
  obtain ⟨earlier, last, message, answer, hstops, hearlier, hanswer, -, -, -, hstatus, hheaders,
    hbody, -⟩ := (h.firstAnswerWins 0).response response hresponse
  -- No earlier stop gave a usable answer, so this is the last one.
  rw [hstops, List.mem_append, List.mem_singleton] at hstop
  rcases hstop with hstop | rfl
  · exact absurd ⟨reply, hreply, husable⟩ (hearlier stop hstop)
  · rw [hreply, Option.some.injEq] at hanswer
    subst hanswer
    exact ⟨hstatus, hheaders, hbody⟩

/-- A node that tells that a gateway failed is taken for one that failed. -/
theorem Journey.failed_of_retryable {reply : Reply} (h : Journey c sh log p result sh')
    (hstop : stop ∈ log.stops) (hreply : stop.reply? = some reply)
    (hretryable : isRetryable reply.status = true) : stop.Failed := by
  rcases h.ending with ⟨hnone, -⟩ | hending
  · rw [hnone] at hstop
    cases hstop
  · cases hending with
    | surrendered _ hfailed => exact hfailed stop hstop
    | @stopped earlier last _ _ hstops hfailed hended =>
      rw [hstops, List.mem_append, List.mem_singleton] at hstop
      rcases hstop with hstop | rfl
      · exact hfailed stop hstop
      · cases hended with
        | unsendable hmeeting => simp [Stop.reply?, hmeeting, Attempt.reply?] at hreply
        | answered hmeeting _ husable =>
          simp only [Stop.reply?, hmeeting, Attempt.reply?, Option.some.injEq] at hreply
          rw [hreply, hretryable] at husable
          cases husable

/-- Whatever the pool, the clock and the answers, a request that is not bound to one node is
answered by the first node that gives a usable answer, or is given up with what its nodes answered
last. -/
theorem first_usable_answer_wins {s : Settings} {r : Request}
    (hopen : r.overrides.onlyNode = none) (h : (send s r).Runs sh deeds result sh') :
    ∃ began log p, deeds = .read began :: log.deeds ∧
      Journey (courseOf s r sh.pool began) sh log p result sh' ∧
      FirstAnswerWins (courseOf s r sh.pool began) log deeds result := by
  obtain ⟨began, log, p, rfl, hjourney⟩ := send_runs hopen h
  exact ⟨began, log, p, rfl, hjourney, hjourney.firstAnswerWins began⟩

end Spelled

theorem first_usable_answer_of_second : ∃ began log p,
    (send trusting plainRequest).deeds .ofAnswers badGateway = .read began :: log.deeds ∧
      Journey (courseOf trusting plainRequest badGateway.shared.pool began) badGateway.shared log p
        (.ok responseOfSecond)
        ((send trusting plainRequest).run .ofAnswers badGateway).2.shared ∧
      FirstAnswerWins (courseOf trusting plainRequest badGateway.shared.pool began) log
        ((send trusting plainRequest).deeds .ofAnswers badGateway) (.ok responseOfSecond) :=
  first_usable_answer_wins rfl runs_badGateway

/-- A cluster that refuses to tell its nodes, and has a service that is not available. -/
def unhelpful : World (List (Except LinkFault Reply)) :=
  .start [.error (.scripted "refused"), .ok { status := 503, body := [] }]
    { kind := .sniffing, register := [{ url := nodeAt "a" }], ring := [0] }

/-- Settings of a client that asks for the nodes before each request, and at no other time. -/
def curious : Settings :=
  { disablePings := true, sniffOnStartup := false, sniffOnFault := false, sniffLifespan := some 0 }

/-- A cluster that is not available, whatever it is asked. -/
def unavailable : World (List (Except LinkFault Reply)) :=
  .start [.ok { status := 503, body := [] }, .ok { status := 503, body := [] }]
    { kind := .sniffing, register := [{ url := nodeAt "a" }], ring := [0] }

/-- When a request is given up, the fault that a sniff met with is not told, and neither are the
statuses that a sniff and a ping were answered with. -/
theorem sniffs_and_pings_not_told :
    (∃ message deeds e sh',
      (send curious plainRequest).Runs unhelpful.shared deeds (.error (.givenUp e)) sh' ∧
      (message, .error (.scripted "refused")) ∈ exchanges deeds ∧
      e.why ≠ .couldNotSniffOnStartup ∧ e.lastFault = none) ∧
    ∃ deeds e sh',
      (send { curious with disablePings := false } plainRequest).Runs unavailable.shared deeds
        (.error (.givenUp e)) sh' ∧
      (exchanges deeds).map (fun exchange ↦
        (exchange.1.isPing, exchange.2.toOption.map Reply.status)) =
          [(false, some 503), (true, some 503)] ∧
      e.why ≠ .couldNotSniffOnStartup ∧ e.lastStatus = none :=
  ⟨⟨_, _, _, _, Program.runs_run .ofAnswers (send curious plainRequest) unhelpful,
      List.mem_cons_self, by decide, rfl⟩,
    ⟨_, _, _, Program.runs_run .ofAnswers (send { curious with disablePings := false } plainRequest)
      unavailable, rfl, by decide, rfl⟩⟩

end SearchClient.Send

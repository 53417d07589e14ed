import SearchClient.Endpoint.Nodes
import SearchClient.Proofs.Endpoint.Calls

/-!
# Statuses that a call allows

A call may allow statuses that are none of success. Two tables are asked about the status of an
answer: first the one of statuses which tell that a gateway failed, and only then the call. So an
allowed status is accepted, from whichever node it comes, unless it is one of the former
(`StatusDecides`): then the node is taken for one that failed, and the call goes on to another or is
given up. A call that is bound to one node knows no such table and accepts all that it allows.
-/

set_option autoImplicit false
set_option relaxedAutoImplicit false

namespace SearchClient.Endpoint

open Program Send

variable {s : Settings} {e : Endpoint} {call : Call} {r : Request} {sh sh' : Shared}
  {deeds : List Deed} {result sent : Except Failure Response} {log : Log} {p : Progress}
  {response : Response} {c : Course}

/-- A response is accepted for its status. -/
theorem judged_ok_of_allows (h : r.overrides.allows response.status = true) :
    judged r.overrides (.ok response) = .ok response := by
  rw [judged, h, Bool.or_true, if_pos rfl]

/-- What a call accepts is the response to its request, of success or allowed. -/
theorem judged_eq_ok {o : Overrides} (h : judged o sent = .ok response) :
    sent = .ok response ∧ (response.success || o.allows response.status) = true := by
  cases sent with
  | error failure => cases h
  | ok answer =>
    rw [judged] at h
    split at h
    · rename_i haccepted
      cases h
      exact ⟨rfl, haccepted⟩
    · cases h

/-- What a call rejects is a response neither of success nor allowed. -/
theorem judged_eq_rejected {o : Overrides} {rejection : Rejection}
    (hsent : ∀ failure, sent = .error failure → failure ≠ .rejected rejection)
    (h : judged o sent = .error (.rejected rejection)) :
    isSuccess rejection.status = false ∧ o.allows rejection.status = false := by
  cases sent with
  | error failure =>
    rw [judged, Except.error.injEq] at h
    exact absurd h (hsent failure rfl)
  | ok answer =>
    rw [judged] at h
    split at h
    · cases h
    · rename_i hrefused
      cases h
      simpa [Response.success] using hrefused

/-- What the statuses of the answers make of a call. -/
structure StatusDecides (r : Request) (log : Log) (result : Except Failure Response) : Prop where
  /-- An answer with an allowed status is accepted, unless it tells that a gateway failed. -/
  accepted : ∀ stop ∈ log.stops, ∀ reply, stop.reply? = some reply →
    isRetryable reply.status = false → r.overrides.allows reply.status = true →
      ∃ response, result = .ok response ∧ response.status = reply.status ∧
        response.headers = reply.headers ∧ response.body = reply.body
  /-- A node that tells that a gateway failed is taken for one that failed, allowed or not. -/
  failed : ∀ stop ∈ log.stops, ∀ reply, stop.reply? = some reply →
    isRetryable reply.status = true → stop.Failed
  /-- Nothing else is accepted than success and what is allowed, and no failure of a gateway. -/
  only : ∀ response, result = .ok response →
    (response.success || r.overrides.allows response.status) = true ∧
      isRetryable response.status = false

section Spelled

variable [Url.Domain.Spelling]

theorem Journey.statusDecides (h : Journey c sh log p sent sh') :
    StatusDecides r log (judged r.overrides sent) where
  accepted := by
    intro stop hstop reply hreply husable hallows
    obtain ⟨response, rfl, hstatus, hcontent⟩ := h.ok_of_usable hstop hreply husable
    rw [← hstatus] at hallows
    exact ⟨response, judged_ok_of_allows hallows, hstatus, hcontent⟩
  failed stop hstop reply := h.failed_of_retryable hstop
  only := by
    intro response hresult
    obtain ⟨rfl, haccepted⟩ := judged_eq_ok hresult
    obtain ⟨_, _, _, reply, -, -, -, husable, -, -, hstatus, -⟩ :=
      (h.firstAnswerWins 0).response response rfl
    exact ⟨haccepted, hstatus ▸ husable⟩

/-- A call rejects only an answer that is neither of success nor allowed. It accepts every answer
that it allows if it is bound to one node, and otherwise unless the status tells that a gateway
failed. -/
theorem allowed_status_is_accepted (h : (perform s e call).Runs sh deeds result sh') :
    (∀ rejection, result = .error (.rejected rejection) → ∃ r, e.request call = .ok r ∧
      isSuccess rejection.status = false ∧ r.overrides.allows rejection.status = false) ∧
    ∀ r, e.request call = .ok r →
      (r.overrides.onlyNode = none → ∃ began log p sent, deeds = .read began :: log.deeds ∧
        Journey (courseOf s r sh.pool began) sh log p sent sh' ∧ StatusDecides r log result) ∧
      (r.overrides.onlyNode ≠ none → ∀ message reply, (message, .ok reply) ∈ exchanges deeds →
        r.overrides.allows reply.status = true →
          ∃ response, result = .ok response ∧ response.status = reply.status) := by
  constructor
  · rintro rejection rfl
    cases hrequest : e.request call with
    | error failure =>
      rw [perform, hrequest, runs_pure, Except.error.injEq] at h
      exact absurd h.2.1.symm (ne_rejected_of_request hrequest)
    | ok r =>
      obtain ⟨sent, hsend, hjudged⟩ := (perform_runs hrequest).mp h
      refine ⟨r, rfl, judged_eq_rejected (fun failure hfailure ↦ ?_) hjudged.symm⟩
      exact ne_rejected_of_send (hfailure ▸ hsend)
  · intro r hrequest
    obtain ⟨sent, hsend, rfl⟩ := (perform_runs hrequest).mp h
    constructor
    · intro hopen
      obtain ⟨began, log, p, rfl, hjourney⟩ := send_runs hopen hsend
      exact ⟨began, log, p, sent, rfl, hjourney, Journey.statusDecides hjourney⟩
    · intro honly message reply hmem hallows
      obtain ⟨node, hnode⟩ := Option.ne_none_iff_exists'.mp honly
      obtain ⟨began, rest, rfl, hdirect, -⟩ := send_runs_only hnode hsend
      obtain ⟨response, rfl, hstatus, -⟩ := hdirect.ok_of_answer hmem
      rw [← hstatus] at hallows
      exact ⟨response, judged_ok_of_allows hallows, hstatus⟩

end Spelled

/-- A call for what keeps the nodes busy that allows a status. -/
def busyAllowing (status : Nat) : Call := Call.allow {} status

/-- Two nodes, of which the first is out of service and the second does not find what is asked. -/
def outOfService : World (List (Except LinkFault Reply)) :=
  .start [.ok { status := 503, body := [] }, .ok { status := 404, body := [] }]
    { kind := .fixed, register := [{ url := nodeAt "a" }, { url := nodeAt "b" }]
      ring := [0, 1] }

/-- The second node's answer is accepted, since the call allows its status. -/
theorem allowed_status_is_accepted_of_second : ∃ r response,
    Nodes.hotThreads.request (busyAllowing 404) = .ok r ∧ response.status = 404 ∧
    ((perform trusting Nodes.hotThreads (busyAllowing 404)).run .ofAnswers outOfService).1 =
      .ok response ∧
    ∃ began log p sent, (perform trusting Nodes.hotThreads (busyAllowing 404)).deeds .ofAnswers
        outOfService = .read began :: log.deeds ∧
      Journey (courseOf trusting r outOfService.shared.pool began) outOfService.shared log p sent
        ((perform trusting Nodes.hotThreads (busyAllowing 404)).run .ofAnswers
          outOfService).2.shared ∧
      StatusDecides r log (.ok response) :=
  ⟨_, _, rfl, rfl, rfl, ((allowed_status_is_accepted (runs_run .ofAnswers
    (perform trusting Nodes.hotThreads (busyAllowing 404)) outOfService)).2 _ rfl).1 rfl⟩

/-- Where the call allows the status of the first node instead, that answer is not accepted: the
node is dead, and the call goes on to the other, whose answer it rejects. -/
theorem allowed_gateway_failure_is_passed_over : ∃ r rejection,
    Nodes.hotThreads.request (busyAllowing 503) = .ok r ∧ r.overrides.onlyNode = none ∧
    r.overrides.allows 503 = true ∧
    (exchanges ((perform trusting Nodes.hotThreads (busyAllowing 503)).deeds .ofAnswers
      outOfService)).map (fun exchange ↦
        (exchange.1.url.text, exchange.2.toOption.map Reply.status)) =
          [("http://a:9200/_nodes/hot_threads", some 503),
            ("http://b:9200/_nodes/hot_threads", some 404)] ∧
    ((perform trusting Nodes.hotThreads (busyAllowing 503)).run .ofAnswers outOfService).1 =
      .error (.rejected rejection) ∧ rejection.status = 404 ∧
    ((perform trusting Nodes.hotThreads (busyAllowing 503)).run .ofAnswers
      outOfService).2.shared.pool.nodes.map (·.health.alive) = [false, true] :=
  ⟨_, _, rfl, rfl, rfl, rfl, rfl, rfl, rfl⟩

end SearchClient.Endpoint

import SearchClient.Cluster.Http
import SearchClient.Endpoint.Indices
import SearchClient.Gzip.Basic
import SearchClient.Proofs.Cluster.Trust
import SearchClient.Proofs.Endpoint.Calls

/-!
# Answers without content

The answer to a question for the head of something has headers but no content. A link that carries
messages over HTTP opens the content of an answer whose headers say that it is compressed, and it
does so whether there is any. No content is none that was compressed, so such an answer is a fault
of the link although the node answered (`Http.opened_empty`): a ping that it answers fails, and a
call that asks whether something is there takes its node for one that failed. Answers without
content that do not claim to be compressed are taken as they are.

How contents are opened is left open here. All that matters is that no content cannot be.
-/

set_option autoImplicit false
set_option relaxedAutoImplicit false

namespace SearchClient

namespace Http

variable {inflate : Text.Bytes → Option Text.Bytes} {reply : Reply}

/-- No content that is said to be compressed cannot be opened. -/
theorem opened_empty (hempty : inflate [] = none) (hbody : reply.body = []) :
    opened inflate reply = if isCompressed reply.headers then .error .inflate else .ok reply := by
  unfold opened
  rw [hbody, hempty]

/-- What a link over HTTP brings back when a node answers without content. -/
theorem carry_of_empty {σ : Type} {network : Message → σ → Contact × σ} {m : Message}
    {before after : σ} (hempty : inflate [] = none) (hbody : reply.body = [])
    (hfit : unfit? m = none) (hanswer : network m before = (.answered reply, after)) :
    (link inflate network).carry m before =
      (if isCompressed reply.headers then .error .inflate else .ok reply, 0, after) := by
  simp only [link, hfit, hanswer, outcome]
  rw [opened_empty hempty hbody]

end Http

namespace Send

variable {s : Settings} {node : Url} {timeout : Nat} {p p' : Progress} {sh sh' : Shared}
  {message : Message} {reply : Reply} {fault : Option LinkFault} {broken : LinkFault} {stop : Stop}
  {c : Course} {deeds : List Deed} {result : Except Failure Response}

/-! ### Messages that were answered -/

theorem ping_succeeds (hsuccess : isSuccess reply.status = true)
    (h : (ping s node timeout p).Runs sh [.exchange message (.ok reply)] (fault, p') sh') :
    fault = none ∧ p' = p.record { event := .pingSuccess, node := some node } := by
  obtain ⟨hpinged, -⟩ := ping_runs h
  cases hpinged with
  | good => exact ⟨rfl, rfl⟩
  | failed _ hfault =>
    rw [pingFault?, if_pos hsuccess] at hfault
    cases hfault

theorem ping_fails
    (h : (ping s node timeout p).Runs sh [.exchange message (.error broken)] (fault, p') sh') :
    fault = some broken ∧ p' = p.record (faultEntry .pingFailure node broken) := by
  obtain ⟨hpinged, -⟩ := ping_runs h
  cases hpinged with
  | failed _ hfault =>
    cases hfault
    exact ⟨rfl, rfl⟩

theorem Stop.reply?_of_exchange (h : stop.exchange? = some (message, .ok reply)) :
    stop.reply? = some reply := by
  obtain ⟨number, node, meeting⟩ := stop
  cases meeting with
  | unpingable | pingFailed => cases h
  | attempted greeting attempt =>
    cases attempt with
    | unsendable | broken => cases h
    | refused | answered =>
      cases h
      rfl

/-- A node whose answer could not be brought back is taken for one that failed. -/
theorem Stop.failed_of_exchange (h : stop.exchange? = some (message, .error broken)) :
    stop.Failed ∧ stop.fault? = some broken := by
  obtain ⟨number, node, meeting⟩ := stop
  cases meeting with
  | unpingable | pingFailed => cases h
  | attempted greeting attempt =>
    cases attempt with
    | unsendable | refused | answered => cases h
    | broken =>
      cases h
      exact ⟨⟨⟨_, rfl⟩, by simp [Stop.Usable, Stop.reply?, Attempt.reply?]⟩, rfl⟩

/-- A request that is bound to one node is given up for the fault of the link. -/
theorem Direct.givenUp_of_fault (h : Direct c node deeds result)
    (hmem : (message, .error broken) ∈ exchanges deeds) :
    ∃ e, result = .error (.givenUp e) ∧ e.lastFault = some broken := by
  cases h with
  | unsendable => cases hmem
  | answered => simp at hmem
  | broken =>
    simp only [exchanges_exchange, exchanges_nil, List.mem_singleton, Prod.mk.injEq,
      Except.error.injEq] at hmem
    obtain ⟨-, rfl⟩ := hmem
    exact ⟨_, rfl, rfl⟩

end Send

namespace Endpoint

open Program Send

variable {inflate : Text.Bytes → Option Text.Bytes} {reply : Reply}

/-! ### Calls -/

/-- A call that asks whether something is there believes an answer. -/
structure Believed (reply : Reply) (result : Except Failure Bool) : Prop where
  there : isSuccess reply.status = true → result = .ok true
  missing : reply.status = 404 → result = .ok false

theorem believed_verdict {response : Response} (hstatus : response.status = reply.status) :
    Believed reply (verdict (.ok response)) where
  there hsuccess := by
    rw [← hstatus] at hsuccess
    rw [verdict, Response.success, if_pos hsuccess]
  missing hmissing := by
    rw [← hstatus] at hmissing
    have hrefused : ¬ response.success = true := by
      rw [Response.success, hmissing]
      decide
    rw [verdict, if_neg hrefused, if_pos hmissing]

section Spelled

variable [Url.Domain.Spelling]

/-- A call believes the answer that a node gave to its request. -/
theorem Journey.believed {c : Course} {sh sh' : Shared} {log : Log} {p : Progress}
    {sent : Except Failure Response} {stop : Stop} (h : Journey c sh log p sent sh')
    (hstop : stop ∈ log.stops) (hreply : stop.reply? = some reply) :
    Believed reply (verdict sent) := by
  have hbelieved (husable : isRetryable reply.status = false) : Believed reply (verdict sent) := by
    obtain ⟨response, rfl, hstatus, -⟩ := h.ok_of_usable hstop hreply husable
    exact believed_verdict hstatus
  constructor
  · intro hsuccess
    refine (hbelieved ?_).there hsuccess
    by_contra hretryable
    rw [Bool.not_eq_false] at hretryable
    rw [isSuccess_of_isRetryable hretryable] at hsuccess
    cases hsuccess
  · intro hmissing
    refine (hbelieved ?_).missing hmissing
    rw [hmissing]
    decide

/-- What a client hears of an answer without content, and what it makes of it. -/
structure HeadsAreTaken (inflate : Text.Bytes → Option Text.Bytes) (reply : Reply) : Prop where
  /-- The link brings back the answer, unless it is said to be compressed. -/
  carried : ∀ (σ : Type) (network : Message → σ → Http.Contact × σ) message before after,
    Http.unfit? message = none → network message before = (.answered reply, after) →
      ((Http.link inflate network).carry message before).1 =
        if Http.isCompressed reply.headers then .error .inflate else .ok reply
  /-- A ping that is answered with success succeeds, unless the answer is said to be compressed. -/
  pinged : ∀ s node timeout p sh message fault p' sh', isSuccess reply.status = true →
    (Send.ping s node timeout p).Runs sh
      [.exchange message (Http.outcome inflate message (.answered reply))] (fault, p') sh' →
    if Http.isCompressed reply.headers then
      fault = some .inflate ∧ p' = p.record (faultEntry .pingFailure node .inflate)
    else fault = none ∧ p' = p.record { event := .pingSuccess, node := some node }
  /-- A call that walks the pool and got the answer believes it, unless it is said to be compressed:
  then the node is taken for one that failed. -/
  probed : ∀ s e call r sh deeds result sh', Endpoint.request e call = .ok r →
    r.overrides.onlyNode = none → (probe s e call).Runs sh deeds result sh' →
    ∃ began log p sent, deeds = .read began :: log.deeds ∧
      Journey (courseOf s r sh.pool began) sh log p sent sh' ∧
      ∀ stop ∈ log.stops, ∀ message,
        stop.exchange? = some (message, Http.outcome inflate message (.answered reply)) →
        if Http.isCompressed reply.headers then stop.Failed ∧ stop.fault? = some .inflate
        else Believed reply result
  /-- So does a call that is bound to one node, which is given up where the other goes on. -/
  bound : ∀ s e call r sh deeds result sh', Endpoint.request e call = .ok r →
    r.overrides.onlyNode ≠ none → (probe s e call).Runs sh deeds result sh' →
    ∀ message, (message, Http.outcome inflate message (.answered reply)) ∈ exchanges deeds →
      if Http.isCompressed reply.headers then
        ∃ e, result = .error (.givenUp e) ∧ e.lastFault = some .inflate
      else Believed reply result

/-- Over HTTP an answer without content is taken as what it is, unless its headers say that it is
compressed. Then the node that gave it is taken for one that did not answer. -/
theorem heads_are_taken_unless_compressed (hempty : inflate [] = none) (hbody : reply.body = []) :
    HeadsAreTaken inflate reply := by
  have hheard (message : Message) : Http.outcome inflate message (.answered reply) =
      if Http.isCompressed reply.headers then .error .inflate else .ok reply :=
    Http.opened_empty hempty hbody
  constructor
  · intro σ network message before after hfit hanswer
    rw [Http.carry_of_empty hempty hbody hfit hanswer]
  · intro s node timeout p sh message fault p' sh' hsuccess h
    rw [hheard] at h
    split
    · next hcompressed =>
      rw [if_pos hcompressed] at h
      exact ping_fails h
    · next hplain =>
      rw [if_neg hplain] at h
      exact ping_succeeds hsuccess h
  · intro s e call r sh deeds result sh' hrequest hopen h
    obtain ⟨sent, hsend, rfl⟩ := (probe_runs hrequest).mp h
    obtain ⟨began, log, p, rfl, hjourney⟩ := send_runs hopen hsend
    refine ⟨began, log, p, sent, rfl, hjourney, fun stop hstop message hexchange ↦ ?_⟩
    rw [hheard] at hexchange
    split
    · next hcompressed =>
      rw [if_pos hcompressed] at hexchange
      exact Stop.failed_of_exchange hexchange
    · next hplain =>
      rw [if_neg hplain] at hexchange
      exact Journey.believed hjourney hstop (Stop.reply?_of_exchange hexchange)
  · intro s e call r sh deeds result sh' hrequest honly h message hmem
    obtain ⟨sent, hsend, rfl⟩ := (probe_runs hrequest).mp h
    obtain ⟨node, hnode⟩ := Option.ne_none_iff_exists'.mp honly
    obtain ⟨began, rest, rfl, hdirect, -⟩ := send_runs_only hnode hsend
    rw [hheard] at hmem
    split
    · next hcompressed =>
      rw [if_pos hcompressed] at hmem
      obtain ⟨e, rfl, hfault⟩ := hdirect.givenUp_of_fault hmem
      exact ⟨e, rfl, hfault⟩
    · next hplain =>
      rw [if_neg hplain] at hmem
      obtain ⟨response, rfl, hstatus, -⟩ := hdirect.ok_of_answer hmem
      exact believed_verdict hstatus

end Spelled

/-! ### An index that is there -/

/-- A call that asks whether an index is there. -/
def isThereLogs : Call := Call.set {} (.route "index") (.text "logs")

/-- A network on which nodes answer one after another, and nobody in the end. -/
def answering : Message → List Reply → Http.Contact × List Reply
  | _, [] => (.silent, [])
  | _, reply :: replies => (.answered reply, replies)

/-- HTTP over that network. -/
def answeringLink : Link (List Reply) := Http.link Gzip.expand? answering

/-- One node that has the first answer to give. -/
def lone (reply : Reply) : World (List Reply) :=
  .start [reply] { kind := .fixed, register := [{ url := nodeAt "a" }], ring := [0] }

/-- A node that does not have what it is asked for. -/
def missing : Reply := { status := 404, body := [] }

/-- A node that has what it is asked for, and would compress it. -/
def compressed : Reply :=
  { status := 200, headers := [("content-encoding", "gzip")], body := [] }

/-- A question for the head of what that node stands for. -/
def headOfLone : Message :=
  { method := .head, url := nodeAt "a", headers := [], payload := none, credentials := none
    timeout := 1 }

/-- Nothing cannot be opened, and a call believes the node that does not have the index. -/
theorem heads_are_taken_unless_compressed_of_missing :
    Gzip.expand? [] = none ∧ HeadsAreTaken Gzip.expand? missing ∧
    ((probe trusting Indices.isThere isThereLogs).run answeringLink (lone missing)).1 = .ok false :=
  ⟨rfl, heads_are_taken_unless_compressed rfl rfl, rfl⟩

/-- Where the node has the index and says that it compresses, the call is given up and the node is
dead. A ping that is so answered fails. -/
theorem compressed_head_kills_node :
    compressed.body = [] ∧ isSuccess compressed.status = true ∧
    (answeringLink.carry headOfLone [compressed]).1 = .error .inflate ∧
    (∃ e, ((probe trusting Indices.isThere isThereLogs).run answeringLink (lone compressed)).1 =
      .error (.givenUp e) ∧ e.lastFault = some .inflate) ∧
    ((probe trusting Indices.isThere isThereLogs).run answeringLink
      (lone compressed)).2.shared.pool.nodes.map (·.health.alive) = [false] ∧
    ((Send.ping {} (nodeAt "a") 1 {}).run answeringLink (lone compressed)).1.1 = some .inflate :=
  ⟨rfl, rfl, rfl, ⟨_, rfl, rfl⟩, rfl, rfl⟩

end Endpoint

end SearchClient

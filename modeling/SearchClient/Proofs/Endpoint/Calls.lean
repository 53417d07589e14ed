import SearchClient.Endpoint.Basic
import SearchClient.Proofs.Cluster.FirstAnswer

/-!
# Calls and their requests

A call makes one request of what it was given, and judges what became of it by the status of the
answer. `perform_runs` and `probe_runs` split a run of a call into a run of its request and the
judgement, so all that is known of requests can be used for calls.

Only a call rejects an answer. A request by itself is answered, given up, or fails for its
configuration (`ne_rejected_of_send`).
-/

set_option autoImplicit false
set_option relaxedAutoImplicit false

namespace SearchClient.Endpoint

open Program Send

variable {s : Settings} {e : Endpoint} {call : Call} {r : Request} {sh sh' : Shared}
  {deeds : List Deed} {rejection : Rejection}

/-- What a call makes of what became of its request. -/
def judged (o : Overrides) : Except Failure Response → Except Failure Response
  | .error failure => .error failure
  | .ok response =>
    if response.success || o.allows response.status then .ok response
    else .error response.toFailure

/-- What a call makes of what became of its request if it asks whether something is there. -/
def verdict : Except Failure Response → Except Failure Bool
  | .error failure => .error failure
  | .ok response =>
    if response.success then .ok true
    else if response.status = 404 then .ok false
    else .error response.toFailure

/-- A call of which no request can be made is not rejected. -/
theorem ne_rejected_of_request {failure : Failure} (h : e.request call = .error failure) :
    failure ≠ .rejected rejection := by
  unfold request at h
  split at h
  · cases h
    exact nofun
  · split at h
    · cases h
      exact nofun
    · cases h

variable [Url.Domain.Spelling]

theorem perform_runs {result : Except Failure Response} (hrequest : e.request call = .ok r) :
    (perform s e call).Runs sh deeds result sh' ↔
      ∃ sent, (send s r).Runs sh deeds sent sh' ∧ result = judged r.overrides sent := by
  have hperform : perform s e call = send s r >>= fun sent ↦ pure (judged r.overrides sent) := by
    unfold perform
    rw [hrequest]
    refine congrArg (send s r >>= ·) (funext fun sent ↦ ?_)
    cases sent with
    | error failure => rfl
    | ok response =>
      simp only [judged]
      split <;> rfl
  rw [hperform, runs_bind_pure]

theorem probe_runs {result : Except Failure Bool} (hrequest : e.request call = .ok r) :
    (probe s e call).Runs sh deeds result sh' ↔
      ∃ sent, (send s r).Runs sh deeds sent sh' ∧ result = verdict sent := by
  have hprobe : probe s e call = send s r >>= fun sent ↦ pure (verdict sent) := by
    unfold probe
    rw [hrequest]
    refine congrArg (send s r >>= ·) (funext fun sent ↦ ?_)
    cases sent with
    | error failure => rfl
    | ok response =>
      simp only [verdict]
      split
      · rfl
      · split <;> rfl
  rw [hprobe, runs_bind_pure]

theorem ne_rejected_of_send {failure : Failure}
    (h : (send s r).Runs sh deeds (.error failure) sh') : failure ≠ .rejected rejection := by
  cases honly : r.overrides.onlyNode with
  | some node =>
    obtain ⟨began, rest, -, hdirect, -⟩ := send_runs_only honly h
    cases hdirect with
    | unsendable | broken => exact nofun
  | none =>
    obtain ⟨began, log, p, -, hjourney⟩ := send_runs honly h
    rcases (hjourney.firstAnswerWins began).failure failure rfl with
      ⟨stop, -, what, -, rfl⟩ | ⟨e, rfl, -⟩
    · exact nofun
    · exact nofun

end SearchClient.Endpoint

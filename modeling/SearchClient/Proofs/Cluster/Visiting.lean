import SearchClient.Proofs.Cluster.Asking
import SearchClient.Proofs.Cluster.Walking

/-!
# Visits to nodes

A `Stop` is what came of one node that a request tried: of the ping, if one was due, and of the
request itself, if it got there. What a stop does, writes down, and makes of the node's health and
of the request's progress are functions of it, and `visit_runs` shows that every visit is one of
these stops.
-/

set_option autoImplicit false
set_option relaxedAutoImplicit false

namespace SearchClient

theorem Pool.changeHealth_id (pool : Pool) (number : Nat) : pool.changeHealth number id = pool := by
  have h : pool.register.modify number (fun node ↦ { node with health := id node.health }) =
      pool.register := List.modify_id ..
  unfold Pool.changeHealth
  rw [h]

namespace Send

open Program

theorem isSuccess_of_isRetryable {status : Nat} (h : isRetryable status = true) :
    isSuccess status = false := by
  simp only [isRetryable, isSuccess, Bool.and_eq_true, Bool.and_eq_false_iff,
    decide_eq_true_eq, decide_eq_false_iff_not] at h ⊢
  omega

/-! ### The request itself -/

/-- A request that can be prepared for a node has a locator there. -/
theorem place_of_messageTo {c : Course} {node : Url} {message : Message}
    (h : messageTo c node = .ok message) : ∃ url, Message.place node c.request.path = .ok url := by
  cases hplace : Message.place node c.request.path with
  | ok url => exact ⟨url, rfl⟩
  | error what =>
    simp only [messageTo, Message.prepare, hplace] at h
    cases h

/-- What came of sending the request itself to a node. Where it failed, the moment is the one at
which the node was marked. -/
inductive Attempt where
  | unsendable (what : Unsendable)
  | refused (message : Message) (reply : Reply) (moment : Nat)
  | broken (message : Message) (fault : LinkFault) (moment : Nat)
  | answered (message : Message) (reply : Reply)

namespace Attempt

def deeds : Attempt → List Deed
  | unsendable _ => []
  | refused message reply moment => [.exchange message (.ok reply), .read moment]
  | broken message fault moment => [.exchange message (.error fault), .read moment]
  | answered message reply => [.exchange message (.ok reply)]

/-- What is written down about it. -/
def entries (node : Url) : Attempt → Trail
  | unsendable _ => []
  | refused _ reply _ => [statusEntry .badResponse node reply.status]
  | broken _ fault _ => [faultEntry .badResponse node fault]
  | answered _ reply =>
    [statusEntry (if isSuccess reply.status then .healthyResponse else .badRequest) node
      reply.status]

/-- The answer of the node to the request. -/
def reply? : Attempt → Option Reply
  | refused _ reply _ | answered _ reply => some reply
  | _ => none

/-- The attempt was made with the request's message, and fits its answer. -/
def Holds (c : Course) (node : Url) : Attempt → Prop
  | unsendable what => messageTo c node = .error what
  | refused message reply _ => messageTo c node = .ok message ∧ isRetryable reply.status = true
  | broken message _ _ => messageTo c node = .ok message
  | answered message reply => messageTo c node = .ok message ∧ isRetryable reply.status = false

end Attempt

/-! ### Stops -/

/-- The fault that the answer to a ping is, unless it tells of success. -/
def pingFault? : Except LinkFault Reply → Option LinkFault
  | .error fault => some fault
  | .ok reply =>
    if isSuccess reply.status then none
    else some (.connect ("ping returned status " ++ toString reply.status))

/-- What came of a visit: a ping that could not be sent or was not answered well, or an attempt,
after a ping that was answered well if one was due. -/
inductive Meeting where
  | unpingable (what : Unsendable) (moment : Nat)
  | pingFailed (message : Message) (answer : Except LinkFault Reply) (fault : LinkFault)
      (moment : Nat)
  | attempted (greeting : Option (Message × Reply)) (attempt : Attempt)

/-- A node that was tried. -/
structure Stop where
  number : Nat
  node : Url
  meeting : Meeting

namespace Stop

/-- The deeds of the ping in front of an attempt. -/
def greetingDeeds : Option (Message × Reply) → List Deed
  | none => []
  | some (message, reply) => [.exchange message (.ok reply)]

def deeds (stop : Stop) : List Deed :=
  match stop.meeting with
  | .unpingable _ moment => [.read moment]
  | .pingFailed message answer _ moment => [.exchange message answer, .read moment]
  | .attempted greeting attempt => greetingDeeds greeting ++ attempt.deeds

/-- What is written down about the ping in front of an attempt. -/
def greetingEntries (node : Url) : Option (Message × Reply) → Trail
  | none => []
  | some _ => [{ event := .pingSuccess, node := some node }]

/-- What is written down about a stop. -/
def entries (stop : Stop) : Trail :=
  match stop.meeting with
  | .unpingable .. => []
  | .pingFailed _ _ fault _ => [faultEntry .pingFailure stop.node fault]
  | .attempted greeting attempt =>
    greetingEntries stop.node greeting ++ attempt.entries stop.node

/-- The answer of the node to the request itself. -/
def reply? (stop : Stop) : Option Reply :=
  match stop.meeting with
  | .attempted _ attempt => attempt.reply?
  | _ => none

/-- The status of an answer that tells that a gateway failed. -/
def status? (stop : Stop) : Option Nat :=
  match stop.meeting with
  | .attempted _ (.refused _ reply _) => some reply.status
  | _ => none

/-- The fault of a failed ping, or of the link that should have brought an answer. -/
def fault? (stop : Stop) : Option LinkFault :=
  match stop.meeting with
  | .unpingable what _ => some (unsendableFault what)
  | .pingFailed _ _ fault _ => some fault
  | .attempted _ (.broken _ fault _) => some fault
  | _ => none

/-- The moment at which the node was found to have failed. -/
def failedAt? (stop : Stop) : Option Nat :=
  match stop.meeting with
  | .unpingable _ moment | .pingFailed _ _ _ moment => some moment
  | .attempted _ (.refused _ _ moment) | .attempted _ (.broken _ _ moment) => some moment
  | _ => none

/-- The answer that ends the request. -/
def answer? (stop : Stop) : Option Reply :=
  match stop.meeting with
  | .attempted _ (.answered _ reply) => some reply
  | _ => none

/-- What a stop makes of the health of its node. -/
def mark (s : Settings) (stop : Stop) : Health → Health :=
  match stop.failedAt?, stop.answer? with
  | some moment, _ => fun h ↦ h.fail moment s.deadTimeout s.maxDeadTimeout
  | none, some _ => fun _ ↦ .recovered
  | none, none => id

/-- What the requests share after a stop. -/
def after (s : Settings) (stop : Stop) (sh : Shared) : Shared :=
  { sh with pool := sh.pool.changeHealth stop.number (stop.mark s) }

/-- The progress after a stop. -/
def progress (stop : Stop) (p : Progress) : Progress :=
  { p with trail := p.trail ++ stop.entries
           lastStatus := stop.status?.or p.lastStatus
           lastFault := stop.fault?.or p.lastFault }

/-- What the request ends with, if it ends here. -/
def result? (c : Course) (stop : Stop) (p : Progress) : Option (Except Failure Response) :=
  match stop.meeting with
  | .attempted _ (.unsendable what) => some (.error (.config (.unsendable what)))
  | .attempted _ (.answered _ reply) => some (respond c stop.node reply (stop.progress p).trail)
  | _ => none

/-- How a visit ended. -/
def outcome (c : Course) (stop : Stop) (p : Progress) : Visit :=
  match stop.result? c p with
  | some result => .answered result
  | none => .failed (stop.progress p)

theorem outcome_of_result {c : Course} {stop : Stop} {p : Progress}
    {result : Except Failure Response} (h : stop.result? c p = some result) :
    stop.outcome c p = .answered result := by
  simp only [outcome, h]

theorem outcome_of_no_result {c : Course} {stop : Stop} {p : Progress}
    (h : stop.result? c p = none) : stop.outcome c p = .failed (stop.progress p) := by
  simp only [outcome, h]

/-- The node was pinged if that was due, the messages are those of a ping and of the request, and
all fits the answers. -/
def Holds (c : Course) (pool : Pool) (stop : Stop) : Prop :=
  match stop.meeting with
  | .unpingable what _ =>
    isPinged c pool stop.number = true ∧
      pingMessage c.settings stop.node c.limits.pingTimeout = .error what
  | .pingFailed message answer fault _ =>
    isPinged c pool stop.number = true ∧
      pingMessage c.settings stop.node c.limits.pingTimeout = .ok message ∧
      pingFault? answer = some fault
  | .attempted none attempt => isPinged c pool stop.number = false ∧ attempt.Holds c stop.node
  | .attempted (some (message, reply)) attempt =>
    isPinged c pool stop.number = true ∧
      pingMessage c.settings stop.node c.limits.pingTimeout = .ok message ∧
      isSuccess reply.status = true ∧ attempt.Holds c stop.node

/-- The node answered the request itself, and not that a gateway failed. -/
def Usable (stop : Stop) : Prop :=
  ∃ reply, stop.reply? = some reply ∧ isRetryable reply.status = false

/-- The node was found to have failed, and gave no usable answer. -/
def Failed (stop : Stop) : Prop := (∃ moment, stop.failedAt? = some moment) ∧ ¬ stop.Usable

variable {c : Course} {pool : Pool} {p : Progress} {stop : Stop}
  {result : Except Failure Response}

theorem attempt_holds {number : Nat} {node : Url} {greeting : Option (Message × Reply)}
    {attempt : Attempt} (h : Stop.Holds c pool ⟨number, node, .attempted greeting attempt⟩) :
    attempt.Holds c node := by
  cases greeting with
  | none => exact h.2
  | some => exact h.2.2.2

/-- Where a request does not end, the node failed. -/
theorem failed_of_no_result (hstop : stop.Holds c pool) (hresult : stop.result? c p = none) :
    stop.Failed := by
  obtain ⟨number, node, meeting⟩ := stop
  cases meeting with
  | unpingable what moment => exact ⟨⟨moment, rfl⟩, by simp [Usable, reply?]⟩
  | pingFailed message answer fault moment => exact ⟨⟨moment, rfl⟩, by simp [Usable, reply?]⟩
  | attempted greeting attempt =>
    have hattempt : attempt.Holds c node := attempt_holds hstop
    cases attempt with
    | unsendable | answered => cases hresult
    | broken message fault moment =>
      exact ⟨⟨moment, rfl⟩, by simp [Usable, reply?, Attempt.reply?]⟩
    | refused message reply moment =>
      refine ⟨⟨moment, rfl⟩, ?_⟩
      simpa [Usable, reply?, Attempt.reply?] using hattempt.2

/-- How a request ends at a stop: it cannot be prepared for the node, or the node answered in a
usable way. -/
inductive Ended (c : Course) (stop : Stop) (p : Progress) : Except Failure Response → Prop
  | unsendable {greeting : Option (Message × Reply)} {what : Unsendable}
      (hmeeting : stop.meeting = .attempted greeting (.unsendable what))
      (hwhat : messageTo c stop.node = .error what) :
      Ended c stop p (.error (.config (.unsendable what)))
  | answered {greeting : Option (Message × Reply)} {message : Message} {reply : Reply} {url : Url}
      (hmeeting : stop.meeting = .attempted greeting (.answered message reply))
      (hmessage : messageTo c stop.node = .ok message)
      (husable : isRetryable reply.status = false)
      (hurl : Message.place stop.node c.request.path = .ok url) :
      Ended c stop p (.ok
        { method := c.request.method, url := url, status := reply.status, headers := reply.headers
          body := reply.body, trail := (stop.progress p).trail })

theorem ended_of_result (hstop : stop.Holds c pool) (hresult : stop.result? c p = some result) :
    stop.Ended c p result := by
  obtain ⟨number, node, meeting⟩ := stop
  cases meeting with
  | unpingable | pingFailed => cases hresult
  | attempted greeting attempt =>
    have hattempt : attempt.Holds c node := attempt_holds hstop
    cases attempt with
    | refused | broken => cases hresult
    | unsendable what =>
      cases hresult
      exact .unsendable rfl hattempt
    | answered message reply =>
      obtain ⟨url, hurl⟩ := place_of_messageTo hattempt.1
      simp only [result?, respond, hurl, Option.some.injEq] at hresult
      subst hresult
      exact .answered rfl hattempt.1 hattempt.2 hurl

/-- Where a request ends, the node did not fail. -/
theorem not_failed_of_result (hstop : stop.Holds c pool)
    (hresult : stop.result? c p = some result) : ¬ stop.Failed := by
  rintro ⟨⟨moment, hmoment⟩, -⟩
  cases ended_of_result hstop hresult with
  | unsendable hmeeting | answered hmeeting => simp [failedAt?, hmeeting] at hmoment

end Stop

/-! ### Visits are stops -/

variable {s : Settings} {c : Course} {number moment : Nat} {node : Url} {p : Progress}
  {sh sh' : Shared} {deeds : List Deed} {v : Visit}

theorem runs_mark_bind {β : Type} {g : Health → Health} {f : Unit → Program β} {b : β} :
    (mark number g >>= f).Runs sh deeds b sh' ↔
      (f ()).Runs { sh with pool := sh.pool.changeHealth number g } deeds b sh' :=
  runs_change_bind

theorem runs_markDead_bind {β : Type} {f : Unit → Program β} {b : β} :
    (markDead s number >>= f).Runs sh deeds b sh' ↔ ∃ moment rest, deeds = .read moment :: rest ∧
      (f ()).Runs { sh with pool :=
        sh.pool.changeHealth number (·.fail moment s.deadTimeout s.maxDeadTimeout) } rest b sh' :=
  runs_now_bind (f := fun moment ↦
    mark number (·.fail moment s.deadTimeout s.maxDeadTimeout) >>= f) |>.trans
      (exists_congr fun _ ↦ exists_congr fun _ ↦ and_congr_right fun _ ↦ runs_mark_bind)

/-- An attempt, after a ping that was answered well if one was due, is a stop. -/
theorem attempt_runs {greeting : Option (Message × Reply)}
    (h : (attempt c number node
      { p with trail := p.trail ++ Stop.greetingEntries node greeting }).Runs sh deeds v sh') :
    ∃ a : Attempt, a.Holds c node ∧ deeds = a.deeds ∧
      v = Stop.outcome c ⟨number, node, .attempted greeting a⟩ p ∧
      sh' = Stop.after c.settings ⟨number, node, .attempted greeting a⟩ sh := by
  unfold attempt at h
  cases hmessage : messageTo c node with
  | error what =>
    simp only [hmessage, runs_pure] at h
    obtain ⟨rfl, rfl, rfl⟩ := h
    refine ⟨.unsendable what, hmessage, rfl, rfl, ?_⟩
    exact congrArg (fun pool ↦ { sh' with pool := pool }) (sh'.pool.changeHealth_id number).symm
  | ok message =>
    simp only [hmessage, runs_call_bind] at h
    obtain ⟨answer, rest, rfl, h⟩ := h
    cases answer with
    | error fault =>
      simp only [runs_markDead_bind, runs_pure] at h
      obtain ⟨moment, rest, rfl, rfl, rfl, rfl⟩ := h
      refine ⟨.broken message fault moment, hmessage, rfl, ?_, rfl⟩
      simp [Stop.outcome, Stop.result?, Stop.progress, Stop.entries, Stop.status?, Stop.fault?,
        Attempt.entries, Progress.record, Option.or]
    | ok reply =>
      by_cases hretryable : isRetryable reply.status = true
      · simp only [hretryable, ↓reduceIte, runs_markDead_bind, runs_pure] at h
        obtain ⟨moment, rest, rfl, rfl, rfl, rfl⟩ := h
        refine ⟨.refused message reply moment, ⟨hmessage, hretryable⟩, rfl, ?_, rfl⟩
        simp [Stop.outcome, Stop.result?, Stop.progress, Stop.entries, Stop.status?, Stop.fault?,
          Attempt.entries, Progress.record, Option.or]
      · rw [Bool.not_eq_true] at hretryable
        simp only [hretryable, Bool.false_eq_true, ↓reduceIte, markAlive, runs_mark_bind,
          runs_pure] at h
        obtain ⟨rfl, rfl, rfl⟩ := h
        refine ⟨.answered message reply, ⟨hmessage, hretryable⟩, rfl, ?_, rfl⟩
        simp [Stop.outcome, Stop.result?, Stop.progress, Stop.entries, Attempt.entries,
          Progress.record]

/-- What can come of a ping. -/
inductive Pinged (s : Settings) (node : Url) (timeout : Nat) (p : Progress) :
    List Deed → Option LinkFault → Progress → Prop
  | unsendable {what : Unsendable} (hmessage : pingMessage s node timeout = .error what) :
      Pinged s node timeout p [] (some (unsendableFault what)) p
  | good {message : Message} {reply : Reply} (hmessage : pingMessage s node timeout = .ok message)
      (hsuccess : isSuccess reply.status = true) :
      Pinged s node timeout p [.exchange message (.ok reply)] none
        { p with trail := p.trail ++ Stop.greetingEntries node (some (message, reply)) }
  | failed {message : Message} {answer : Except LinkFault Reply} {fault : LinkFault}
      (hmessage : pingMessage s node timeout = .ok message)
      (hfault : pingFault? answer = some fault) :
      Pinged s node timeout p [.exchange message answer] (some fault)
        (p.record (faultEntry .pingFailure node fault))

theorem ping_runs {timeout : Nat} {fault : Option LinkFault} {p' : Progress}
    (h : (ping s node timeout p).Runs sh deeds (fault, p') sh') :
    Pinged s node timeout p deeds fault p' ∧ sh' = sh := by
  unfold ping at h
  cases hmessage : pingMessage s node timeout with
  | error what =>
    simp only [hmessage, runs_pure, Prod.mk.injEq] at h
    obtain ⟨rfl, ⟨rfl, rfl⟩, rfl⟩ := h
    exact ⟨.unsendable hmessage, rfl⟩
  | ok message =>
    simp only [hmessage, runs_call_bind] at h
    obtain ⟨answer, rest, rfl, h⟩ := h
    cases answer with
    | error fault =>
      simp only [runs_pure, Prod.mk.injEq] at h
      obtain ⟨rfl, ⟨rfl, rfl⟩, rfl⟩ := h
      exact ⟨.failed hmessage rfl, rfl⟩
    | ok reply =>
      simp only at h
      split_ifs at h with hsuccess
      · simp only [runs_pure, Prod.mk.injEq] at h
        obtain ⟨rfl, ⟨rfl, rfl⟩, rfl⟩ := h
        exact ⟨.good hmessage hsuccess, rfl⟩
      · simp only [runs_pure, Prod.mk.injEq] at h
        obtain ⟨rfl, ⟨rfl, rfl⟩, rfl⟩ := h
        exact ⟨.failed hmessage (by simp [pingFault?, hsuccess]), rfl⟩

/-- A visit is a stop. -/
theorem visit_runs (h : (visit c number node p).Runs sh deeds v sh') :
    ∃ stop : Stop, stop.number = number ∧ stop.node = node ∧ stop.Holds c sh.pool ∧
      deeds = stop.deeds ∧ v = stop.outcome c p ∧ sh' = stop.after c.settings sh := by
  rw [visit, runs_look_bind] at h
  split_ifs at h with hpinged
  · rw [runs_bind] at h
    obtain ⟨before, ⟨fault, p₁⟩, sh₁, rest, rfl, hping, h⟩ := h
    obtain ⟨hanswered, rfl⟩ := ping_runs hping
    cases hanswered with
    | unsendable hmessage =>
      simp only [runs_markDead_bind, runs_pure] at h
      obtain ⟨moment, rest, rfl, rfl, rfl, rfl⟩ := h
      refine ⟨⟨number, node, .unpingable _ moment⟩, rfl, rfl, ⟨hpinged, hmessage⟩, rfl, ?_, rfl⟩
      simp [Stop.outcome, Stop.result?, Stop.progress, Stop.entries, Stop.status?, Stop.fault?,
        Option.or]
    | @good message reply hmessage hsuccess =>
      obtain ⟨a, ha, rfl, rfl, rfl⟩ := attempt_runs h
      exact ⟨⟨number, node, .attempted (some (message, reply)) a⟩, rfl, rfl,
        ⟨hpinged, hmessage, hsuccess, ha⟩, rfl, rfl, rfl⟩
    | @failed message answer fault hmessage hfault =>
      simp only [runs_markDead_bind, runs_pure] at h
      obtain ⟨moment, rest, rfl, rfl, rfl, rfl⟩ := h
      refine ⟨⟨number, node, .pingFailed message answer fault moment⟩, rfl, rfl,
        ⟨hpinged, hmessage, hfault⟩, rfl, ?_, rfl⟩
      simp [Stop.outcome, Stop.result?, Stop.progress, Stop.entries, Stop.status?, Stop.fault?,
        Progress.record, Option.or]
  · rw [Bool.not_eq_true] at hpinged
    have hp : p = { p with trail := p.trail ++ Stop.greetingEntries node none } := by
      simp [Stop.greetingEntries]
    rw [hp] at h
    obtain ⟨a, ha, rfl, rfl, rfl⟩ := attempt_runs h
    exact ⟨⟨number, node, .attempted none a⟩, rfl, rfl, ⟨hpinged, ha⟩, rfl, rfl, rfl⟩

end Send

end SearchClient

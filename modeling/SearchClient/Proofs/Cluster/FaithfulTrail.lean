import SearchClient.Proofs.Cluster.Journey
import Mathlib.Data.List.Forall2

/-!
# Trails tell what happened

A message to a node is sent on one of three errands: as a ping, as the question of a sniff, or as
the request itself. An entry of a trail accounts for an exchange if it names the node that the
message was made for and the event is the one that the answer is on that errand.

The messages of a request with their answers and the entries of its trail that tell of messages
match one to one and in order, for requests that walk the pool (`Journey.faithful`) and for those
that are bound to one node (`Direct.faithful`).
-/

set_option autoImplicit false
set_option relaxedAutoImplicit false

namespace SearchClient

/-- What a message is sent for. -/
inductive Errand where
  | ping
  | sniff
  | request
  deriving DecidableEq, Repr

/-- The errand of which an event tells. -/
def Event.errand? : Event → Option Errand
  | pingSuccess | pingFailure => some .ping
  | sniffSuccess | sniffFailure => some .sniff
  | badResponse | healthyResponse | badRequest => some .request
  | _ => none

namespace Send

/-! ### Entries about messages -/

/-- The entries that tell of messages. -/
def calls (trail : Trail) : Trail := trail.filter (·.event.errand?.isSome)

variable {c : Course} {seen seen' : List Exchange} {trail trail' : Trail} {entry : TrailEntry}
  {pool : Pool} {sh sh' : Shared} {w : Walk} {p p' : Progress} {log : Log} {deeds : List Deed}
  {result : Except Failure Response}

@[simp] theorem calls_append (first second : Trail) :
    calls (first ++ second) = calls first ++ calls second :=
  List.filter_append ..

theorem calls_eq_nil {trail : Trail} (h : ∀ entry ∈ trail, entry.event.errand? = none) :
    calls trail = [] := by
  refine List.filter_eq_nil_iff.mpr fun entry hentry ↦ ?_
  simp [h entry hentry]

/-- The cluster could not be asked at some node, because the question could not be prepared, and the
trail says so. -/
def Unasked (c : Course) (trail : Trail) : Prop :=
  ∃ node what, sniffMessage c.settings node c.limits.pingTimeout = .error what ∧
    Inquiry.entry ⟨node, .unsendable what⟩ ∈ trail

theorem Unasked.mono (h : Unasked c trail) (hsub : trail ⊆ trail') : Unasked c trail' := by
  obtain ⟨node, what, hwhat, hentry⟩ := h
  exact ⟨node, what, hwhat, hsub hentry⟩

/-! ### What a result tells -/

/-- What a result tells about the way of its request. -/
def trailOf : Except Failure Response → Trail
  | .ok response => response.trail
  | .error failure => failure.trail

/-- A request that set out and could be prepared for its last node tells all that it has written
down, and perhaps why it was given up. -/
theorem Ending.told (h : Ending c log p' result) :
    (∃ node what, messageTo c node = .error what ∧ result = .error (.config (.unsendable what))) ∨
    ∃ closing, trailOf result = p'.trail ++ closing ∧
      ∀ entry ∈ closing, ∃ why, (why, entry.event) ∈ closings := by
  cases h with
  | @surrendered why event hclosing =>
    refine .inr ⟨[{ event := event }], rfl, ?_⟩
    simpa using ⟨why, hclosing⟩
  | @stopped _ last _ _ _ _ hended hp' =>
    cases hended with
    | unsendable _ hwhat => exact .inl ⟨last.node, _, hwhat, rfl⟩
    | answered => exact .inr ⟨[], by simp [trailOf, hp'], by simp⟩

theorem errand?_of_closing {why : Surrender} {event : Event} (h : (why, event) ∈ closings) :
    event.errand? = none := by
  simp only [closings, List.mem_cons, Prod.mk.injEq, List.not_mem_nil, or_false] at h
  rcases h with ⟨-, rfl⟩ | ⟨-, rfl⟩ | ⟨-, rfl⟩ | ⟨-, rfl⟩ <;> rfl

section Spelled

variable [Url.Domain.Spelling]

/-! ### Messages that are accounted for -/

/-- The message that goes to a node on an errand. -/
def errandMessage (c : Course) (node : Url) : Errand → Except Unsendable Message
  | .ping => pingMessage c.settings node c.limits.pingTimeout
  | .sniff => sniffMessage c.settings node c.limits.pingTimeout
  | .request => messageTo c node

/-- The event that an answer of a node is on an errand. -/
def errandEvent (c : Course) (node : Url) : Errand → Except LinkFault Reply → Event
  | .ping, .error _ => .pingFailure
  | .ping, .ok reply => if isSuccess reply.status then .pingSuccess else .pingFailure
  | .sniff, .error _ => .sniffFailure
  | .sniff, .ok reply =>
    if isSuccess reply.status &&
        (Sniff.readNodes reply.body node c.settings.skipManagerOnly).isOk then .sniffSuccess
    else .sniffFailure
  | .request, .error _ => .badResponse
  | .request, .ok reply =>
    if isSuccess reply.status then .healthyResponse
    else if isRetryable reply.status then .badResponse else .badRequest

/-- An entry names the node that the message of an exchange was made for, and says what came of
it. -/
def Accounts (c : Course) (exchange : Exchange) (entry : TrailEntry) : Prop :=
  ∃ errand node, entry.event.errand? = some errand ∧ entry.node = some node ∧
    errandMessage c node errand = .ok exchange.1 ∧
    entry.event = errandEvent c node errand exchange.2

/-- The entries that tell of messages account for these exchanges, one to one and in order. -/
def Faithful (c : Course) (seen : List Exchange) (trail : Trail) : Prop :=
  List.Forall₂ (Accounts c) seen (calls trail)

theorem Faithful.append (h : Faithful c seen trail) (h' : Faithful c seen' trail') :
    Faithful c (seen ++ seen') (trail ++ trail') := by
  unfold Faithful
  rw [calls_append]
  exact List.rel_append h h'

/-- Without messages there are no entries about any. -/
theorem faithful_nil (h : ∀ entry ∈ trail, entry.event.errand? = none) : Faithful c [] trail := by
  unfold Faithful
  rw [calls_eq_nil h]
  exact .nil

theorem Accounts.faithful {exchange : Exchange} (h : Accounts c exchange entry) :
    Faithful c [exchange] [entry] := by
  have hcall : calls [entry] = [entry] := by
    obtain ⟨errand, node, herrand, -⟩ := h
    simp [calls, herrand]
  unfold Faithful
  rw [hcall]
  exact .cons h .nil

/-! ### Stops -/

/-- The ping in front of an attempt is accounted for. -/
theorem Stop.faithful_greeting {node : Url} {message : Message} {reply : Reply}
    (hmessage : pingMessage c.settings node c.limits.pingTimeout = .ok message)
    (hsuccess : isSuccess reply.status = true) :
    Faithful c [(message, .ok reply)] (Stop.greetingEntries node (some (message, reply))) := by
  refine Accounts.faithful ⟨.ping, node, rfl, rfl, hmessage, ?_⟩
  simp [errandEvent, hsuccess]

theorem Attempt.faithful {attempt : Attempt} {node : Url} (h : attempt.Holds c node) :
    Faithful c (exchanges attempt.deeds) (attempt.entries node) := by
  cases attempt with
  | unsendable => exact .nil
  | broken message fault moment => exact Accounts.faithful ⟨.request, node, rfl, rfl, h, rfl⟩
  | refused message reply moment =>
    refine Accounts.faithful ⟨.request, node, rfl, rfl, h.1, ?_⟩
    simp [statusEntry, errandEvent, isSuccess_of_isRetryable h.2, h.2]
  | answered message reply =>
    refine Accounts.faithful ⟨.request, node, ?_, rfl, h.1, ?_⟩
    · simp only [statusEntry]
      split_ifs <;> rfl
    · simp [statusEntry, errandEvent, h.2]

/-- The entries of a stop account for its messages. -/
theorem Stop.faithful {stop : Stop} (h : stop.Holds c pool) :
    Faithful c (exchanges stop.deeds) stop.entries := by
  obtain ⟨number, node, meeting⟩ := stop
  cases meeting with
  | unpingable => exact .nil
  | pingFailed message answer fault moment =>
    refine Accounts.faithful ⟨.ping, node, rfl, rfl, h.2.1, ?_⟩
    cases answer with
    | error => rfl
    | ok reply =>
      have hfault := h.2.2
      simp only [pingFault?] at hfault
      split_ifs at hfault with hsuccess
      simp [faultEntry, errandEvent, hsuccess]
  | attempted greeting attempt =>
    simp only [Stop.deeds, Stop.entries, exchanges_append]
    refine Faithful.append ?_ (Attempt.faithful (Stop.attempt_holds h))
    cases greeting with
    | none => exact .nil
    | some greeting => exact Stop.faithful_greeting h.2.1 h.2.2.1

/-! ### Sniffs -/

/-- What is true of two parts of a trail is true of both together. -/
theorem unasked_or_faithful_append (h : Unasked c trail ∨ Faithful c seen trail)
    (h' : Unasked c trail' ∨ Faithful c seen' trail') :
    Unasked c (trail ++ trail') ∨ Faithful c (seen ++ seen') (trail ++ trail') := by
  rcases h with hunasked | hfaithful
  · exact .inl (hunasked.mono (List.subset_append_left ..))
  · rcases h' with hunasked' | hfaithful'
    · exact .inl (hunasked'.mono (List.subset_append_right ..))
    · exact .inr (hfaithful.append hfaithful')

/-- The entry about a node that could be asked accounts for the question. -/
theorem Inquiry.faithful {i : Inquiry} (h : i.Holds c.settings c.limits.pingTimeout) :
    Unasked c [i.entry] ∨ Faithful c (exchanges i.deeds) [i.entry] := by
  obtain ⟨node, finding⟩ := i
  cases finding with
  | unsendable what => exact .inl ⟨node, what, h, List.mem_singleton_self _⟩
  | broken message fault => exact .inr (Accounts.faithful ⟨.sniff, node, rfl, rfl, h, rfl⟩)
  | declined message reply =>
    refine .inr (Accounts.faithful ⟨.sniff, node, rfl, rfl, h.1, ?_⟩)
    simp [Inquiry.entry, statusEntry, errandEvent, h.2]
  | flawed message reply flaw =>
    refine .inr (Accounts.faithful ⟨.sniff, node, rfl, rfl, h.1, ?_⟩)
    simp [Inquiry.entry, errandEvent, h.2.2, Except.isOk, Except.toBool]
  | told message reply found =>
    refine .inr (Accounts.faithful ⟨.sniff, node, rfl, rfl, h.1, ?_⟩)
    simp [Inquiry.entry, errandEvent, h.2.1, h.2.2, Except.isOk, Except.toBool]

theorem faithful_inquiries {inquiries : List Inquiry}
    (h : ∀ i ∈ inquiries, i.Holds c.settings c.limits.pingTimeout) :
    Unasked c (inquiries.map Inquiry.entry) ∨
      Faithful c (exchanges (inquiries.flatMap Inquiry.deeds))
        (inquiries.map Inquiry.entry) := by
  induction inquiries with
  | nil => exact .inr .nil
  | cons i inquiries ih =>
    obtain ⟨hi, hrest⟩ := List.forall_mem_cons.mp h
    rw [List.flatMap_cons, exchanges_append]
    exact unasked_or_faithful_append (Inquiry.faithful hi) (ih hrest)

/-- What is written down when the cluster is asked accounts for the questions. -/
theorem Consulted.faithful {occasion : Event} (h : Consulted c occasion deeds trail)
    (hoccasion : occasion.errand? = none) :
    Unasked c trail ∨ Faithful c (exchanges deeds) trail := by
  cases h with
  | silent hdeeds =>
    rw [hdeeds]
    exact .inr .nil
  | asked hdeeds hholds =>
    rw [hdeeds]
    have hfirst : Faithful c [] [{ event := occasion }] :=
      faithful_nil (by simpa using hoccasion)
    exact unasked_or_faithful_append (.inr hfirst) (faithful_inquiries hholds)

/-! ### Journeys -/

/-- What a stride writes down tells of no message, and there is none. -/
theorem faithful_stride {found : Option (Nat × Url)} {w' : Walk}
    (h : (stride w p).Runs sh deeds (found, w', p') sh') :
    ∃ added, p' = { p with trail := p.trail ++ added } ∧ Faithful c (exchanges deeds) added := by
  obtain ⟨added, hdeeds, hp', hadded⟩ := stride_writes h
  refine ⟨added, hp', ?_⟩
  rw [hdeeds]
  refine faithful_nil fun entry hentry ↦ ?_
  rcases hadded entry hentry with hevent | hevent <;> simp [hevent, Event.errand?]

/-- What a walk adds to the trail accounts for its messages. -/
theorem Walked.faithful (h : Walked c w p sh log p' result sh') :
    ∃ added, p'.trail = p.trail ++ added ∧
      (Unasked c added ∨ Faithful c (exchanges log.deeds) added) := by
  induction h with
  | spent hstride =>
    obtain ⟨added, rfl, hfaithful⟩ := faithful_stride hstride
    exact ⟨added, rfl, .inr hfaithful⟩
  | late _ hstride | exhausted _ hstride =>
    obtain ⟨added, rfl, hfaithful⟩ := faithful_stride hstride
    exact ⟨added, rfl, .inr (by simpa using hfaithful)⟩
  | ended _ stop hstride _ _ hstop =>
    obtain ⟨added, rfl, hfaithful⟩ := faithful_stride hstride
    refine ⟨added ++ stop.entries, List.append_assoc .., .inr ?_⟩
    simpa using hfaithful.append (Stop.faithful hstop)
  | onward _ stop hstride _ _ hstop _ hfault _ ih | anew _ stop hstride _ _ hstop _ hfault _ ih =>
    obtain ⟨added, rfl, hfaithful⟩ := faithful_stride hstride
    obtain ⟨asked, hasked, rfl, -⟩ := hfault.consulted
    obtain ⟨rest, hrest, hlater⟩ := ih
    refine ⟨added ++ stop.entries ++ (asked ++ rest), ?_, ?_⟩
    · simp [hrest, Stop.progress, Progress.trying]
    · have hbefore := hfaithful.append (Stop.faithful hstop)
      have hafter := unasked_or_faithful_append (hasked.faithful rfl) hlater
      simpa using unasked_or_faithful_append (.inr hbefore) hafter

/-- The trail of a request that walked the pool accounts for its messages. -/
theorem Journey.faithful (h : Journey c sh log p result sh') :
    (∃ node what, messageTo c node = .error what ∧ result = .error (.config (.unsendable what))) ∨
      Unasked c (trailOf result) ∨ Faithful c (exchanges log.deeds) (trailOf result) := by
  cases h with
  | stranded hstart =>
    obtain ⟨added, hadded, hend | ⟨fault, hend⟩⟩ := hstart.consulted
    · cases hend
    · cases hend
      exact .inr (hadded.faithful rfl)
  | walked hstart hstale hwalk =>
    obtain ⟨first, hfirst, hbegun | ⟨_, hbegun⟩⟩ := hstart.consulted
    · cases hbegun
      obtain ⟨second, hsecond, rfl⟩ := hstale.consulted
      rcases hwalk.ending.told with hunsendable | ⟨closing, htrail, hclosing⟩
      · exact .inl hunsendable
      · obtain ⟨added, hadded, hwalked⟩ := hwalk.faithful
        have hend : Faithful c [] closing := faithful_nil fun entry hentry ↦ by
          obtain ⟨why, hwhy⟩ := hclosing entry hentry
          exact errand?_of_closing hwhy
        have hbefore := unasked_or_faithful_append (hfirst.faithful rfl) (hsecond.faithful rfl)
        have hafter := unasked_or_faithful_append hwalked (.inr hend)
        refine .inr ?_
        rw [htrail, hadded]
        simpa using unasked_or_faithful_append hbefore hafter
    · cases hbegun

/-- The trail of a request to one node accounts for its message. -/
theorem Direct.faithful {node : Url} (h : Direct c node deeds result) :
    (∃ node what, messageTo c node = .error what ∧ result = .error (.config (.unsendable what))) ∨
      Faithful c (exchanges deeds) (trailOf result) := by
  cases h with
  | unsendable hwhat => exact .inl ⟨node, _, hwhat, rfl⟩
  | broken hmessage =>
    exact .inr (Accounts.faithful ⟨.request, node, rfl, rfl, hmessage, rfl⟩)
  | answered hmessage =>
    refine .inr (Accounts.faithful ⟨.request, node, ?_, rfl, hmessage, rfl⟩)
    simp only [statusEntry]
    split_ifs <;> rfl

/-- Whatever the pool, the clock and the answers, and whether or not a request is bound to one node:
unless a message of the request or of one of its sniffs could not be prepared, its trail accounts
for all messages that were sent for it, one to one and in order. -/
theorem trail_accounts_for_messages {s : Settings} {r : Request}
    (h : (send s r).Runs sh deeds result sh') : ∃ began rest, deeds = .read began :: rest ∧
      ((∃ node what, messageTo (courseOf s r sh.pool began) node = .error what ∧
        result = .error (.config (.unsendable what))) ∨
      Unasked (courseOf s r sh.pool began) (trailOf result) ∨
      List.Forall₂ (Accounts (courseOf s r sh.pool began)) (exchanges deeds)
        (calls (trailOf result))) := by
  cases honly : r.overrides.onlyNode with
  | none =>
    obtain ⟨began, log, p, rfl, hjourney⟩ := send_runs honly h
    exact ⟨began, log.deeds, rfl, hjourney.faithful⟩
  | some node =>
    obtain ⟨began, rest, rfl, hdirect, -⟩ := send_runs_only honly h
    exact ⟨began, rest, rfl, hdirect.faithful.imp_right .inr⟩

end Spelled

/-- The trail of a request that moved on from the first of two nodes to the second. -/
theorem trail_accounts_for_messages_of_two : ∃ began,
    List.Forall₂ (Accounts (courseOf trusting plainRequest badGateway.shared.pool began))
      (exchanges ((send trusting plainRequest).deeds .ofAnswers badGateway))
      [statusEntry .badResponse (nodeAt "a") 502,
        statusEntry .healthyResponse (nodeAt "b") 200] := by
  obtain ⟨began, rest, -, ⟨node, what, -, hresult⟩ | ⟨node, what, -, hentry⟩ | hfaithful⟩ :=
    trail_accounts_for_messages runs_badGateway
  · cases hresult
  · simp [trailOf, responseOfSecond, Inquiry.entry, statusEntry] at hentry
  · exact ⟨began, hfaithful⟩

end Send

end SearchClient

import SearchClient.Endpoint.Documents
import SearchClient.Proofs.Endpoint.AllowedStatuses
import SearchClient.Proofs.Program.Alike
import SearchClient.Proofs.ServerError.Recognised

/-!
# Documents that are missing, and errors

Reading or deleting a document accepts the status 404, which may say that there is no such document.
It may also come with a server error, and only the body tells. The error is the answer exactly if it
is recognised (`Recognisable`): then the call is rejected, and otherwise the body is read as if no
error stood in it (`errors_are_recognised`).
-/

set_option autoImplicit false
set_option relaxedAutoImplicit false

namespace SearchClient.Endpoint

open Json Program Send ServerError

variable {s : Settings} {e : Endpoint} {call : Call} {r : Request} {sh sh' : Shared}
  {deeds : List Deed} {shape : Shape} {result : Except Failure Document}

theorem allows_of_allow (call : Call) (status : Nat) :
    ((call.allow status).overrides.getD {}).allows status = true := by
  simp only [Call.allow]
  split
  · rename_i hallows
    exact hallows
  · simp [Overrides.allows]

theorem overrides_of_request (h : e.request call = .ok r) :
    r.overrides = call.overrides.getD {} := by
  unfold request at h
  split at h
  · cases h
  · split at h
    · cases h
    · cases h
      rfl

/-- A call that may find no document makes of an answer with the status 404 an error, if one is
seen, or else what is read of the body. -/
theorem invoke_documentOrMissing [Url.Domain.Spelling]
    (hanswer : e.answer = .documentOrMissing shape) (hrequest : e.request (call.allow 404) = .ok r)
    (h : (invoke s e call).Runs sh deeds result sh') :
    ∃ sent, (send s r).Runs sh deeds sent sh' ∧
      ∀ response, sent = .ok response → response.status = 404 →
        result = (foundOrMissing response).bind (Response.read shape.read) := by
  have hinvoke : invoke s e call = perform s e (call.allow 404) >>= fun performed ↦
      pure (performed.bind fun response ↦
        (foundOrMissing response).bind (Response.read shape.read)) := by
    rw [invoke, hanswer]
  rw [hinvoke, runs_bind_pure] at h
  obtain ⟨performed, hperform, rfl⟩ := h
  obtain ⟨sent, hsent, rfl⟩ := (perform_runs hrequest).mp hperform
  refine ⟨sent, hsent, ?_⟩
  rintro response rfl hstatus
  have hallows : r.overrides.allows response.status = true := by
    rw [overrides_of_request hrequest, hstatus]
    exact allows_of_allow call 404
  rw [judged_ok_of_allows hallows]
  rfl

/-- What an answer is read as that is not rejected. -/
theorem read_ne_rejected {response : Response} (rejection : Rejection) :
    response.read shape.read ≠ .error (.rejected rejection) := by
  unfold Response.read
  split
  · exact nofun
  · exact nofun

/-- The operations that may find no document. -/
def FindsOrMisses (e : Endpoint) : Prop := (∃ source, e = get source) ∨ e = delete

theorem FindsOrMisses.answer (h : FindsOrMisses e) :
    ∃ shape, e.answer = .documentOrMissing shape := by
  obtain ⟨source, rfl⟩ | rfl := h
  · exact ⟨_, rfl⟩
  · exact ⟨_, rfl⟩

/-- The error of a body that is an object is seen exactly if the object is recognisable, with the
status of the body if it has one. A call that may find no document is rejected with that error, and
is not rejected for an error that is not seen. -/
theorem errors_are_recognised [Url.Domain.Spelling] {body : Text.Bytes} {spelling : List Text.Glyph}
    {members : List (Quoted × Tree)} {ending : Ending}
    (hobject : (Source.ofBytes body).root = .object spelling members ending) :
    (∀ status,
      ((∃ error, ofBody? body status = some error) ↔
        Recognisable members ending (Source.ofBytes body).trailing) ∧
      ∀ error, ofBody? body status = some error → StatusOf members status error.status) ∧
    ∀ (s : Settings) (e : Endpoint) (call : Call) (r : Request) (sh sh' : Shared)
      (deeds : List Deed) (result : Except Failure Document),
      FindsOrMisses e → e.request (call.allow 404) = .ok r →
      (invoke s e call).Runs sh deeds result sh' →
        ∃ sent, (send s r).Runs sh deeds sent sh' ∧
          ∀ response, sent = .ok response → response.status = 404 → response.body = body →
            (Recognisable members ending (Source.ofBytes body).trailing →
              ∃ rejection error, result = .error (.rejected rejection) ∧ rejection.status = 404 ∧
                rejection.serverError = some error ∧ ofBody? body 404 = some error) ∧
            (¬ Recognisable members ending (Source.ofBytes body).trailing →
              ∀ rejection, result ≠ .error (.rejected rejection)) := by
  refine ⟨fun status ↦ ⟨exists_ofBody?_iff hobject, fun error ↦ statusOf_ofBody? hobject⟩, ?_⟩
  intro s e call r sh sh' deeds result hfinds hrequest hruns
  obtain ⟨shape, hanswer⟩ := hfinds.answer
  obtain ⟨sent, hsent, hresult⟩ := invoke_documentOrMissing hanswer hrequest hruns
  refine ⟨sent, hsent, fun response hresponse hstatus hbody ↦ ?_⟩
  obtain rfl := hresult response hresponse hstatus
  have hseen : response.serverError? = ofBody? body 404 := by
    rw [Response.serverError?, hbody, hstatus]
  constructor
  · intro hrecognisable
    obtain ⟨error, herror⟩ := (exists_ofBody?_iff hobject).mpr hrecognisable
    rw [herror] at hseen
    have hrejected : foundOrMissing response = .error response.toFailure :=
      if_pos ⟨hstatus, by rw [hseen]; rfl⟩
    rw [hrejected]
    exact ⟨_, error, rfl, hstatus, hseen, herror⟩
  · intro hnot
    have hnone : response.serverError? = none := by
      rw [hseen, Option.eq_none_iff_forall_not_mem]
      exact fun error herror ↦ hnot ((exists_ofBody?_iff hobject).mp ⟨error, herror⟩)
    have hfound : foundOrMissing response = .ok response :=
      if_neg fun h ↦ by simp [hnone] at h
    rw [hfound]
    exact read_ne_rejected

/-- A node that answers with the status 404 and a body. -/
def notFound (body : Text.Bytes) : World (List (Except LinkFault Reply)) :=
  .start [.ok { status := 404, body := body }]
    { kind := .fixed, register := [{ url := nodeAt "a" }], ring := [0] }

/-- The same node, and a clock that moves on with each deed. -/
def findingNothing (body : Text.Bytes) : Surroundings :=
  { moment := List.length, answer := fun _ _ ↦ .ok { status := 404, body := body } }

/-- A call for the first document of an index. -/
def firstDocument : Call :=
  (({} : Call).set (.route "index") (.text "logs")).set (.route "id") (.text "1")

/-- An error with a cause behind it and a status of its own. -/
def nestedError : Text.Bytes :=
  Text.Utf8.encode <| "\x7b\"error\":\x7b\"type\":\"a\"," ++
    "\"caused_by\":\x7b\"reason\":\"b\"\x7d\x7d,\"status\":410\x7d"

/-- A document in which an error stands whose type is a number. -/
def mistypedError : Text.Bytes :=
  Text.Utf8.encode "\x7b\"_index\":\"logs\",\"_id\":\"1\",\"error\":\x7b\"type\":5\x7d\x7d"

/-- What comes of a call for the first document where a node answers with a body. -/
def outcome (body : Text.Bytes) : Except Failure Document :=
  ((invoke trusting (get .any) firstDocument).run .ofAnswers (notFound body)).1

set_option maxRecDepth 20000 in
/-- An error with its own status is seen, and the call for a document is rejected. Another one is
not seen, and the call is not rejected. -/
theorem errors_are_recognised_of_two :
    (∃ spelling members ending rejection error,
      (Source.ofBytes nestedError).root = .object spelling members ending ∧
      Recognisable members ending (Source.ofBytes nestedError).trailing ∧
      outcome nestedError = .error (.rejected rejection) ∧ rejection.status = 404 ∧
      rejection.serverError = some error ∧ StatusOf members 404 error.status ∧
      error.status = 410) ∧
    ∃ spelling members ending,
      (Source.ofBytes mistypedError).root = .object spelling members ending ∧
      ¬ Recognisable members ending (Source.ofBytes mistypedError).trailing ∧
      ∀ rejection, outcome mistypedError ≠ .error (.rejected rejection) := by
  have hgets : FindsOrMisses (get .any) := .inl ⟨.any, rfl⟩
  constructor
  · have h := @errors_are_recognised _ nestedError _ _ _ rfl
    have hrecognisable := (h.1 404).1.mp ⟨_, rfl⟩
    obtain ⟨sent, hsent, hresult⟩ := h.2 trusting (get .any) firstDocument _ _ _ _ _ hgets rfl
      (runs_run .ofAnswers (invoke trusting (get .any) firstDocument) (notFound nestedError))
    have hsame := @Program.Runs.unique _ _ (findingNothing nestedError) [] _ _ _ _ _ _ _
      (runs_run .ofAnswers (send trusting _) (notFound nestedError)) hsent
      ⟨rfl, rfl, rfl, rfl, trivial⟩ ⟨rfl, rfl, rfl, rfl, trivial⟩
    obtain ⟨rejection, error, hrejected, hstatus, herror, hseen⟩ :=
      (hresult _ hsame.2.1 rfl rfl).1 hrecognisable
    have h410 : error.status = 410 := by
      obtain rfl := Option.some.inj hseen
      rfl
    exact ⟨_, _, _, rejection, error, rfl, hrecognisable, hrejected, hstatus, herror,
      (h.1 404).2 error hseen, h410⟩
  · have h := @errors_are_recognised _ mistypedError _ _ _ rfl
    have hnot := mt (h.1 404).1.mpr (fun ⟨_, hseen⟩ ↦ nomatch hseen)
    obtain ⟨sent, hsent, hresult⟩ := h.2 trusting (get .any) firstDocument _ _ _ _ _ hgets rfl
      (runs_run .ofAnswers (invoke trusting (get .any) firstDocument) (notFound mistypedError))
    have hsame := @Program.Runs.unique _ _ (findingNothing mistypedError) [] _ _ _ _ _ _ _
      (runs_run .ofAnswers (send trusting _) (notFound mistypedError)) hsent
      ⟨rfl, rfl, rfl, rfl, trivial⟩ ⟨rfl, rfl, rfl, rfl, trivial⟩
    exact ⟨_, _, _, rfl, hnot, (hresult _ hsame.2.1 rfl rfl).2 hnot⟩

/-- An error whose status is a text. -/
def wordyStatus : Text.Bytes :=
  Text.Utf8.encode "\x7b\"error\":\"gone\",\"status\":\"404\"\x7d"

set_option maxRecDepth 20000 in
/-- The error is an object, or a text, and is not seen for a value of another kind than its place
demands. So the call for a document finds one, or says that the body cannot be read. -/
theorem mistyped_error_is_overlooked :
    ((parseBytes mistypedError).toOption.bind (get? "error") =
        some (.object [("type", .integer 5)]) ∧
      ofBody? mistypedError 404 = none ∧
      ∃ document, outcome mistypedError = .ok document) ∧
    (parseBytes wordyStatus).toOption.bind (get? "error") = some (.string "gone") ∧
    ofBody? wordyStatus 404 = none ∧
    ∃ fault snippet, outcome wordyStatus = .error (.unreadable fault snippet) :=
  ⟨⟨rfl, rfl, _, rfl⟩, rfl, rfl, _, _, rfl⟩

end SearchClient.Endpoint

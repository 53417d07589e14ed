import SearchClient.Cluster.Send
import SearchClient.Proofs.Program.Steps
import Mathlib.Tactic.SplitIfs

/-!
# Headers that can be sent

Settings and a request may ask for headers. A message can be made only if each of them is a name
with a value that can stand in the head of a message (`Header.isSendable`). Pings and sniffs have
nothing of the request in them and go to a path that every locator takes, so the settings alone
decide whether they can be made (`exists_pingMessage_iff`, `exists_sniffMessage_iff`). The message
of the request itself needs headers of its own that can be sent as well.
-/

set_option autoImplicit false
set_option relaxedAutoImplicit false

namespace SearchClient

/-- A name with a value that can stand in the head of a message. -/
def Header.isSendable (header : String × String) : Bool := isName header.1 && isValue header.2

/-- All headers of the settings can be sent. -/
def Settings.WellHeaded (s : Settings) : Prop :=
  ∀ header ∈ s.headers, Header.isSendable header = true

/-- All headers of a request can be sent, the one with its id among them. -/
structure Overrides.WellHeaded (o : Overrides) : Prop where
  headers : ∀ header ∈ o.headers, Header.isSendable header = true
  opaqueId : ∀ id, o.opaqueId = some id → Header.isValue id = true

/-- A request that changes nothing about the settings asks for no headers. -/
theorem Overrides.wellHeaded_default : Overrides.WellHeaded {} :=
  ⟨by simp, by simp⟩

namespace Message

variable {headers : Headers} {s : Settings} {o : Overrides}

theorem exists_addHeader_iff {name value : String} :
    (∃ added, addHeader headers name value = .ok added) ↔
      Header.isSendable (name, value) = true := by
  unfold addHeader Header.name? Header.isSendable
  cases hname : Header.isName name with
  | false => simp
  | true => cases hvalue : Header.isValue value <;> simp

theorem exists_addHeaders_iff {asked : List (String × String)} :
    (∃ added, addHeaders headers asked = .ok added) ↔
      ∀ header ∈ asked, Header.isSendable header = true := by
  induction asked generalizing headers with
  | nil => simp [addHeaders]
  | cons header asked ih =>
    obtain ⟨name, value⟩ := header
    constructor
    · rintro ⟨added, hadded⟩
      obtain ⟨first, hfirst, hrest⟩ := bind_eq_ok.mp hadded
      exact List.forall_mem_cons.mpr
        ⟨exists_addHeader_iff.mp ⟨first, hfirst⟩, ih.mp ⟨added, hrest⟩⟩
    · intro hall
      obtain ⟨hheader, hasked⟩ := List.forall_mem_cons.mp hall
      obtain ⟨first, hfirst⟩ := exists_addHeader_iff.mpr hheader
      obtain ⟨added, hadded⟩ := ih.mpr hasked
      exact ⟨added, bind_eq_ok.mpr ⟨first, hfirst, hadded⟩⟩

theorem exists_ownHeaders_iff :
    (∃ added, ownHeaders s o = .ok added) ↔ s.WellHeaded ∧ o.WellHeaded := by
  have hname : Header.isName "X-Opaque-Id" = true := by decide
  constructor
  · rintro ⟨added, hadded⟩
    obtain ⟨first, hfirst, hrest⟩ := bind_eq_ok.mp hadded
    obtain ⟨hsettings, hrequest⟩ :=
      List.forall_mem_append.mp (exists_addHeaders_iff.mp ⟨first, hfirst⟩)
    refine ⟨hsettings, hrequest, fun id hid ↦ ?_⟩
    simp only [hid] at hrest
    have hsendable := exists_addHeader_iff.mp ⟨added, hrest⟩
    simpa [Header.isSendable, hname] using hsendable
  · rintro ⟨hsettings, hrequest, hvalue⟩
    obtain ⟨first, hfirst⟩ : ∃ first, addHeaders [] (s.headers ++ o.headers) = .ok first :=
      exists_addHeaders_iff.mpr (List.forall_mem_append.mpr ⟨hsettings, hrequest⟩)
    cases hid : o.opaqueId with
    | none => exact ⟨first, bind_eq_ok.mpr ⟨first, hfirst, by simp only [hid]⟩⟩
    | some id =>
      obtain ⟨added, hadded⟩ : ∃ added, addHeader first "X-Opaque-Id" id = .ok added :=
        exists_addHeader_iff.mpr (by simp [Header.isSendable, hname, hvalue id hid])
      exact ⟨added, bind_eq_ok.mpr ⟨first, hfirst, by simpa only [hid] using hadded⟩⟩

/-- A message that can be made has only headers that can be sent. -/
theorem wellHeaded_of_prepare {node : Url} {method : Method} {path : RequestPath}
    {query : List (String × String)} {payload : Option Payload} {timeout : Nat} {message : Message}
    (h : prepare s node method path query payload o timeout = .ok message) :
    s.WellHeaded ∧ o.WellHeaded := by
  obtain ⟨url, -, h⟩ := bind_eq_ok.mp h
  obtain ⟨headers, hheaders, -⟩ := bind_eq_ok.mp h
  exact exists_ownHeaders_iff.mp ⟨headers, hheaders⟩

/-- A message has the method that it was prepared with. -/
theorem method_of_prepare {node : Url} {method : Method} {path : RequestPath}
    {query : List (String × String)} {payload : Option Payload} {timeout : Nat} {message : Message}
    (h : prepare s node method path query payload o timeout = .ok message) :
    message.method = method := by
  obtain ⟨url, -, h⟩ := bind_eq_ok.mp h
  obtain ⟨own, -, h⟩ := bind_eq_ok.mp h
  obtain ⟨headers, -, h⟩ := bind_eq_ok.mp h
  cases h
  rfl

/-- A message without content to a written path can be made exactly if the headers of the settings
can be sent. -/
theorem exists_prepare_text_iff {node : Url} {method : Method} {path : String}
    {query : List (String × String)} {timeout : Nat} :
    (∃ message, prepare s node method (.text path) query none {} timeout = .ok message) ↔
      s.WellHeaded := by
  constructor
  · rintro ⟨message, h⟩
    exact (wellHeaded_of_prepare h).1
  · intro hsettings
    obtain ⟨headers, hheaders⟩ :=
      exists_ownHeaders_iff.mpr ⟨hsettings, Overrides.wellHeaded_default⟩
    unfold prepare
    simp only [place, RequestPath.below, hheaders, contentHeaders]
    exact ⟨_, rfl⟩

end Message

namespace Send

variable {s : Settings} {node : Url} {timeout : Nat} {c : Course}

/-- The headers that a request asks for, and those of the settings, cannot all be sent. -/
def Misheaded (s : Settings) (r : Request) : Prop :=
  ¬ (s.WellHeaded ∧ r.overrides.WellHeaded)

theorem exists_pingMessage_iff :
    (∃ message, pingMessage s node timeout = .ok message) ↔ s.WellHeaded :=
  Message.exists_prepare_text_iff

theorem exists_sniffMessage_iff :
    (∃ message, sniffMessage s node timeout = .ok message) ↔ s.WellHeaded :=
  Message.exists_prepare_text_iff

theorem Misheaded.not_messageTo (h : Misheaded c.settings c.request) {message : Message} :
    messageTo c node ≠ .ok message :=
  fun hmessage ↦ h (Message.wellHeaded_of_prepare hmessage)

end Send

end SearchClient

import SearchClient.Config.Resolve
import SearchClient.Endpoint.Cluster
import SearchClient.Proofs.Cluster.ExactSniff
import SearchClient.Proofs.Cluster.Headers
import Mathlib.Data.List.Forall2

/-!
# Nodes that are accepted

A configuration names its nodes by texts, and is accepted if each of them is a locator. A call needs
more than that of the locator of its node: a path that segments can be put below. `Url.SpellsPath`
tells from a text whether its locator has one. It has if its scheme is one of the web or a slash
stands behind its colon; a host with a port and no scheme in front is read as a scheme with a colon,
and has none.

So of the nodes of an accepted configuration exactly those whose texts spell a path get the message
of a call (`ClientConfig.accepted_nodes_get_calls`); for the others the configuration is found to be
bad when the call is made.
-/

set_option autoImplicit false
set_option relaxedAutoImplicit false

namespace SearchClient

/-! ### Texts that spell a path -/

namespace Url

variable {scheme text : String} {cs : List Char} {url : Url}

/-- A text as it is read as a locator: without blanks at its ends, tabs and line breaks. -/
def spelled (text : String) : List Char :=
  (((text.toList.dropWhile isEdge).reverse.dropWhile isEdge).reverse).filter (!isSkipped ·)

/-- A scheme of the web stands in front of the colon, or a slash behind it. -/
def SpellsPath (text : String) : Prop :=
  ∃ scheme rest, splitScheme (spelled text) = some (scheme, rest) ∧
    (isWebScheme scheme = true ∨ rest.head? = some '/')

/-- The path of a locator has segments. -/
def HasSegments (url : Url) : Prop := ∃ items, url.path = .segments items

theorem exists_extend_iff {values : List String} :
    (∃ extended, url.extend values = some extended) ↔ url.HasSegments := by
  unfold extend HasSegments
  cases url.path with
  | plain text => simp
  | segments items => simp

theorem hasSegments_of_readHierarchical [Domain.Spelling]
    (h : readHierarchical scheme cs = .ok url) : url.HasSegments := by
  unfold readHierarchical at h
  obtain ⟨authority, -, h⟩ := bind_eq_ok.mp h
  cases h
  simp only [HasSegments, readPath]
  split
  · exact ⟨_, rfl⟩
  · split
    · exact ⟨_, rfl⟩
    · exact ⟨_, rfl⟩

/-- Without an authority, a path has segments if it begins with a slash. -/
theorem hasSegments_readPlain_iff : (readPlain scheme cs).HasSegments ↔ cs.head? = some '/' := by
  cases cs with
  | nil => simp [readPlain, breakAt, HasSegments]
  | cons c cs =>
    by_cases hc : c = '/'
    · subst hc
      simp [readPlain, breakAt, HasSegments]
    · simp only [List.head?_cons, Option.some.injEq, hc, iff_false]
      rintro ⟨items, hitems⟩
      unfold readPlain at hitems
      simp only [breakAt] at hitems
      split at hitems
      · rename_i rest hpath
        rw [List.takeWhile_cons] at hpath
        split at hpath
        · exact hc (List.cons.inj hpath).1
        · cases hpath
      · cases hitems

/-- The path of a locator has segments exactly if its text spells a path. -/
theorem hasSegments_iff [Domain.Spelling] (h : parse text = .ok url) :
    url.HasSegments ↔ SpellsPath text := by
  have hspells {scheme : String} {rest : List Char}
      (hsplit : splitScheme (spelled text) = some (scheme, rest)) :
      SpellsPath text ↔ isWebScheme scheme = true ∨ rest.head? = some '/' := by
    simp [SpellsPath, hsplit]
  -- Files and locators of the web are always read with segments. Of the others only those that have
  -- no authority may be plain, and then the character behind the colon decides.
  unfold parse at h
  simp only at h
  split at h
  · cases h
  · rename_i rest hsplit
    obtain ⟨-, items, -, hitems, -⟩ := hierarchical_of_readFile h
    simp [hspells hsplit, isWebScheme, HasSegments, hitems]
  · rename_i scheme rest _ hsplit
    rw [hspells hsplit]
    split_ifs at h with hweb
    · simp [hweb, hasSegments_of_readHierarchical h]
    · split at h
      · simp [hasSegments_of_readHierarchical h]
      · cases h
        simp [hweb, hasSegments_readPlain_iff]

end Url

/-! ### Messages to such nodes -/

namespace Send

variable {c : Course} {node : Url} {values : List String}

/-- The headers about the content of a message are fit to be sent if the type of its body is. -/
theorem exists_contentHeaders {s : Settings} {payload : Option Payload} {headers : Headers}
    (h : ∀ p, payload = some p → Header.isValue p.contentType = true) :
    ∃ added, Message.contentHeaders s payload headers = .ok added := by
  unfold Message.contentHeaders
  cases payload with
  | none => exact ⟨_, rfl⟩
  | some p =>
    have hname : Header.isName "Content-Type" = true := by decide
    have hsendable : Header.isSendable ("Content-Type", p.contentType) = true := by
      rw [Header.isSendable, hname, h p rfl]
      rfl
    obtain ⟨added, hadded⟩ := Message.exists_addHeader_iff.mpr hsendable
    exact ⟨_, bind_eq_ok.mpr ⟨added, hadded, rfl⟩⟩

/-- All headers of a course can be sent. -/
structure Course.WellHeaded (c : Course) : Prop where
  settings : c.settings.WellHeaded
  overrides : c.request.overrides.WellHeaded
  content : ∀ p, c.payload = some p → Header.isValue p.contentType = true

theorem exists_messageTo (hheaders : Course.WellHeaded c) (hpath : c.request.path = .values values)
    (hnode : node.HasSegments) : ∃ message, messageTo c node = .ok message := by
  obtain ⟨url, hurl⟩ : ∃ url, node.extend values = some url := Url.exists_extend_iff.mpr hnode
  have hplace : Message.place node c.request.path = .ok url := by
    simp [Message.place, hpath, RequestPath.below, hurl]
  obtain ⟨own, hown⟩ :=
    Message.exists_ownHeaders_iff.mpr ⟨hheaders.settings, hheaders.overrides⟩
  obtain ⟨all, hall⟩ : ∃ all, Message.contentHeaders c.settings c.payload own = .ok all :=
    exists_contentHeaders hheaders.content
  unfold messageTo Message.prepare
  rw [hplace, hown]
  simp only [Except.bind, bind, hall]
  exact ⟨_, rfl⟩

theorem messageTo_of_plain (hpath : c.request.path = .values values) (hnode : ¬ node.HasSegments) :
    messageTo c node = .error (.pathless node.text) := by
  have hnone : node.extend values = none := by
    rw [← Option.not_isSome_iff_eq_none, Option.isSome_iff_exists, Url.exists_extend_iff]
    exact hnode
  have hplace : Message.place node c.request.path = .error (.pathless node.text) := by
    simp [Message.place, hpath, RequestPath.below, hnone]
  unfold messageTo Message.prepare
  rw [hplace]
  rfl

end Send

/-- The path of a call's request is one of values. -/
theorem Endpoint.exists_values_of_request {e : Endpoint} {call : Call} {r : Request}
    (h : e.request call = .ok r) : ∃ values, r.path = .values values := by
  unfold Endpoint.request at h
  split at h
  · cases h
  · split at h
    · cases h
    · cases h
      exact ⟨_, rfl⟩

/-! ### Configurations -/

/-- A pool that was made has the nodes that it was made of. -/
theorem Pool.nodes_of_make {kind : PoolKind} {urls : List Url} {pool : Pool}
    (h : make kind urls = .ok pool) : pool.nodes = urls.map fun url ↦ { url := url } := by
  unfold make at h
  split_ifs at h
  cases h
  have hall := filterMap_range'_append [] (urls.map fun url ↦ ({ url := url } : Node))
  rw [List.length_map, List.length_nil, List.nil_append, ← List.range_eq_range'] at hall
  rw [nodes_eq]
  exact hall

namespace ClientConfig

variable {c : ClientConfig} {s : Settings} {pool : Pool}

section Spelled

variable [Url.Domain.Spelling]

theorem parseNodes_spec {texts : List String} {urls : List Url} (h : parseNodes texts = .ok urls) :
    List.Forall₂ (fun text url ↦ Url.parse text = .ok url) texts urls := by
  induction texts generalizing urls with
  | nil =>
    cases h
    exact .nil
  | cons text texts ih =>
    simp only [parseNodes] at h
    cases hurl : Url.parse text with
    | error flaw =>
      rw [hurl] at h
      cases h
    | ok url =>
      rw [hurl] at h
      cases hrest : parseNodes texts with
      | error failure =>
        rw [hrest] at h
        cases h
      | ok rest =>
        rw [hrest] at h
        cases h
        exact .cons hurl (ih hrest)

theorem connect_spec (h : c.connect = .ok (s, pool)) :
    ∃ urls, parseNodes c.nodes = .ok urls ∧ Pool.make c.poolKind urls = .ok pool := by
  obtain ⟨settings, -, h⟩ := bind_eq_ok.mp h
  obtain ⟨urls, hurls, h⟩ := bind_eq_ok.mp h
  obtain ⟨made, hmade, h⟩ := bind_eq_ok.mp h
  split_ifs at h
  cases h
  refine ⟨urls, ?_, ?_⟩
  · unfold nodeUrls at hurls
    split_ifs at hurls
    exact hurls
  · unfold makePool at hmade
    split at hmade
    · cases hmade
      assumption
    · cases hmade

/-- A configuration is accepted, and all headers of a call can be sent. Each text that names a node
is the locator of one. If it spells a path, the message of the call can be made for the node; if
not, it cannot, and the locator is blamed. -/
theorem accepted_nodes_get_calls (hconnect : c.connect = .ok (s, pool)) {e : Endpoint} {call : Call}
    {r : Request} (hrequest : e.request call = .ok r) (began : Nat)
    (hheaders : (Send.courseOf s r pool began).WellHeaded) :
    List.Forall₂ (fun text node ↦ Url.parse text = .ok node.url ∧
      (Url.SpellsPath text →
        ∃ message, Send.messageTo (Send.courseOf s r pool began) node.url = .ok message) ∧
      (¬ Url.SpellsPath text → Send.messageTo (Send.courseOf s r pool began) node.url =
        .error (.pathless node.url.text))) c.nodes pool.nodes := by
  obtain ⟨urls, hurls, hmake⟩ := connect_spec hconnect
  obtain ⟨values, hvalues⟩ := Endpoint.exists_values_of_request hrequest
  rw [Pool.nodes_of_make hmake, List.forall₂_map_right_iff]
  refine (parseNodes_spec hurls).imp fun text url hurl ↦ ⟨hurl, fun hspells ↦ ?_, fun hnot ↦ ?_⟩
  · exact Send.exists_messageTo hheaders hvalues ((Url.hasSegments_iff hurl).mpr hspells)
  · exact Send.messageTo_of_plain hvalues (mt (Url.hasSegments_iff hurl).mp hnot)

end Spelled

/-- The settings and the pool of a configuration, if it is accepted. -/
def client (c : ClientConfig) : Settings × Pool := c.connect.toOption.getD default

/-- A call asks for the health of the cluster. -/
def healthRequest : Request := (Endpoint.Cluster.health.request {}).toOption.getD default

/-- The call goes to a node of a configuration. -/
def healthCourse (c : ClientConfig) : Send.Course :=
  Send.courseOf c.client.1 healthRequest c.client.2 0

/-- One node is named with its scheme, the other one by host and port. -/
def halfSpelled : ClientConfig := { nodes := ["http://localhost:9200", "localhost:9200"] }

/-- Of two nodes that are accepted, only the one with a scheme of the web gets a call. -/
theorem accepted_nodes_get_calls_of_half :
    halfSpelled.connect = .ok (halfSpelled.client.1, halfSpelled.client.2) ∧
    Endpoint.Cluster.health.request {} = .ok healthRequest ∧ halfSpelled.healthCourse.WellHeaded ∧
    ∃ first second, halfSpelled.client.2.nodes = [first, second] ∧
      (∃ message, Send.messageTo halfSpelled.healthCourse first.url = .ok message) ∧
      Send.messageTo halfSpelled.healthCourse second.url = .error (.pathless second.url.text) := by
  have hconnect : halfSpelled.connect = .ok (halfSpelled.client.1, halfSpelled.client.2) := rfl
  have hrequest : Endpoint.Cluster.health.request {} = .ok healthRequest := rfl
  have hheaders : halfSpelled.healthCourse.WellHeaded :=
    ⟨List.forall_mem_nil _, Overrides.wellHeaded_default, nofun⟩
  have hspells : Url.SpellsPath "http://localhost:9200" :=
    ⟨"http", "//localhost:9200".toList, by decide, .inl (by decide)⟩
  have hnot : ¬ Url.SpellsPath "localhost:9200" := by
    rintro ⟨scheme, rest, hsplit, hpath⟩
    have hread : Url.splitScheme (Url.spelled "localhost:9200") =
      some ("localhost", "9200".toList) := by decide
    rw [hread] at hsplit
    cases hsplit
    revert hpath
    decide
  have hnodes := accepted_nodes_get_calls hconnect hrequest 0 hheaders
  cases hnodes with
  | cons hfirst hrest =>
    cases hrest with
    | cons hsecond hnone =>
      cases hnone
      exact ⟨hconnect, hrequest, hheaders, _, _, rfl, hfirst.2.1 hspells, hsecond.2.2 hnot⟩

/-- The only node is named by host and port. -/
def hostAndPort : ClientConfig := { nodes := ["localhost:9200"] }

/-- A configuration whose only node is named by host and port is accepted, and no call can be made
with it. -/
theorem host_and_port_get_no_call :
    hostAndPort.connect = .ok (hostAndPort.client.1, hostAndPort.client.2) ∧
    Endpoint.Cluster.health.request {} = .ok healthRequest ∧ hostAndPort.healthCourse.WellHeaded ∧
    ∃ node, hostAndPort.client.2.nodes = [node] ∧
      ¬ ∃ message, Send.messageTo hostAndPort.healthCourse node.url = .ok message := by
  refine ⟨rfl, rfl, ⟨List.forall_mem_nil _, Overrides.wellHeaded_default, nofun⟩, _, rfl, ?_⟩
  rintro ⟨message, hmessage⟩
  cases hmessage

end ClientConfig

end SearchClient

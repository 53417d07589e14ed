import SearchClient.Proofs.Cluster.Headers
import SearchClient.Proofs.Text.Form

/-!
# Parameters arrive as they were given

The parameters of a message stand in the query of its locator as a form. A node whose own locator
has no query gets exactly the parameters of the settings, those of the request, and the wish for
readable answers where nothing else is said about it (`Message.parameters_arrive`). Whether a
message can be made does not depend on them (`Message.exists_prepare_iff`). A path that brings its
own query says the same as the pairs that the query was made of.
-/

set_option autoImplicit false
set_option relaxedAutoImplicit false

namespace SearchClient

open Text

/-- The pairs in the query of a locator. -/
def Url.pairs (url : Url) : List (String × String) :=
  Form.decode (url.query.getD "").toList

/-- Pairs that are added to a locator without a query are its pairs. -/
theorem Url.pairs_addPairs {url : Url} (h : url.query.getD "" = "")
    (pairs : List (String × String)) : (url.addPairs pairs).pairs = pairs := by
  have hquery : (url.addPairs pairs).query = some (String.ofList (Form.encode pairs)) := by
    unfold addPairs
    split
    · rfl
    · rfl
    · rename_i query hne hsome
      rw [hsome] at h
      exact absurd h hne
  rw [Url.pairs, hquery, Option.getD_some, String.toList_ofList, Form.decode_encode]

/-- The path that a request names changes nothing about the query of a locator. -/
theorem RequestPath.query_below {path : RequestPath} {node url : Url}
    (h : path.below node = some url) : url.query = node.query := by
  cases path with
  | text path =>
    cases h
    rfl
  | values segments =>
    simp only [below, Url.extend] at h
    split at h
    · cases h
    · cases h
      rfl

namespace Message

variable {s : Settings} {o : Overrides} {node url : Url} {method : Method} {path : RequestPath}
  {query : List (String × String)} {payload : Option Payload} {timeout : Nat} {message : Message}

theorem place_eq_ok : place node path = .ok url ↔ path.below node = some url := by
  unfold place
  split <;> simp_all

/-- The content of a message has a type that can stand in its head. -/
theorem exists_contentHeaders_iff {headers : Headers} :
    (∃ added, contentHeaders s payload headers = .ok added) ↔
      ∀ p, payload = some p → Header.isValue p.contentType = true := by
  have hname : Header.isName "Content-Type" = true := by decide
  cases payload with
  | none => simp [contentHeaders]
  | some p =>
    constructor
    · rintro ⟨added, hadded⟩ _ ⟨⟩
      obtain ⟨first, hfirst, -⟩ := bind_eq_ok.mp hadded
      simpa [Header.isSendable, hname] using exists_addHeader_iff.mp ⟨first, hfirst⟩
    · intro h
      obtain ⟨first, hfirst⟩ := exists_addHeader_iff.mpr
        (show Header.isSendable ("Content-Type", p.contentType) = true by
          simp [Header.isSendable, hname, h p rfl])
      exact ⟨_, bind_eq_ok.mpr ⟨first, hfirst, rfl⟩⟩

/-- A message can be made where its path and its headers can be sent, whatever its parameters. -/
theorem exists_prepare_iff :
    (∃ message, prepare s node method path query payload o timeout = .ok message) ↔
      (∃ url, path.below node = some url) ∧ s.WellHeaded ∧ o.WellHeaded ∧
        ∀ p, payload = some p → Header.isValue p.contentType = true := by
  constructor
  · rintro ⟨message, h⟩
    obtain ⟨hsettings, hrequest⟩ := wellHeaded_of_prepare h
    obtain ⟨url, hurl, h⟩ := bind_eq_ok.mp h
    obtain ⟨own, -, h⟩ := bind_eq_ok.mp h
    obtain ⟨headers, hheaders, -⟩ := bind_eq_ok.mp h
    exact ⟨⟨url, place_eq_ok.mp hurl⟩, hsettings, hrequest,
      exists_contentHeaders_iff.mp ⟨headers, hheaders⟩⟩
  · rintro ⟨⟨url, hurl⟩, hsettings, hrequest, htype⟩
    obtain ⟨own, hown⟩ := exists_ownHeaders_iff.mpr ⟨hsettings, hrequest⟩
    obtain ⟨headers, hheaders⟩ : ∃ headers, contentHeaders s payload own = .ok headers :=
      exists_contentHeaders_iff.mpr htype
    exact ⟨_, bind_eq_ok.mpr ⟨url, place_eq_ok.mpr hurl,
      bind_eq_ok.mpr ⟨own, hown, bind_eq_ok.mpr ⟨headers, hheaders, rfl⟩⟩⟩⟩

/-- The locator of a message is that of its path, with its parameters added if there are any. -/
theorem url_of_prepare
    (h : prepare s node method path query payload o timeout = .ok message) :
    ∃ url, path.below node = some url ∧ message.url =
      if (parameters s query).isEmpty then url else url.addPairs (parameters s query) := by
  obtain ⟨url, hurl, h⟩ := bind_eq_ok.mp h
  obtain ⟨own, -, h⟩ := bind_eq_ok.mp h
  obtain ⟨headers, -, h⟩ := bind_eq_ok.mp h
  cases h
  exact ⟨url, place_eq_ok.mp hurl, rfl⟩

/-- The wish for readable answers comes last, unless the request has a parameter of that name. -/
theorem parameters_eq : parameters s query = s.query ++ query ++
    if s.prettyJson = true ∧ "pretty" ∉ query.map Prod.fst then [("pretty", "true")] else [] := by
  have hwish : (s.prettyJson && !query.any (·.1 == "pretty")) = true ↔
      s.prettyJson = true ∧ "pretty" ∉ query.map Prod.fst := by
    have hasked : query.any (·.1 == "pretty") = true ↔ "pretty" ∈ query.map Prod.fst := by
      simp only [List.any_eq_true, List.mem_map, beq_iff_eq]
    rw [Bool.and_eq_true, Bool.not_eq_true', ← Bool.not_eq_true, hasked]
  simp only [parameters, hwish]

/-- A message for a node without a query of its own carries the parameters of the settings, those of
the request, and the wish for readable answers, in this order, and no query where there are none.
Whether it can be made does not depend on them. A path with a query behind it stands for the pairs
that the query was made of. -/
theorem parameters_arrive (hnode : node.query.getD "" = "") :
    (∀ message, prepare s node method path query payload o timeout = .ok message →
      message.url.pairs = s.query ++ query ++ (if s.prettyJson = true ∧
        "pretty" ∉ query.map Prod.fst then [("pretty", "true")] else []) ∧
      (message.url.pairs = [] → message.url.query = node.query)) ∧
    ((∃ message, prepare s node method path query payload o timeout = .ok message) ↔
      (∃ url, path.below node = some url) ∧ s.WellHeaded ∧ o.WellHeaded ∧
        ∀ p, payload = some p → Header.isValue p.contentType = true) ∧
    ∀ (written : String) (pairs : List (String × String)), '?' ∉ written.toList →
      let r := Request.of method (written ++ "?" ++ String.ofList (Form.encode pairs))
      r.path = .text written ∧ r.query = pairs := by
  refine ⟨fun message h ↦ ?_, exists_prepare_iff, fun written pairs hwritten ↦ ?_⟩
  · obtain ⟨url, hurl, hmessage⟩ := url_of_prepare h
    have hquery := RequestPath.query_below hurl
    rw [← parameters_eq]
    split_ifs at hmessage with hnone
    · rw [List.isEmpty_iff.mp hnone, hmessage, hquery]
      refine ⟨?_, fun _ ↦ rfl⟩
      rw [Url.pairs, hquery, hnode]
      rfl
    · have hpairs : message.url.pairs = parameters s query := by
        rw [hmessage, Url.pairs_addPairs (hquery ▸ hnode)]
      refine ⟨hpairs, fun hempty ↦ ?_⟩
      rw [← hpairs, hempty] at hnone
      exact absurd rfl hnone
  · have hcut : splitFirst '?' (written ++ "?" ++ String.ofList (Form.encode pairs)).toList =
        some (written.toList, Form.encode pairs) := by
      have hform : (String.ofList (Form.encode pairs)).toList = Form.encode pairs :=
        String.toList_ofList
      rw [String.toList_append, String.toList_append, List.append_assoc, hform]
      exact splitFirst_append hwritten _
    simp only [Request.of, hcut, Form.decode_encode, String.ofList_toList, and_self]

/-- Settings with a parameter for every request, and the wish for readable answers. -/
def wishful : Settings := { prettyJson := true, query := [("who", "you & me")] }

/-- A node without a query. -/
def plainNode : Url :=
  { scheme := "http", authority := some { host := .name "localhost", port := some 9200 }
    path := .segments [""] }

/-- Signs of the form itself, blanks, letters beyond ASCII and empty values arrive, each parameter
as often as it was given. -/
theorem parameters_arrive_of_five : plainNode.query.getD "" = "" ∧ ∃ message,
    prepare wishful plainNode .get (.text "/_search") [("q", "a+b=ü"), ("q", ""), ("", "")] none {}
      0 = .ok message ∧
    message.url.text =
      "http://localhost:9200/_search?who=you+%26+me&q=a%2Bb%3D%C3%BC&q=&=&pretty=true" ∧
    message.url.pairs = [("who", "you & me"), ("q", "a+b=ü"), ("q", ""), ("", ""),
      ("pretty", "true")] ∧
    (Request.of .get "/_search?q=a%2Bb%3D%C3%BC&q=&=").query =
      [("q", "a+b=ü"), ("q", ""), ("", "")] := by
  obtain ⟨harrive, -, hwritten⟩ := @parameters_arrive wishful {} plainNode .get (.text "/_search")
    [("q", "a+b=ü"), ("q", ""), ("", "")] none 0 rfl
  refine ⟨rfl, _, rfl, rfl, (harrive _ rfl).1, ?_⟩
  exact (hwritten "/_search" [("q", "a+b=ü"), ("q", ""), ("", "")] (by decide)).2

end Message

end SearchClient

import SearchClient.Endpoint.Documents
import SearchClient.Proofs.Program.Runs
import SearchClient.Proofs.Request.BulkBody

/-!
# Calls with many writes

However a call with many writes is put together, its route can be resolved, so only its body can
keep it from being sent (`BulkCall.perform_of_error`): then the call gives the fault of the first
source that cannot be written, and does nothing else. `bulk_body_decodes` joins this to what becomes
of a body that can be written.
-/

set_option autoImplicit false
set_option relaxedAutoImplicit false

namespace SearchClient.Endpoint

open BulkOperation

variable {c : Call} {ops : List BulkOperation}

/-- A call with many writes as a caller puts it together, and the writes that it was given. -/
inductive BulkCall : Call → List BulkOperation → Prop where
  | blank : BulkCall bulk.blank []
  | set {c : Call} {ops : List BulkOperation} (call : BulkCall c ops) {setter : Setter}
    (known : setter ∈ bulk.takes ++ Call.commonSetters) (value : Parameter) :
    BulkCall (c.set setter.place value) ops
  | param {c : Call} {ops : List BulkOperation} (call : BulkCall c ops) (key : String)
    (value : Parameter) : BulkCall (c.set (.query key) value) ops
  | push {c : Call} {ops : List BulkOperation} (call : BulkCall c ops)
    (more : List BulkOperation) : BulkCall (c.push more) (ops ++ more)
  | override {c : Call} {ops : List BulkOperation} (call : BulkCall c ops)
    (overrides : Option Overrides) : BulkCall { c with overrides := overrides } ops

/-- The only place of the path that a value can be given for. -/
theorem route_of_bulk_setter {setter : Setter} {key : String}
    (known : setter ∈ bulk.takes ++ Call.commonSetters) (h : setter.place = .route key) :
    key = "index" := by
  simp only [bulk, Call.commonSetters, sourceFilters, List.mem_append, List.mem_cons,
    List.not_mem_nil, or_false] at known
  casesm* _ ∨ _ <;> subst known <;> cases h
  all_goals rfl

theorem keys_set (values : RouteValues) (key value : String) :
    ∀ k ∈ (values.set key value).keys, k = key ∨ k ∈ values.keys := by
  intro k hk
  unfold RouteValues.set at hk
  split_ifs at hk with hempty
  · obtain ⟨pair, hpair, rfl⟩ := List.mem_map.mp hk
    exact .inr (List.mem_map_of_mem (List.mem_of_mem_filter hpair))
  · obtain ⟨pair, hpair, rfl⟩ := List.mem_map.mp hk
    obtain rfl | hpair := Json.mem_insertMember hpair
    · exact .inl rfl
    · exact .inr (List.mem_map_of_mem hpair)

theorem BulkCall.content (h : BulkCall c ops) : c.content = .operations ops := by
  induction h with
  | blank => rfl
  | @set c ops call setter known value ih =>
    rw [← ih]
    unfold Call.set
    cases setter.place <;> rfl
  | param call key value ih => exact ih
  | push call more ih => rw [Call.push, ih]
  | override call overrides ih => exact ih

theorem BulkCall.keys (h : BulkCall c ops) : ∀ key ∈ c.route.keys, key = "index" := by
  induction h with
  | blank => exact nofun
  | @set c ops call setter known value ih =>
    unfold Call.set
    split
    · rename_i key hplace
      obtain rfl := route_of_bulk_setter known hplace
      intro k hk
      obtain rfl | hk := keys_set _ _ _ k hk
      · rfl
      · exact ih k hk
    · exact ih
  | param call key value ih => exact ih
  | push call more ih =>
    rw [Call.push, call.content]
    exact ih
  | override call overrides ih => exact ih

/-- The route of a call can be resolved. -/
theorem BulkCall.exists_resolve (h : BulkCall c ops) :
    ∃ segments, bulk.table.resolve c.route = .ok segments := by
  have hfits : ∃ t ∈ bulk.table.templates, c.route.Fits t := by
    by_cases hindex : "index" ∈ c.route.keys
    · refine ⟨.of [slot "index", "_bulk"], List.mem_cons_self, ?_, fun key hkey ↦ ?_⟩
      · exact List.forall_mem_singleton.mpr hindex
      · exact List.mem_singleton.mpr (h.keys key hkey)
    · refine ⟨.of ["_bulk"], List.mem_cons_of_mem _ List.mem_cons_self, nofun, fun key hkey ↦ ?_⟩
      exact absurd (h.keys key hkey ▸ hkey) hindex
  obtain ⟨t, ht, hfits⟩ := hfits
  unfold RouteTable.resolve
  cases hfind : bulk.table.templates.find? fun t ↦ decide (c.route.Fits t) with
  | some t => exact ⟨_, rfl⟩
  | none => exact absurd (decide_eq_true hfits) (List.find?_eq_none.mp hfind t ht)

/-- A call whose writes cannot be written gives the fault and does nothing. -/
theorem BulkCall.perform_of_error [Url.Domain.Spelling] (h : BulkCall c ops) {fault : Json.Fault}
    (hfault : render ops = .error fault) (s : Settings) :
    perform s bulk c = pure (.error (.body fault)) := by
  obtain ⟨segments, hsegments⟩ := h.exists_resolve
  have hrequest : bulk.request c = .error (.body fault) := by
    rw [request, hsegments, h.content, Content.body?, hfault]
    rfl
  rw [perform, hrequest]

/-- Operations can be written exactly if every source of more than one line is JSON. The body is
then lines without breaks in them, each ended, and a reader finds in it the action, the data and the
source of each operation. Otherwise every call with these operations, in every run, gives the fault
of the body, sends nothing and leaves the pool as it is. -/
theorem bulk_body_decodes [Url.Domain.Spelling] (built : ∀ op ∈ ops, Built op) :
    ((∃ body, render ops = .ok body) ↔
        ∀ op ∈ ops, ∀ text, op.source = some (.spelled text) → Broken text →
          ∃ j, Json.parse text = .ok j) ∧
      (∀ body, render ops = .ok body →
        (∃ lines : List String, body = String.join (lines.map (· ++ "\n")) ∧
          ∀ line ∈ lines, ¬ Broken line) ∧
        ∃ entries, readBody body = some entries ∧ List.Forall₂ Recovered ops entries) ∧
      ∀ fault, render ops = .error fault → ∀ c, BulkCall c ops →
        ∀ settings shared deeds result shared',
          (perform settings bulk c).Runs shared deeds result shared' ↔
            deeds = [] ∧ result = .error (.body fault) ∧ shared' = shared := by
  refine ⟨?_, fun body hbody ↦ ⟨?_, readBody_render built hbody⟩,
    fun fault hfault c hcall settings shared deeds result shared' ↦ ?_⟩
  · rw [← exists_allLines_iff]
    simp only [render_eq_ok]
    exact ⟨fun ⟨_, lines, hlines, _⟩ ↦ ⟨lines, hlines⟩,
      fun ⟨lines, hlines⟩ ↦ ⟨_, lines, hlines, rfl⟩⟩
  · obtain ⟨lines, hlines, rfl⟩ := render_eq_ok.mp hbody
    exact ⟨lines, rfl, not_broken_of_allLines hlines⟩
  · rw [hcall.perform_of_error hfault settings, Program.runs_pure]

/-- A source on two lines and a deletion are found again. -/
theorem bulk_body_decodes_of_two : ∃ body entries,
    render [.index (.spelled "[\n7]"), .delete "7"] = .ok body ∧ readBody body = some entries ∧
      List.Forall₂ Recovered [.index (.spelled "[\n7]"), .delete "7"] entries := by
  have hbody : render [.index (.spelled "[\n7]"), .delete "7"] = .ok
      "\x7b\"index\":\x7b\x7d\x7d\n[7]\n\x7b\"delete\":\x7b\"_id\":\"7\"\x7d\x7d\n" := by
    decide +kernel
  have hbuilt : ∀ op ∈ [BulkOperation.index (.spelled "[\n7]"), .delete "7"], Built op :=
    List.forall_mem_cons.mpr ⟨.index _, List.forall_mem_singleton.mpr (.delete _)⟩
  obtain ⟨entries, hentries⟩ := ((bulk_body_decodes hbuilt).2.1 _ hbody).2
  exact ⟨_, entries, hbody, hentries⟩

end SearchClient.Endpoint

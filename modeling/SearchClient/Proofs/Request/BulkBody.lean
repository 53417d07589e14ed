import SearchClient.Proofs.Json.Values
import SearchClient.Proofs.Text.Split
import SearchClient.Request.Bulk
import Mathlib.Data.List.Forall2
import Mathlib.Data.Option.Basic

/-!
# Bulk bodies are read back

A reader that takes the lines of a body in turn, one for the action and one for its source, none
after a deletion, finds the operations again (`readBody_render`): each with its action and all data
about it, and with its source on one line (`SourceLine`). It relies on two things. No line has a
line break in it, since a compact text has none and a source that has one is written anew. And the
data about an operation are texts and integers, so the line of an action is read as it was printed.
-/

set_option autoImplicit false
set_option relaxedAutoImplicit false

namespace SearchClient

/-- The action of a name. -/
def BulkAction.ofName? (name : String) : Option BulkAction :=
  if name = "index" then some .index
  else if name = "create" then some .create
  else if name = "update" then some .update
  else if name = "delete" then some .delete
  else none

theorem BulkAction.ofName?_name (action : BulkAction) : ofName? action.name = some action := by
  cases action <;> decide

namespace BulkOperation

open Json Text

/-! ### Operations and their lines -/

/-- An operation that was made and told about as a caller can: data about it are texts and integers
of sixty-four bits. -/
inductive Built : BulkOperation → Prop where
  | index (source : BulkSource) : Built (.index source)
  | create (source : BulkSource) : Built (.create source)
  | update (id : String) (source : BulkSource) : Built (.update id source)
  | delete (id : String) : Built (.delete id)
  | text {op : BulkOperation} (built : Built op) (key value : String) :
    Built (op.withMeta key (.string value))
  | integer {op : BulkOperation} (built : Built op) (key : String) {i : Int}
    (least : leastSigned ≤ i) (greatest : i ≤ greatestSigned) :
    Built (op.withMeta key (.integer i))

/-- A text of more than one line. -/
def Broken (text : String) : Prop := '\n' ∈ text.toList ∨ '\r' ∈ text.toList

/-- The line that stands for a source. -/
inductive SourceLine : BulkSource → String → Prop where
  | untouched {text : String} (single : ¬ Broken text) : SourceLine (.spelled text) text
  | squashed {text : String} {j : Json} (broken : Broken text) (read : Json.parse text = .ok j) :
    SourceLine (.spelled text) j.compact
  | document (j : Json) : SourceLine (.document j) j.compact

/-- What a reader finds of an operation. -/
structure Entry where
  action : BulkAction
  metadata : List (String × Json)
  source : Option String

/-- An operation and what a reader finds of it. -/
structure Recovered (op : BulkOperation) (entry : Entry) : Prop where
  action : entry.action = op.action
  metadata : entry.metadata = op.metadata
  source : Option.Rel SourceLine op.source entry.source

/-! ### The reader -/

/-- The lines of a text, each of them ended. -/
def endedLines? (text : String) : Option (List String) :=
  let pieces := split '\n' text.toList
  if pieces.getLast? = some [] then some (pieces.dropLast.map String.ofList) else none

/-- The action on a line, and the data about it. -/
def readAction (line : String) : Option (BulkAction × List (String × Json)) :=
  match Json.parse line with
  | .ok (.object [(name, .object metadata)]) => (BulkAction.ofName? name).map (·, metadata)
  | _ => none

/-- Lines read in turn: one for an action, and one for its source unless it is a deletion. -/
def readEntries : List String → Option (List Entry)
  | [] => some []
  | line :: rest =>
    match readAction line with
    | none => none
    | some (.delete, metadata) =>
      (readEntries rest).map (⟨.delete, metadata, none⟩ :: ·)
    | some (action, metadata) =>
      match rest with
      | [] => none
      | source :: rest => (readEntries rest).map (⟨action, metadata, some source⟩ :: ·)

/-- A body read line by line. -/
def readBody (body : String) : Option (List Entry) := (endedLines? body).bind readEntries

/-! ### Lines without breaks -/

theorem breaksLine_iff {text : String} : breaksLine text = true ↔ Broken text := by
  simp only [breaksLine, Broken, List.any_eq_true, Bool.or_eq_true, beq_iff_eq]
  constructor
  · rintro ⟨c, hc, rfl | rfl⟩
    · exact .inl hc
    · exact .inr hc
  · rintro (h | h)
    · exact ⟨_, h, .inl rfl⟩
    · exact ⟨_, h, .inr rfl⟩

theorem not_broken_compact (j : Json) : ¬ Broken j.compact := by
  rintro (h | h) <;> exact absurd (lineFree_compact j _ h) (by decide)

/-- A source is written on the line that stands for it. -/
theorem sourceLine_eq_ok {source : BulkSource} {line : String} :
    sourceLine source = .ok line ↔ SourceLine source line := by
  constructor
  · intro h
    cases source with
    | document j =>
      obtain rfl := Except.ok.inj h
      exact .document j
    | spelled text =>
      rw [sourceLine] at h
      split_ifs at h with hbroken
      · obtain ⟨j, hj, rfl⟩ := map_eq_ok.mp h
        exact .squashed (breaksLine_iff.mp hbroken) hj
      · obtain rfl := Except.ok.inj h
        exact .untouched fun h ↦ hbroken (breaksLine_iff.mpr h)
  · rintro (single | ⟨broken, read⟩ | j)
    · rw [sourceLine, if_neg fun h ↦ single (breaksLine_iff.mp h)]
    · rw [sourceLine, if_pos (breaksLine_iff.mpr broken), read]
      rfl
    · rfl

theorem SourceLine.not_broken {source : BulkSource} {line : String} (h : SourceLine source line) :
    ¬ Broken line := by
  cases h with
  | untouched single => exact single
  | squashed _ _ | document _ => exact not_broken_compact _

/-! ### Action lines -/

/-- What is known of an operation that was made as a caller can. -/
structure Sound (op : BulkOperation) : Prop where
  order : InOrder op.metadata
  each : ∀ m ∈ op.metadata, (∃ s, m.2 = .string s) ∨
    ∃ i, m.2 = .integer i ∧ leastSigned ≤ i ∧ i ≤ greatestSigned
  source : op.source = none ↔ op.action = .delete

variable {op : BulkOperation} {ops : List BulkOperation}

theorem Sound.withMeta (h : op.Sound) (key : String) {value : Json}
    (hvalue : (∃ s, value = .string s) ∨
      ∃ i, value = .integer i ∧ leastSigned ≤ i ∧ i ≤ greatestSigned) :
    (op.withMeta key value).Sound := by
  refine ⟨h.order.insertMember key value, fun m hm ↦ ?_, h.source⟩
  obtain rfl | hm := mem_insertMember hm
  · exact hvalue
  · exact h.each m hm

theorem Built.sound (h : Built op) : op.Sound := by
  have hblank (action : BulkAction) (source : Option BulkSource)
      (hsource : source = none ↔ action = .delete) : Sound ⟨action, [], source⟩ :=
    ⟨.nil, nofun, hsource⟩
  induction h with
  | index source => exact hblank .index (some source) ⟨nofun, nofun⟩
  | create source => exact hblank .create (some source) ⟨nofun, nofun⟩
  | update id source =>
    exact (hblank .update (some source) ⟨nofun, nofun⟩).withMeta _ (.inl ⟨id, rfl⟩)
  | delete id => exact (hblank .delete none ⟨fun _ ↦ rfl, fun _ ↦ rfl⟩).withMeta _ (.inl ⟨id, rfl⟩)
  | text _ key value ih => exact ih.withMeta key (.inl ⟨value, rfl⟩)
  | integer _ key least greatest ih => exact ih.withMeta key (.inr ⟨_, rfl, least, greatest⟩)

theorem Sound.lasting (h : op.Sound) : ∀ m ∈ op.metadata, Lasting m.2 ∧ m.2.depth = 0 := by
  intro m hm
  obtain ⟨s, hs⟩ | ⟨i, hi, least, greatest⟩ := h.each m hm
  · rw [hs]
    exact ⟨.string s, rfl⟩
  · rw [hi]
    refine ⟨.integer least (Int.le_trans greatest (by decide)), rfl⟩

theorem membersDepth_eq_zero {members : List (String × Json)} (h : ∀ m ∈ members, m.2.depth = 0) :
    membersDepth members = 0 := by
  induction members with
  | nil => rfl
  | cons m members ih =>
    obtain ⟨hm, hmembers⟩ := List.forall_mem_cons.mp h
    rw [membersDepth, hm, ih hmembers, Nat.max_self]

/-- The line of an action is read as the action and the data about it. -/
theorem Sound.readAction_actionLine (h : op.Sound) :
    readAction op.actionLine = some (op.action, op.metadata) := by
  have hlasting : Lasting (.object [(op.action.name, .object op.metadata)]) :=
    .object (List.pairwise_singleton ..)
      (List.forall_mem_singleton.mpr (.object h.order fun m hm ↦ (h.lasting m hm).1))
  have hdepth : (Json.object [(op.action.name, .object op.metadata)]).depth ≤ depthLimit := by
    have hflat := membersDepth_eq_zero fun m hm ↦ (h.lasting m hm).2
    rw [depth, membersDepth, membersDepth, depth, hflat]
    decide
  rw [readAction, actionLine, parse_compact hlasting hdepth]
  simp only [BulkAction.ofName?_name, Option.map_some]

/-! ### Bodies -/

theorem allLines_cons {lines : List String} :
    allLines (op :: ops) = .ok lines ↔
      ∃ here rest, op.lines = .ok here ∧ allLines ops = .ok rest ∧ lines = here ++ rest := by
  simp only [allLines, bind_eq_ok, Except.ok.injEq]
  constructor
  · rintro ⟨here, hhere, rest, hrest, rfl⟩
    exact ⟨here, rest, hhere, hrest, rfl⟩
  · rintro ⟨here, rest, hhere, hrest, rfl⟩
    exact ⟨here, hhere, rest, hrest, rfl⟩

theorem lines_eq_ok {here : List String} : op.lines = .ok here ↔
    (op.source = none ∧ here = [op.actionLine]) ∨
      ∃ source line, op.source = some source ∧ SourceLine source line ∧
        here = [op.actionLine, line] := by
  rw [lines]
  cases op.source with
  | none =>
    rw [Except.ok.injEq]
    exact ⟨fun h ↦ .inl ⟨rfl, h.symm⟩, fun h ↦ h.elim (·.2.symm) nofun⟩
  | some source =>
    simp only [map_eq_ok, sourceLine_eq_ok]
    constructor
    · rintro ⟨line, hline, rfl⟩
      exact .inr ⟨source, line, rfl, hline, rfl⟩
    · rintro (⟨⟨⟩, -⟩ | ⟨_, line, ⟨⟩, hline, rfl⟩)
      exact ⟨line, hline, rfl⟩

/-- No line of a body has a line break in it. -/
theorem not_broken_of_allLines {lines : List String} (h : allLines ops = .ok lines) :
    ∀ line ∈ lines, ¬ Broken line := by
  induction ops generalizing lines with
  | nil =>
    obtain rfl := Except.ok.inj h
    exact nofun
  | cons op ops ih =>
    obtain ⟨here, rest, hhere, hrest, rfl⟩ := allLines_cons.mp h
    refine List.forall_mem_append.mpr ⟨?_, ih hrest⟩
    have haction : ¬ Broken op.actionLine := not_broken_compact _
    obtain ⟨-, rfl⟩ | ⟨_, line, -, hline, rfl⟩ := lines_eq_ok.mp hhere
    · exact List.forall_mem_singleton.mpr haction
    · exact List.forall_mem_cons.mpr ⟨haction, List.forall_mem_singleton.mpr hline.not_broken⟩

/-- The lines of one operation in front of others are read as what stands on them. -/
theorem Sound.readEntries_lines (h : op.Sound) {here : List String} (hhere : op.lines = .ok here)
    (rest : List String) :
    ∃ entry, Recovered op entry ∧
      readEntries (here ++ rest) = (readEntries rest).map (entry :: ·) := by
  obtain ⟨hsource, rfl⟩ | ⟨source, line, hsource, hline, rfl⟩ := lines_eq_ok.mp hhere
  · refine ⟨⟨op.action, op.metadata, none⟩, ⟨rfl, rfl, ?_⟩, ?_⟩
    · rw [hsource]
      exact .none
    · rw [List.singleton_append, readEntries, h.readAction_actionLine, h.source.mp hsource]
  · refine ⟨⟨op.action, op.metadata, some line⟩, ⟨rfl, rfl, ?_⟩, ?_⟩
    · rw [hsource]
      exact .some hline
    · have hdelete : op.action ≠ .delete := fun hdelete ↦ by
        rw [h.source.mpr hdelete] at hsource
        cases hsource
      rw [List.cons_append, List.singleton_append, readEntries, h.readAction_actionLine]
      cases haction : op.action with
      | delete => exact absurd haction hdelete
      | _ => rfl

theorem readEntries_allLines (h : ∀ op ∈ ops, op.Sound) {lines : List String}
    (hlines : allLines ops = .ok lines) :
    ∃ entries, readEntries lines = some entries ∧ List.Forall₂ Recovered ops entries := by
  induction ops generalizing lines with
  | nil =>
    obtain rfl := Except.ok.inj hlines
    exact ⟨[], rfl, .nil⟩
  | cons op ops ih =>
    obtain ⟨hop, hops⟩ := List.forall_mem_cons.mp h
    obtain ⟨here, rest, hhere, hrest, rfl⟩ := allLines_cons.mp hlines
    obtain ⟨entries, hentries, hrecovered⟩ := ih hops hrest
    obtain ⟨entry, hentry, hread⟩ := hop.readEntries_lines hhere rest
    refine ⟨entry :: entries, ?_, .cons hentry hrecovered⟩
    rw [hread, hentries, Option.map_some]

/-- Lines that were ended one after another are found again. -/
theorem endedLines?_join {lines : List String} (h : ∀ line ∈ lines, ¬ Broken line) :
    endedLines? (String.join (lines.map (· ++ "\n"))) = some lines := by
  have htext : (String.join (lines.map (· ++ "\n"))).toList =
      (lines.map String.toList).flatMap (· ++ ['\n']) := by
    rw [String.toList_join, List.flatMap_map, List.flatMap_map]
    exact List.flatMap_congr fun line _ ↦ String.toList_append
  have hpieces : ∀ piece ∈ lines.map String.toList, '\n' ∉ piece := by
    rintro _ hpiece
    obtain ⟨line, hline, rfl⟩ := List.mem_map.mp hpiece
    exact fun hbreak ↦ h line hline (.inl hbreak)
  simp only [endedLines?, htext, split_ended hpieces, List.getLast?_concat, List.dropLast_concat,
    if_pos, List.map_map, Function.comp_def, String.ofList_toList, List.map_id']

theorem exists_lines_iff : (∃ here, op.lines = .ok here) ↔
    ∀ text, op.source = some (.spelled text) → Broken text → ∃ j, Json.parse text = .ok j := by
  simp only [lines_eq_ok]
  constructor
  · rintro ⟨_, ⟨hnone, -⟩ | ⟨source, line, hsource, hline, -⟩⟩ text htext broken
    · rw [hnone] at htext
      cases htext
    · obtain rfl := Option.some.inj (hsource.symm.trans htext)
      cases hline with
      | untouched single => exact absurd broken single
      | squashed _ read => exact ⟨_, read⟩
  · intro h
    match hsource : op.source with
    | none => exact ⟨_, .inl ⟨rfl, rfl⟩⟩
    | some (.document j) => exact ⟨_, .inr ⟨_, _, rfl, .document j, rfl⟩⟩
    | some (.spelled text) =>
      by_cases broken : Broken text
      · obtain ⟨j, hj⟩ := h text hsource broken
        exact ⟨_, .inr ⟨_, _, rfl, .squashed broken hj, rfl⟩⟩
      · exact ⟨_, .inr ⟨_, _, rfl, .untouched broken, rfl⟩⟩

/-- Operations can be written exactly if every source of more than one line is JSON. -/
theorem exists_allLines_iff : (∃ lines, allLines ops = .ok lines) ↔
    ∀ op ∈ ops, ∀ text, op.source = some (.spelled text) → Broken text →
      ∃ j, Json.parse text = .ok j := by
  induction ops with
  | nil => exact ⟨fun _ ↦ nofun, fun _ ↦ ⟨[], rfl⟩⟩
  | cons op ops ih =>
    simp only [← exists_lines_iff] at ih ⊢
    rw [List.forall_mem_cons, ← ih]
    simp only [allLines_cons]
    constructor
    · rintro ⟨_, here, rest, hhere, hrest, -⟩
      exact ⟨⟨here, hhere⟩, rest, hrest⟩
    · rintro ⟨⟨here, hhere⟩, rest, hrest⟩
      exact ⟨_, here, rest, hhere, hrest, rfl⟩

/-- A body is the lines of its operations, a line break behind each. -/
theorem render_eq_ok {body : String} : render ops = .ok body ↔
    ∃ lines, allLines ops = .ok lines ∧ String.join (lines.map (· ++ "\n")) = body :=
  map_eq_ok

/-- A reader of a body finds the operations again. -/
theorem readBody_render (h : ∀ op ∈ ops, Built op) {body : String} (hbody : render ops = .ok body) :
    ∃ entries, readBody body = some entries ∧ List.Forall₂ Recovered ops entries := by
  obtain ⟨lines, hlines, rfl⟩ := render_eq_ok.mp hbody
  obtain ⟨entries, hentries, hrecovered⟩ :=
    readEntries_allLines (fun op hop ↦ (h op hop).sound) hlines
  refine ⟨entries, ?_, hrecovered⟩
  rw [readBody, endedLines?_join (not_broken_of_allLines hlines), Option.bind_some, hentries]

end BulkOperation

end SearchClient

import SearchClient.Answer.Tables
import SearchClient.Display.Views
import SearchClient.Proofs.Json.Members
import SearchClient.Proofs.Json.Records
import SearchClient.Proofs.Json.Shapes
import Mathlib.Data.List.Forall2

/-!
# Tables lose no cell

The columns of a table are found row by row: one more row adds its new names behind the columns that
there are (`columns_concat`). So each name is a column once, and of two columns the one comes first
that is met first (`MetBefore`). Every row then has a cell in every column (`Shows`), empty where it
has nothing to show (`tables_lose_no_cell`).

The rows of an answer have their names in order (`inOrder_of_mem_tableRows`).
-/

set_option autoImplicit false
set_option relaxedAutoImplicit false

namespace SearchClient.Display

variable {rows : List TableRow} {row : TableRow} {column a b : String}

/-! ### Columns -/

/-- A row has something under a name. -/
def Has (row : TableRow) (column : String) : Prop := ∃ value, (column, value) ∈ row

/-- One name is met before another: the first row that has any of the two has the one, and comes to
it before the other. -/
def MetBefore (rows : List TableRow) (a b : String) : Prop :=
  ∃ before row after, rows = before ++ row :: after ∧ (∀ r ∈ before, ¬ Has r a ∧ ¬ Has r b) ∧
    Has row a ∧ (Has row b → a < b)

theorem mem_names_iff : column ∈ row.map (·.1) ↔ Has row column := by
  simp [Has]

theorem mem_columns_iff : column ∈ columns rows ↔ ∃ row ∈ rows, Has row column := by
  simp only [columns, List.mem_eraseDups, List.mem_flatMap, mem_names_iff]

theorem eraseDups_of_nodup {names : List String} (h : names.Nodup) : names.eraseDups = names := by
  induction names with
  | nil => rfl
  | cons name names ih =>
    obtain ⟨hname, hnames⟩ := List.nodup_cons.mp h
    have hothers : names.filter (fun other ↦ !other == name) = names :=
      List.filter_eq_self.mpr fun other hother ↦ by
        simpa using ne_of_mem_of_not_mem hother hname
    rw [List.eraseDups_cons, hothers, ih hnames]

/-- One more row adds its new names behind the columns that there are. -/
theorem columns_concat (h : Json.InOrder row) : columns (rows ++ [row]) =
    columns rows ++ (row.map (·.1)).filter fun name ↦ decide (name ∉ columns rows) := by
  have hnew : (row.map (·.1)).removeAll (rows.flatMap fun row ↦ row.map (·.1)) =
      (row.map (·.1)).filter fun name ↦ decide (name ∉ columns rows) := by
    refine List.filter_congr fun name _ ↦ Bool.eq_iff_iff.mpr ?_
    rw [decide_eq_true_iff, columns, List.mem_eraseDups]
    simp
  rw [columns, List.flatMap_append, List.eraseDups_append, List.flatMap_singleton, hnew,
    eraseDups_of_nodup (h.nodup_names.filter _), columns]

/-- Names that were met stay in their order when rows are added. -/
theorem MetBefore.append (h : MetBefore rows a b) (more : List TableRow) :
    MetBefore (rows ++ more) a b := by
  obtain ⟨before, row, after, rfl, hrest⟩ := h
  exact ⟨before, row, after ++ more, by simp, hrest⟩

/-- A name that occurs is met before one that does not. -/
theorem metBefore_of_not_mem (ha : a ∈ columns rows) (hb : b ∉ columns rows) :
    MetBefore rows a b := by
  rw [mem_columns_iff] at ha hb
  push Not at hb
  induction rows with
  | nil => simp at ha
  | cons row rows ih =>
    obtain ⟨hrow, hrows⟩ := List.forall_mem_cons.mp hb
    by_cases hhas : Has row a
    · exact ⟨[], row, rows, rfl, by simp, hhas, fun hrow' ↦ absurd hrow' hrow⟩
    · obtain ⟨before, first, after, rfl, hbefore, hfirst⟩ := ih (by simpa [hhas] using ha) hrows
      exact ⟨row :: before, first, after, rfl, List.forall_mem_cons.mpr ⟨⟨hhas, hrow⟩, hbefore⟩,
        hfirst⟩

/-- Columns stand in the order in which they are met. -/
theorem pairwise_columns (h : ∀ row ∈ rows, Json.InOrder row) :
    (columns rows).Pairwise (MetBefore rows) := by
  induction rows using List.reverseRecOn with
  | nil => exact .nil
  | append_singleton rows row ih =>
    have hrows : ∀ r ∈ rows, Json.InOrder r := fun r hr ↦ h r (by simp [hr])
    have hrow : Json.InOrder row := h row (by simp)
    have hnew {name : String} (hname : name ∈ (row.map (·.1)).filter fun name ↦
        decide (name ∉ columns rows)) : Has row name ∧ name ∉ columns rows := by
      rwa [List.mem_filter, mem_names_iff, decide_eq_true_iff] at hname
    rw [columns_concat hrow, List.pairwise_append]
    refine ⟨(ih hrows).imp fun hbefore ↦ hbefore.append [row], ?_, fun a ha b hb ↦ ?_⟩
    -- Two names that are new are met in the new row, where names are in order.
    · refine (hrow.pairwise_names.filter _).imp_of_mem fun {a b} ha hb hlt ↦ ?_
      obtain ⟨ha, haold⟩ := hnew ha
      obtain ⟨-, hbold⟩ := hnew hb
      rw [mem_columns_iff] at haold hbold
      push Not at haold hbold
      exact ⟨rows, row, [], rfl, fun r hr ↦ ⟨haold r hr, hbold r hr⟩, ha, fun _ ↦ hlt⟩
    · exact (metBefore_of_not_mem ha (hnew hb).2).append [row]

/-- No name is met before itself, so each is a column once. -/
theorem nodup_columns (h : ∀ row ∈ rows, Json.InOrder row) : (columns rows).Nodup := by
  refine (pairwise_columns h).imp fun {a b} hbefore ↦ ?_
  rintro rfl
  obtain ⟨_, row, _, _, _, hhas, hlt⟩ := hbefore
  exact String.lt_irrefl _ (hlt hhas)

/-! ### Cells -/

/-- What a row shows in a column: nothing where it has nothing or null, a text as it is, and any
other document written out. -/
inductive Shows (row : TableRow) (column : String) : String → Prop
  | nothing (h : ¬ Has row column) : Shows row column ""
  | null (h : (column, .null) ∈ row) : Shows row column ""
  | text {s : String} (h : (column, .string s) ∈ row) : Shows row column s
  | other {value : Json} (h : (column, value) ∈ row) (hnull : value ≠ .null)
      (htext : ∀ s, value ≠ .string s) : Shows row column value.compact

theorem shows_cellText {value : Json} (h : (column, value) ∈ row) :
    Shows row column (cellText value) := by
  cases value with
  | null => exact .null h
  | string s => exact .text h
  | bool b => exact .other h nofun nofun
  | number n => exact .other h nofun nofun
  | array items => exact .other h nofun nofun
  | object members => exact .other h nofun nofun

theorem shows_tableCell (row : TableRow) (column : String) :
    Shows row column (tableCell row column).text := by
  unfold tableCell
  cases hfind : row.find? (·.1 == column) with
  | none => exact .nothing fun ⟨value, hvalue⟩ ↦ Json.find?_name_eq_none_iff.mp hfind value hvalue
  | some m =>
    obtain ⟨name, value⟩ := m
    obtain rfl : name = column := by simpa using List.find?_some hfind
    exact shows_cellText (List.mem_of_find?_eq_some hfind)

/-- The rows of a table have their names in order. Every name that occurs is a column once, columns
stand in the order in which they are met, and each row has, in its place, a cell in every column. -/
theorem tables_lose_no_cell (hrows : ∀ row ∈ rows, Json.InOrder row) :
    (tableGrid rows).header.Nodup ∧
      (∀ column, column ∈ (tableGrid rows).header ↔ ∃ row ∈ rows, Has row column) ∧
      (tableGrid rows).header.Pairwise (MetBefore rows) ∧
      List.Forall₂ (fun row cells ↦
        List.Forall₂ (fun column (cell : Cell) ↦ Shows row column cell.text)
          (tableGrid rows).header cells) rows (tableGrid rows).rows := by
  refine ⟨nodup_columns hrows, fun _ ↦ mem_columns_iff, pairwise_columns hrows, ?_⟩
  refine List.forall₂_map_right_iff.mpr (List.forall₂_same.mpr fun row hrow ↦ ?_)
  exact List.forall₂_map_right_iff.mpr (List.forall₂_same.mpr fun column _ ↦
    shows_tableCell row column)

/-- Two rows that do not have the same names. -/
def raggedRows : List TableRow :=
  [[("docs.count", .string "10"), ("health", .string "green"), ("index", .string "logs")],
    [("docs.count", .null), ("index", .string "metrics"), ("pri", .integer 1)]]

/-- The rows fill four columns. A count that is null leaves its cell empty, and so does a missing
name. -/
theorem tables_lose_no_cell_of_ragged : (∀ row ∈ raggedRows, Json.InOrder row) ∧
    (tableGrid raggedRows).header = ["docs.count", "health", "index", "pri"] ∧
    (tableGrid raggedRows).rows =
      ([["10", "green", "logs", ""], ["", "", "metrics", "1"]] : List (List Cell)) ∧
    MetBefore raggedRows "index" "pri" ∧
    (∃ row ∈ raggedRows, Has row "pri") ∧ Shows raggedRows[1] "pri" "1" := by
  have hrows : ∀ row ∈ raggedRows, Json.InOrder row := by
    unfold Json.InOrder
    decide
  have hheader : (tableGrid raggedRows).header = ["docs.count", "health", "index", "pri"] := rfl
  have hgrid : (tableGrid raggedRows).rows =
      ([["10", "green", "logs", ""], ["", "", "metrics", "1"]] : List (List Cell)) := rfl
  obtain ⟨-, hmem, hmet, hcells⟩ := tables_lose_no_cell hrows
  rw [hheader] at hmet hmem hcells
  rw [hgrid] at hcells
  have hbefore : MetBefore raggedRows "index" "pri" :=
    List.rel_of_pairwise_cons hmet.tail.tail List.mem_cons_self
  have hshows : Shows raggedRows[1] "pri" "1" := (hcells.get (i := 1) (by decide) (by decide)).get
    (i := 3) (by decide) (by decide)
  exact ⟨hrows, hheader, hgrid, hbefore, (hmem "pri").mp (by decide), hshows⟩

/-! ### Rows of an answer -/

/-- The rows of an answer have their names in order. -/
theorem inOrder_of_mem_tableRows {body : Text.Bytes} {d : Document}
    (h : (Shape.list Answer.row).read body = .ok d) (hrow : row ∈ tableRows d) :
    Json.InOrder row := by
  unfold Shape.read Json.Source.read at h
  obtain ⟨value, hvalue, h⟩ := bind_eq_ok.mp h
  split at h
  · cases h
  · cases h
    rw [Shape.readTree] at hvalue
    obtain ⟨items, hitems, rfl⟩ := map_eq_ok.mp hvalue
    obtain ⟨item, hitem, rfl⟩ := List.mem_map.mp hrow
    obtain ⟨inner, t, hread⟩ := Json.exists_read_of_readList hitems item hitem
    rw [Answer.row, Shape.readTree] at hread
    obtain ⟨members, hmembers, rfl⟩ := map_eq_ok.mp hread
    exact List.pairwise_map.mpr (Json.inOrder_of_readMap hmembers)

end SearchClient.Display

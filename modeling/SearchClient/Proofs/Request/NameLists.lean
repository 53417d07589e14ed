import SearchClient.Proofs.Text.Blanks
import SearchClient.Proofs.Text.Split
import SearchClient.Request.Names

/-!
# Lists of names have one text

A name of a list is a text of its own if it is not empty, has no comma in it and no blank at either
end (`Names.Plain`). What is read from a text has only such names (`plain_parse`), and a list of
such names is read back from its text (`parse_text`). So a text is put into its normal form by one
reading, and two texts with a comma between them have the names of the one and of the other
(`items_parse_append`).
-/

set_option autoImplicit false
set_option relaxedAutoImplicit false

namespace SearchClient

namespace Names

open Text

/-- A name that is not empty, has no comma in it and no blank at either end. -/
structure IsPlain (name : String) : Prop where
  nonempty : name ≠ ""
  comma : ',' ∉ name.toList
  tight : Tight name.toList

/-- All names of a list are plain. -/
def Plain (names : Names) : Prop := ∀ name ∈ names.items, IsPlain name

variable {names : Names}

/-- What is read from a text has only plain names. -/
theorem plain_parse (text : String) : (parse text).Plain := by
  intro name hname
  obtain ⟨trimmed, htrimmed, rfl⟩ := List.mem_map.mp hname
  obtain ⟨hpieces, hnonempty⟩ := List.mem_filter.mp htrimmed
  obtain ⟨piece, hpiece, rfl⟩ := List.mem_map.mp hpieces
  refine ⟨?_, ?_, ?_⟩
  · simpa using hnonempty
  · rw [String.toList_ofList]
    exact fun hcomma ↦ not_mem_of_mem_split hpiece ((trim_sublist piece).subset hcomma)
  · rw [String.toList_ofList]
    exact tight_trim piece

theorem toList_text (names : Names) :
    names.text.toList = join [','] (names.items.map String.toList) := by
  rw [text, join_eq_intercalate]
  simp

/-- Plain names are read back from their text. -/
theorem parse_text (h : names.Plain) : parse names.text = names := by
  obtain ⟨items⟩ := names
  rw [parse, toList_text]
  cases items with
  | nil => rfl
  | cons first others =>
    have hpieces : ∀ piece ∈ (first :: others).map String.toList, ',' ∉ piece :=
      List.forall_mem_map.mpr fun name hname ↦ (h name hname).comma
    have htrim : ∀ piece ∈ (first :: others).map String.toList, trim piece = piece :=
      List.forall_mem_map.mpr fun name hname ↦ (h name hname).tight.trim_eq_self
    have hfilled : ∀ piece ∈ (first :: others).map String.toList, decide (piece ≠ []) = true :=
      List.forall_mem_map.mpr fun name hname ↦ by simpa using (h name hname).nonempty
    rw [split_join (by simp) hpieces, List.map_congr_left htrim, List.map_id',
      List.filter_eq_self.mpr hfilled, List.map_map]
    simp [Function.comp_def]

/-- Two texts with a comma between them have the names of the one and of the other. -/
theorem items_parse_append (s t : String) :
    (parse (s ++ "," ++ t)).items = (parse s).items ++ (parse t).items := by
  have hchars : (s ++ "," ++ t).toList = s.toList ++ ',' :: t.toList := by simp
  rw [parse, parse, parse, hchars, split_append]
  simp only [List.map_append, List.filter_append]

/-- Reading puts a text into its normal form. What is read has only plain names, is read again from
its own text and is empty if that is; two texts with a comma between them have the names of the one
and then of the other; and the lists that are read back from their text are those of plain names. -/
theorem names_normalise (s t : String) (names : Names) :
    (parse s).Plain ∧
      parse (parse s).text = parse s ∧
      ((parse s).isEmpty = true ↔ (parse s).text = "") ∧
      (parse (s ++ "," ++ t)).items = (parse s).items ++ (parse t).items ∧
      (parse names.text = names ↔ names.Plain) := by
  have hagain : parse (parse s).text = parse s := parse_text (plain_parse s)
  refine ⟨plain_parse s, hagain, ⟨fun hempty ↦ ?_, fun hempty ↦ ?_⟩, items_parse_append s t,
    fun hsame ↦ ?_, parse_text⟩
  · rw [isEmpty, List.isEmpty_iff] at hempty
    rw [text, hempty]
    rfl
  · rw [← hagain, hempty]
    rfl
  · rw [← hsame]
    exact plain_parse names.text

example : (parse " a, ,b ").text = "a,b" := by decide +kernel

end Names

end SearchClient

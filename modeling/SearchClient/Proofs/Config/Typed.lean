import SearchClient.Proofs.Config.Literals
import SearchClient.Proofs.Text.Blanks

/-!
# What the text of a variable says

What is a value as a whole is read as this value, and what is none is read as the text that it is
(`read_of_isValue`, `read_of_not_isValue`). So a text without blanks at its ends is read as itself
unless it is taken for something else (`IsTyped`): a truth value, a number, a text in quotes, a list
or a dictionary (`read_eq_string_iff`).
-/

set_option autoImplicit false
set_option relaxedAutoImplicit false

namespace SearchClient.Literal

open Text

variable {cs rest : List Char} {c : Char} {v : Json} {fuel : Nat} {text : String}

/-! ### What a text says -/

/-- What is a value as a whole is read as this value. -/
theorem read_of_isValue (h : IsValue text.toList v) : read text = v := by
  have hread := (reads (2 * text.toList.length + 2)).1 _ _ h (by omega) [] nofun
  rw [List.append_nil] at hread
  rw [read]
  simp only [hread]

/-- What is none is read as the text that it is. -/
theorem read_of_not_isValue (h : ∀ v, ¬ IsValue text.toList v) : read text = .string text := by
  rw [read]
  split
  · rename_i v hread
    obtain ⟨cs, hcs, hv⟩ := (finds _).1 _ _ _ hread
    rw [List.append_nil] at hcs
    exact absurd (hcs ▸ hv) (h v)
  · rfl

/-- A text that is read as a number: with a point in it one with a fraction, and else an integer of
sixty-four bits. -/
def IsNumber (cs : List Char) : Prop :=
  if '.' ∈ cs then (Decimal.readFloat? cs).isSome
  else ∃ i, Decimal.readInt? cs = some i ∧ leastSigned ≤ i ∧ i ≤ greatestUnsigned

/-- A text that is taken for something else than itself: a value that shows where it ends, or a
number. -/
def IsTyped (cs : List Char) : Prop := (∃ v, IsMarked cs v) ∨ (IsPlain cs ∧ IsNumber cs)

/-- A plain text stands for itself unless it is a number. -/
theorem plain_eq_string_iff (h : trim cs = cs) :
    plain cs = .string (String.ofList cs) ↔ ¬ IsNumber cs := by
  unfold plain IsNumber
  simp only [h, List.contains_iff_mem]
  split_ifs with hpoint
  · cases Decimal.readFloat? cs <;> simp
  · cases Decimal.readInt? cs with
    | none => simp
    | some i =>
      simp only [Option.some.injEq, exists_eq_left']
      split_ifs with hrange <;> simp [hrange, Json.integer]

/-- An escape is longer than the character that it stands for. -/
theorem length_of_escape? (h : Toml.escape? cs = some (c, rest)) : rest.length < cs.length := by
  have hscalar {count : Nat} {digits : List Char} (h : Toml.scalar? count digits = some (c, rest)) :
      rest.length ≤ digits.length := by
    simp only [Toml.scalar?] at h
    split_ifs at h
    obtain ⟨n, -, h⟩ := Option.bind_eq_some_iff.mp h
    split_ifs at h
    cases h
    exact (List.drop_suffix _ _).length_le
  unfold Toml.escape? at h
  split at h
  case h_8 => exact Nat.lt_succ_of_le (hscalar h)
  case h_9 => exact Nat.lt_succ_of_le (hscalar h)
  all_goals cases h
  all_goals exact Nat.lt_succ_self _

theorem length_of_unescape {inner : List Char} (h : unescape fuel cs = some inner) :
    inner.length ≤ cs.length := by
  fun_induction unescape fuel cs generalizing inner with
  | case1 => cases h
  | case2 =>
    cases h
    exact Nat.le_refl 0
  | case3 fuel rest ih =>
    obtain ⟨⟨c, rest'⟩, hescape, h⟩ := Option.bind_eq_some_iff.mp h
    obtain ⟨inner', hinner, rfl⟩ := Option.map_eq_some_iff.mp h
    have hshort := length_of_escape? hescape
    have hinner' := ih _ hinner
    simp only [List.length_cons]
    omega
  | case4 fuel c rest hslash hplain ih =>
    obtain ⟨inner', hinner, rfl⟩ := Option.map_eq_some_iff.mp h
    exact Nat.succ_le_succ (ih hinner)
  | case5 => cases h

/-- A value that shows where it ends is never the text that it is. -/
theorem IsMarked.ne_string (h : IsMarked cs v) : v ≠ .string (String.ofList cs) := by
  intro heq
  cases h with
  | @quoted inner s h =>
    obtain ⟨⟨inner', _⟩, hsplit, h⟩ := Option.bind_eq_some_iff.mp h
    obtain ⟨unescaped, hunescape, h⟩ := Option.bind_eq_some_iff.mp h
    cases h
    have hinner : inner = inner' := List.append_cancel_right (splitQuoted_append hsplit).1
    have hsame := congrArg List.length (String.ofList_injective (Json.string.inj heq))
    have hshort := length_of_unescape hunescape
    simp only [List.length_cons, List.length_append, List.length_nil, hinner] at hsame
    omega
  | letter =>
    have hsame := congrArg List.length (String.ofList_injective (Json.string.inj heq))
    simp at hsame
  | truth => cases heq
  | untruth => cases heq
  | list h => cases heq
  | dictionary h => cases heq

theorem isBlank_of_isSpace (h : isSpace c = true) : isBlank c = true := by
  simp only [isSpace, Bool.or_eq_true, beq_iff_eq] at h
  rcases h with (((rfl | rfl) | rfl) | rfl) | rfl <;> decide

/-- A text without blanks at its ends has none that belong to a value. -/
theorem eq_nil_of_tight {front back : List Char} (htight : Tight (front ++ cs ++ back))
    (hfront : IsSpaces front) (hback : IsSpaces back) : front = [] ∧ back = [] := by
  constructor
  · cases front with
    | nil => rfl
    | cons c front =>
      have hblank := isBlank_of_isSpace (hfront c List.mem_cons_self)
      rw [htight.head c rfl] at hblank
      cases hblank
  · obtain rfl | ⟨back, c, rfl⟩ := List.eq_nil_or_concat back
    · rfl
    · have hlast := htight.last c (by rw [List.concat_eq_append, ← List.append_assoc]; simp)
      rw [isBlank_of_isSpace (hback c (by simp))] at hlast
      cases hlast

/-- A text without blanks at its ends is read as itself unless it is taken for something else. -/
theorem read_eq_string_iff (htight : Tight text.toList) :
    read text = .string text ↔ ¬ IsTyped text.toList := by
  have hplain := plain_eq_string_iff htight.trim_eq_self
  rw [String.ofList_toList] at hplain
  constructor
  · rintro hread (⟨v, hv⟩ | ⟨hcs, hnumber⟩)
    · have hvalue : IsValue text.toList v := by
        simpa using @IsValue.marked [] text.toList [] v nofun hv nofun
      rw [read_of_isValue hvalue] at hread
      exact hv.ne_string (by rw [String.ofList_toList, hread])
    · have hvalue : IsValue text.toList (plain text.toList) := @IsValue.plain [] _ nofun hcs
      rw [read_of_isValue hvalue] at hread
      exact hplain.mp hread hnumber
  · intro htyped
    by_cases hvalue : ∃ v, IsValue text.toList v
    · obtain ⟨v, hv⟩ := hvalue
      rw [read_of_isValue hv]
      generalize text.toList = cs at hv htight hplain htyped
      cases hv with
      | @marked front core back _ hfront h hback =>
        obtain ⟨rfl, rfl⟩ := eq_nil_of_tight htight hfront hback
        exact absurd (.inl ⟨v, by simpa using h⟩) htyped
      | @plain front core hfront h =>
        obtain ⟨rfl, -⟩ := @eq_nil_of_tight core front [] (by simpa using htight) hfront nofun
        exact hplain.mpr fun hnumber ↦ htyped (.inr ⟨h, hnumber⟩)
    · exact read_of_not_isValue (not_exists.mp hvalue)

end SearchClient.Literal

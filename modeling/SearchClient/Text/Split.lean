/-!
# Cutting texts at a character

`split` cuts a text at every occurrence of a separator, `splitFirst` and `splitLast` at one. Nothing
is lost: putting the separator back between the pieces gives the text again (`join_split`), and all
that stands in a piece stands in the text (`mem_of_mem_split`).
-/

set_option autoImplicit false
set_option relaxedAutoImplicit false

namespace SearchClient.Text

/-- The pieces between the separators, one more than there are separators. -/
def split (sep : Char) : List Char → List (List Char)
  | [] => [[]]
  | c :: cs =>
    match split sep cs with
    | [] => [[c]]
    | piece :: pieces => if c = sep then [] :: piece :: pieces else (c :: piece) :: pieces

/-- The pieces with a separator between each two of them. -/
def join (sep : List Char) : List (List Char) → List Char
  | [] => []
  | [piece] => piece
  | piece :: next :: pieces => piece ++ sep ++ join sep (next :: pieces)

/-- The text before and after the first separator. -/
def splitFirst (sep : Char) : List Char → Option (List Char × List Char)
  | [] => none
  | c :: cs =>
    if c = sep then some ([], cs)
    else (splitFirst sep cs).map fun (before, after) ↦ (c :: before, after)

/-- The text before and after the last separator. -/
def splitLast (sep : Char) (cs : List Char) : Option (List Char × List Char) :=
  (splitFirst sep cs.reverse).map fun (after, before) ↦ (before.reverse, after.reverse)

/-- What follows a given beginning. -/
def dropPrefix? : (start : List Char) → List Char → Option (List Char)
  | [], cs => some cs
  | _ :: _, [] => none
  | s :: start, c :: cs => if s = c then dropPrefix? start cs else none

/-- What precedes a given ending. -/
def dropSuffix? (ending cs : List Char) : Option (List Char) :=
  (dropPrefix? ending.reverse cs.reverse).map List.reverse

/-- Whether a text has a part somewhere inside. -/
def hasInfix (part : List Char) : List Char → Bool
  | [] => part.isEmpty
  | c :: cs => (dropPrefix? part (c :: cs)).isSome || hasInfix part cs

theorem split_ne_nil (sep : Char) (cs : List Char) : split sep cs ≠ [] := by
  cases cs with
  | nil => simp [split]
  | cons c cs =>
    unfold split
    split
    · simp
    · split <;> simp

/-- Cutting at a separator and joining with it gives the text back. -/
theorem join_split (sep : Char) (cs : List Char) : join [sep] (split sep cs) = cs := by
  induction cs with
  | nil => rfl
  | cons c cs ih =>
    unfold split
    generalize h : split sep cs = pieces at ih
    match pieces with
    | [] => exact absurd h (split_ne_nil sep cs)
    | [piece] => by_cases hc : c = sep <;> simp_all [join]
    | piece :: next :: pieces => by_cases hc : c = sep <;> simp_all [join]

theorem mem_join_of_mem {c : Char} {piece between : List Char} {pieces : List (List Char)}
    (h : piece ∈ pieces) (hc : c ∈ piece) : c ∈ join between pieces := by
  induction pieces with
  | nil => cases h
  | cons first pieces ih =>
    cases pieces with
    | nil =>
      obtain rfl := List.mem_singleton.mp h
      exact hc
    | cons next pieces =>
      rw [join]
      obtain rfl | h := List.mem_cons.mp h
      · exact List.mem_append_left _ (List.mem_append_left _ hc)
      · exact List.mem_append_right _ (ih h)

/-- The characters of the pieces are characters of the text. -/
theorem mem_of_mem_split {sep c : Char} {piece cs : List Char} (h : piece ∈ split sep cs)
    (hc : c ∈ piece) : c ∈ cs := by
  rw [← join_split sep cs]
  exact mem_join_of_mem h hc

/-- Two texts with a separator between them split into the pieces of the one and of the other. -/
theorem split_append (sep : Char) (cs ds : List Char) :
    split sep (cs ++ sep :: ds) = split sep cs ++ split sep ds := by
  induction cs with
  | nil =>
    rw [List.nil_append, split]
    generalize h : split sep ds = pieces
    match pieces with
    | [] => exact absurd h (split_ne_nil sep ds)
    | piece :: pieces => simp [split, h]
  | cons c cs ih =>
    rw [List.cons_append, split, ih]
    generalize h : split sep cs = pieces
    match pieces with
    | [] => exact absurd h (split_ne_nil sep cs)
    | piece :: pieces =>
      rw [split, h]
      by_cases hc : c = sep <;> simp [hc]

end SearchClient.Text

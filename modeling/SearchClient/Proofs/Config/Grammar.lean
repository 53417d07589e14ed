import SearchClient.Config.Literal
import SearchClient.Proofs.Text.Split
import Mathlib.Data.Bool.AllAny
import Mathlib.Data.List.TakeWhile

/-!
# A grammar of values

What a value of an environment variable looks like (`IsValue`): a value that shows where it ends,
such as a text in quotes or a list, with blanks around it, or a plain text that begins as none of
these does. Only what the escapes of a text in quotes stand for is taken from the reader. How the
parts are told from each other is said here too: blanks are passed over up to what is none, a text
in quotes does not depend on what follows, and what follows a value is nothing or a comma or the end
of what it is in (`Ends`).
-/

set_option autoImplicit false
set_option relaxedAutoImplicit false

namespace SearchClient.Literal

open Text

/-! ### A grammar of values -/

/-- Blanks between values. -/
def IsSpaces (cs : List Char) : Prop := ∀ c ∈ cs, isSpace c = true

/-- A text that begins as no other value does and has no separator in it. -/
structure IsPlain (cs : List Char) : Prop where
  separator : ∀ c ∈ cs, isSeparator c = false
  space : ∀ c ∈ cs.head?, isSpace c = false
  quote : cs.head? ≠ some '"'
  apostrophe : cs.head? ≠ some '\''
  truth : ¬ "true".toList <+: cs
  untruth : ¬ "false".toList <+: cs

/-- A key of a dictionary, as it stands there. -/
inductive IsKey : List Char → String → Prop
  | bare {cs : List Char} (hne : cs ≠ []) (h : ∀ c ∈ cs, isKeyChar c = true) :
      IsKey cs (String.ofList cs)
  | quoted {inner : List Char} {s : String} (h : readQuoted (inner ++ ['"']) = some (s, [])) :
      IsKey ('"' :: (inner ++ ['"'])) s

mutual

/-- A value that shows where it ends. -/
inductive IsMarked : List Char → Json → Prop
  | truth : IsMarked "true".toList (.bool true)
  | untruth : IsMarked "false".toList (.bool false)
  | quoted {inner : List Char} {s : String} (h : readQuoted (inner ++ ['"']) = some (s, [])) :
      IsMarked ('"' :: (inner ++ ['"'])) (.string s)
  | letter {c : Char} : IsMarked ['\'', c, '\''] (.string (String.ofList [c]))
  | list {cs : List Char} {items : List Json} (h : IsItems cs items) :
      IsMarked ('[' :: cs) (.array items)
  | dictionary {cs : List Char} {members : List (String × Json)} (h : IsMembers cs members) :
      IsMarked ('\x7b' :: cs) (Json.ofMembers members)

/-- A value with blanks around it. -/
inductive IsValue : List Char → Json → Prop
  | marked {front cs back : List Char} {v : Json} (hfront : IsSpaces front) (h : IsMarked cs v)
      (hback : IsSpaces back) : IsValue (front ++ cs ++ back) v
  | plain {front cs : List Char} (hfront : IsSpaces front) (h : IsPlain cs) :
      IsValue (front ++ cs) (plain cs)

/-- The items of a list and the bracket that closes it. A comma may stand behind the last one. -/
inductive IsItems : List Char → List Json → Prop
  | nil : IsItems [']'] []
  | last {cs : List Char} {v : Json} (hne : cs ≠ []) (h : IsValue cs v) : IsItems (cs ++ [']']) [v]
  | more {cs rest : List Char} {v : Json} {items : List Json} (h : IsValue cs v)
      (hrest : IsItems rest items) : IsItems (cs ++ ',' :: rest) (v :: items)

/-- The members of a dictionary and the brace that closes it. -/
inductive IsMembers : List Char → List (String × Json) → Prop
  | nil : IsMembers ['\x7d'] []
  | last {front key back cs : List Char} {name : String} {v : Json} (hfront : IsSpaces front)
      (hkey : IsKey key name) (hback : IsSpaces back) (h : IsValue cs v) :
      IsMembers (front ++ key ++ back ++ '=' :: (cs ++ ['\x7d'])) [(name, v)]
  | more {front key back cs rest : List Char} {name : String} {v : Json}
      {members : List (String × Json)} (hfront : IsSpaces front) (hkey : IsKey key name)
      (hback : IsSpaces back) (h : IsValue cs v) (hrest : IsMembers rest members) :
      IsMembers (front ++ key ++ back ++ '=' :: (cs ++ ',' :: rest)) ((name, v) :: members)

end

/-! ### Blanks, quotes and ends -/

variable {cs rest : List Char} {c : Char} {v : Json} {fuel : Nat}

/-- Nothing follows a value, or a comma or the end of a list or a dictionary does. -/
def Ends (rest : List Char) : Prop := ∀ c ∈ rest.head?, c ∈ [',', ']', '\x7d']

theorem Ends.separates (h : Ends rest) (hc : c ∈ rest.head?) : isSeparator c = true := by
  have hall : ∀ c ∈ [',', ']', '\x7d'], isSeparator c = true :=
    List.all_iff_forall_prop.mp (by decide)
  exact hall c (h c hc)

theorem Ends.not_isSpace (h : Ends rest) (hc : c ∈ rest.head?) : isSpace c = false := by
  have hall : ∀ c ∈ [',', ']', '\x7d'], isSpace c = false :=
    List.all_iff_forall_prop.mp (by decide)
  exact hall c (h c hc)

theorem Ends.of_mem (h : c ∈ [',', ']', '\x7d']) (rest : List Char) : Ends (c :: rest) := by
  intro d hd
  cases hd
  exact h

/-- A run of characters of a kind is cut off in front of one that is not of the kind. -/
theorem span_append {p : Char → Bool} {run : List Char} (hrun : ∀ c ∈ run, p c = true)
    (hrest : ∀ c ∈ rest.head?, p c = false) :
    (run ++ rest).takeWhile p = run ∧ (run ++ rest).dropWhile p = rest := by
  rw [List.takeWhile_append_of_pos hrun, List.dropWhile_append_of_pos hrun]
  cases rest with
  | nil => simp
  | cons c rest => simp [hrest c rfl]

/-- Blanks are passed over up to what is none. -/
theorem skipSpace_append {front : List Char} (hfront : IsSpaces front)
    (hcs : ∀ c ∈ cs.head?, isSpace c = false) : skipSpace (front ++ cs) = cs :=
  (span_append hfront hcs).2

/-- What is passed over is blanks. -/
theorem exists_of_skipSpace (cs : List Char) : ∃ front, IsSpaces front ∧
    cs = front ++ skipSpace cs ∧ ∀ c ∈ (skipSpace cs).head?, isSpace c = false := by
  refine ⟨cs.takeWhile isSpace, fun c hc ↦ List.mem_takeWhile_imp hc,
    List.takeWhile_append_dropWhile.symm, fun c hc ↦ ?_⟩
  have hhead := List.head?_dropWhile_not isSpace cs
  rw [skipSpace, Option.mem_def] at hc
  rw [hc] at hhead
  exact hhead

/-- What stands between quotes does not depend on what follows them. -/
theorem splitQuoted_append {inner : List Char} (h : splitQuoted cs = some (inner, rest)) :
    cs = inner ++ '"' :: rest ∧
      ∀ rest', splitQuoted (inner ++ '"' :: rest') = some (inner, rest') := by
  fun_induction splitQuoted cs generalizing inner with
  | case1 => cases h
  | case2 rest =>
    cases h
    exact ⟨rfl, fun rest' ↦ rfl⟩
  | case3 c rest ih =>
    obtain ⟨⟨inner', rest'⟩, hsplit, heq⟩ := Option.map_eq_some_iff.mp h
    cases heq
    obtain ⟨rfl, hall⟩ := ih hsplit
    exact ⟨rfl, fun rest' ↦ by rw [List.cons_append, List.cons_append, splitQuoted, hall]; rfl⟩
  | case4 c rest hquote hslash ih =>
    obtain ⟨⟨inner', rest'⟩, hsplit, heq⟩ := Option.map_eq_some_iff.mp h
    cases heq
    obtain ⟨rfl, hall⟩ := ih hsplit
    refine ⟨rfl, fun rest' ↦ ?_⟩
    rw [List.cons_append, splitQuoted, hall]
    · rfl
    · exact hquote
    · rintro d others rfl heq
      -- A backslash at the very end would take the closing quote with it.
      cases inner' with
      | nil => exact hslash _ _ rfl rfl
      | cons e inner' => exact hslash _ _ rfl rfl

theorem readQuoted_append {s : String} (h : readQuoted cs = some (s, rest)) :
    ∃ inner, cs = inner ++ '"' :: rest ∧
      ∀ rest', readQuoted (inner ++ '"' :: rest') = some (s, rest') := by
  obtain ⟨⟨inner, after⟩, hsplit, h⟩ := Option.bind_eq_some_iff.mp h
  obtain ⟨text, htext, h⟩ := Option.bind_eq_some_iff.mp h
  cases h
  obtain ⟨hcs, hall⟩ := splitQuoted_append hsplit
  refine ⟨inner, hcs, fun rest' ↦ ?_⟩
  rw [readQuoted, hall]
  simp only [Option.bind_eq_bind, Option.bind_some, htext]

/-- A text in quotes is read in front of whatever follows. -/
theorem readQuoted_of_closed {inner : List Char} {s : String}
    (h : readQuoted (inner ++ ['"']) = some (s, [])) (rest : List Char) :
    readQuoted (inner ++ '"' :: rest) = some (s, rest) := by
  obtain ⟨inner', heq, hall⟩ := readQuoted_append h
  rw [List.append_cancel_right heq]
  exact hall rest

end SearchClient.Literal

import SearchClient.Proofs.Config.Grammar

/-!
# Values are read by their grammar

Whatever is a value by the grammar is read as this value, in front of whatever may follow it
(`reads`), and whatever is read is a value by the grammar (`finds`). Values, items of lists and
members of dictionaries are read by one another, so both are inductions on the fuel with one
statement for each of the three. Twice the length of a text is fuel enough for it.
-/

set_option autoImplicit false
set_option relaxedAutoImplicit false

namespace SearchClient.Literal

open Text

variable {cs rest : List Char} {c : Char} {v : Json} {fuel : Nat}

/-! ### The kinds of values -/

theorem readValue_truth (h : skipSpace cs = "true".toList ++ rest) :
    readValue (fuel + 1) cs = some (.bool true, skipSpace rest) := by
  rw [readValue]
  simp only [h]
  rfl

theorem readValue_untruth (h : skipSpace cs = "false".toList ++ rest) :
    readValue (fuel + 1) cs = some (.bool false, skipSpace rest) := by
  rw [readValue]
  simp only [h]
  rfl

/-- The blanks behind what was found are passed over, whatever is made of it. -/
theorem bind_skipSpace {α : Type} (found : Option (α × List Char)) (make : α → Json) :
    ((found.map fun (a, rest) ↦ (make a, rest)).bind fun (v, rest) ↦ some (v, skipSpace rest)) =
      found.map fun (a, rest) ↦ (make a, skipSpace rest) := by
  cases found <;> rfl

theorem readValue_list (h : skipSpace cs = '[' :: rest) : readValue (fuel + 1) cs =
    (readItems fuel rest).map fun (items, rest) ↦ (.array items, skipSpace rest) := by
  rw [readValue]
  simp only [h]
  exact bind_skipSpace _ _

theorem readValue_dictionary (h : skipSpace cs = '\x7b' :: rest) : readValue (fuel + 1) cs =
    (readMembers fuel rest).map fun (members, rest) ↦ (Json.ofMembers members, skipSpace rest) := by
  rw [readValue]
  simp only [h]
  exact bind_skipSpace _ _

theorem readValue_quoted (h : skipSpace cs = '"' :: rest) : readValue (fuel + 1) cs =
    (readQuoted rest).map fun (s, rest) ↦ (.string s, skipSpace rest) := by
  rw [readValue]
  simp only [h]
  exact bind_skipSpace _ _

theorem readValue_letter (h : skipSpace cs = '\'' :: c :: '\'' :: rest) :
    readValue (fuel + 1) cs = some (.string (String.ofList [c]), skipSpace rest) := by
  rw [readValue]
  simp only [h]
  rfl

/-- A word without separators that a text does not begin with does not stand in front of it and what
ends it. -/
theorem dropPrefix?_of_ends {word : List Char} (hword : ∀ c ∈ word, isSeparator c = false)
    (hcs : ¬ word <+: cs) (hrest : Ends rest) : Text.dropPrefix? word (cs ++ rest) = none := by
  rw [Option.eq_none_iff_forall_ne_some]
  intro after hafter
  obtain ⟨tail, hword', hrest'⟩ | ⟨tail, heq, -⟩ :=
    List.append_eq_append_iff.mp (dropPrefix?_eq_some_iff.mp hafter)
  · -- The word would go on with what ends the text.
    cases tail with
    | nil => exact hcs ⟨[], by simpa using hword'⟩
    | cons c tail =>
      have hc : isSeparator c = true := hrest.separates (by rw [hrest']; rfl)
      rw [hword c (by rw [hword']; simp)] at hc
      cases hc
  · exact hcs ⟨tail, heq.symm⟩

theorem readValue_plain {text : List Char} (h : skipSpace text = cs ++ rest) (hcs : IsPlain cs)
    (hrest : Ends rest) : readValue (fuel + 1) text = some (plain cs, rest) := by
  have htruth := dropPrefix?_of_ends (List.all_iff_forall_prop.mp (by decide)) hcs.truth hrest
  have huntruth := dropPrefix?_of_ends (List.all_iff_forall_prop.mp (by decide)) hcs.untruth hrest
  obtain ⟨htake, hdrop⟩ : (cs ++ rest).takeWhile (!isSeparator ·) = cs ∧
      (cs ++ rest).dropWhile (!isSeparator ·) = rest :=
    span_append (fun c hc ↦ by rw [hcs.separator c hc, Bool.not_false])
      (fun c hc ↦ by rw [hrest.separates hc, Bool.not_true])
  have hhead {mark : Char} {after : List Char} (heq : cs ++ rest = mark :: after)
      (hmark : mark = '[' ∨ mark = '\x7b' ∨ mark = '"' ∨ mark = '\'') : False := by
    cases cs with
    | nil =>
      have hends := hrest mark (by rw [← List.nil_append rest, heq]; rfl)
      rcases hmark with rfl | rfl | rfl | rfl <;> exact absurd hends (by decide)
    | cons c cs =>
      cases heq
      have hseparator := hcs.separator mark List.mem_cons_self
      rcases hmark with rfl | rfl | rfl | rfl
      · cases hseparator
      · cases hseparator
      · exact hcs.quote rfl
      · exact hcs.apostrophe rfl
  rw [readValue]
  simp only [h, htruth, huntruth]
  split
  · rename_i heq
    cases heq
  · rename_i heq
    cases heq
  · rename_i heq
    exact (hhead heq (by simp)).elim
  · rename_i heq
    exact (hhead heq (by simp)).elim
  · rename_i heq
    exact (hhead heq (by simp)).elim
  · rename_i heq
    exact (hhead heq (by simp)).elim
  · have hnone : IsSpaces [] := fun c hc ↦ by cases hc
    have hskip : skipSpace rest = rest := skipSpace_append hnone fun c ↦ hrest.not_isSpace
    rw [htake, hdrop]
    simp [hskip]

/-! ### Values of the grammar are read -/

/-- What is a value by the grammar is read as one, with this much fuel. -/
def ReadsValues (fuel : Nat) : Prop :=
  ∀ cs v, IsValue cs v → 2 * cs.length < fuel → ∀ rest, Ends rest →
    readValue fuel (cs ++ rest) = some (v, rest)

def ReadsItems (fuel : Nat) : Prop :=
  ∀ cs items, IsItems cs items → 2 * cs.length ≤ fuel → ∀ rest,
    readItems fuel (cs ++ rest) = some (items, rest)

def ReadsMembers (fuel : Nat) : Prop :=
  ∀ cs members, IsMembers cs members → 2 * cs.length ≤ fuel → ∀ rest,
    readMembers fuel (cs ++ rest) = some (members, rest)

theorem IsMarked.head (h : IsMarked cs v) :
    ∃ c rest, cs = c :: rest ∧ isSpace c = false ∧ c ≠ ']' := by
  cases h <;> exact ⟨_, _, rfl, by decide, by decide⟩

/-- A value that shows where it ends is read up to there, and so are the blanks behind it. -/
theorem readValue_of_isMarked (hitems : ReadsItems fuel) (hmembers : ReadsMembers fuel)
    (h : IsMarked cs v) (hfuel : 2 * cs.length ≤ fuel + 2) {text : List Char}
    (htext : skipSpace text = cs ++ rest) :
    readValue (fuel + 1) text = some (v, skipSpace rest) := by
  cases h with
  | truth => exact readValue_truth htext
  | untruth => exact readValue_untruth htext
  | @quoted inner s h =>
    rw [List.cons_append, List.append_assoc] at htext
    rw [readValue_quoted htext]
    exact congrArg (Option.map _) (readQuoted_of_closed h rest)
  | letter => exact readValue_letter htext
  | @list body items h =>
    rw [List.length_cons] at hfuel
    rw [readValue_list htext]
    exact congrArg (Option.map _) (hitems body items h (by omega) rest)
  | @dictionary body members h =>
    rw [List.length_cons] at hfuel
    rw [readValue_dictionary htext]
    exact congrArg (Option.map _) (hmembers body members h (by omega) rest)

theorem readsValues_succ (hitems : ReadsItems fuel) (hmembers : ReadsMembers fuel) :
    ReadsValues (fuel + 1) := by
  intro cs v h hfuel rest hrest
  have hspace : ∀ c ∈ rest.head?, isSpace c = false := fun c ↦ hrest.not_isSpace
  cases h with
  | @marked front core back _ hfront h hback =>
    have hskip : skipSpace (front ++ core ++ back ++ rest) = core ++ (back ++ rest) := by
      obtain ⟨c, core', rfl, hc, -⟩ := h.head
      rw [List.append_assoc, List.append_assoc]
      refine skipSpace_append hfront fun d hd ↦ ?_
      cases hd
      exact hc
    simp only [List.length_append] at hfuel
    rw [readValue_of_isMarked hitems hmembers h (by omega) hskip, skipSpace_append hback hspace]
  | @plain front cs hfront h =>
    have hskip : skipSpace (front ++ cs ++ rest) = cs ++ rest := by
      rw [List.append_assoc]
      refine skipSpace_append hfront fun c hc ↦ ?_
      cases cs with
      | nil => exact hspace c hc
      | cons d cs => exact h.space c hc
    exact readValue_plain hskip h hrest

/-- No value begins as a list ends. -/
theorem IsValue.head (h : IsValue cs v) : cs.head? ≠ some ']' := by
  have hspace {front : List Char} {c : Char} (hfront : IsSpaces (c :: front)) : c ≠ ']' := by
    rintro rfl
    exact absurd (hfront ']' List.mem_cons_self) (by decide)
  intro hhead
  cases h with
  | @marked front core back _ hfront h hback =>
    obtain ⟨c, core', rfl, -, hc⟩ := h.head
    cases front with
    | nil => exact hc (Option.some.inj hhead)
    | cons d front => exact hspace hfront (Option.some.inj hhead)
  | @plain front cs hfront h =>
    cases front with
    | nil =>
      have hseparator := h.separator ']' (List.mem_of_mem_head? hhead)
      cases hseparator
    | cons d front => exact hspace hfront (Option.some.inj hhead)

theorem readItems_last (h : cs.head? ≠ some ']') (hv : readValue fuel cs = some (v, ']' :: rest)) :
    readItems (fuel + 1) cs = some ([v], rest) := by
  rw [readItems]
  · rw [hv]
    rfl
  · rintro rest rfl
    exact h rfl

theorem readItems_more (h : cs.head? ≠ some ']') (hv : readValue fuel cs = some (v, ',' :: rest)) :
    readItems (fuel + 1) cs =
      (readItems fuel rest).map fun (items, rest) ↦ (v :: items, rest) := by
  rw [readItems]
  · rw [hv]
    show (readItems fuel rest).bind (fun (items, rest) ↦ some (v :: items, rest)) = _
    cases readItems fuel rest <;> rfl
  · rintro rest rfl
    exact h rfl

theorem readsItems_succ (hvalues : ReadsValues fuel) (hitems : ReadsItems fuel) :
    ReadsItems (fuel + 1) := by
  intro cs items h hfuel rest
  cases h with
  | nil =>
    rw [List.singleton_append, readItems]
    intro hfuel
    cases hfuel
  | @last cs v hne h =>
    have hhead : (cs ++ ']' :: rest).head? ≠ some ']' := by
      obtain ⟨c, cs, rfl⟩ := List.exists_cons_of_ne_nil hne
      exact h.head
    rw [List.length_append, List.length_singleton] at hfuel
    rw [List.append_assoc, List.singleton_append]
    exact readItems_last hhead (hvalues cs v h (by omega) _ (.of_mem (by decide) rest))
  | @more cs others v items h hothers =>
    have hhead : (cs ++ ',' :: (others ++ rest)).head? ≠ some ']' := by
      cases cs with
      | nil => simp
      | cons c cs => exact h.head
    rw [List.length_append, List.length_cons] at hfuel
    rw [List.append_assoc, List.cons_append,
      readItems_more hhead (hvalues cs v h (by omega) _ (.of_mem (by decide) _)),
      hitems others items hothers (by omega) rest]
    rfl

theorem isKeyChar_of_isSpace (h : isSpace c = true) : isKeyChar c = false := by
  simp only [isSpace, Bool.or_eq_true, beq_iff_eq] at h
  rcases h with (((rfl | rfl) | rfl) | rfl) | rfl <;> decide

theorem readKey_of_isKey {key : List Char} {name : String} (h : IsKey key name)
    (hrest : ∀ c ∈ rest.head?, isKeyChar c = false) :
    readKey (key ++ rest) = some (name, rest) := by
  cases h with
  | @bare _ hne h =>
    obtain ⟨htake, hdrop⟩ := span_append h hrest
    unfold readKey
    split
    · rename_i heq
      obtain ⟨c, key, rfl⟩ := List.exists_cons_of_ne_nil hne
      cases heq
      exact absurd (h '"' List.mem_cons_self) (by decide)
    · simp [htake, hdrop, hne]
  | @quoted inner s h =>
    rw [List.cons_append, List.append_assoc]
    exact readQuoted_of_closed h rest

/-- No key begins as a dictionary ends, or with a blank. -/
theorem IsKey.head {key : List Char} {name : String} (h : IsKey key name) :
    ∃ c rest, key = c :: rest ∧ isSpace c = false ∧ c ≠ '\x7d' := by
  cases h with
  | @bare _ hne h =>
    obtain ⟨c, key, rfl⟩ := List.exists_cons_of_ne_nil hne
    have hc := h c List.mem_cons_self
    refine ⟨c, key, rfl, ?_, ?_⟩
    · rw [Bool.eq_false_iff]
      exact fun hspace ↦ Bool.false_ne_true ((isKeyChar_of_isSpace hspace).symm.trans hc)
    · rintro rfl
      exact absurd hc (by decide)
  | quoted h => exact ⟨_, _, rfl, by decide, by decide⟩

section Members

variable {front key back after : List Char} {name : String}

/-- A key with blanks around it is read in front of its sign. -/
theorem readKey_of_spaced (hfront : IsSpaces front) (hkey : IsKey key name)
    (hback : IsSpaces back) (after : List Char) :
    readKey (skipSpace (front ++ key ++ back ++ '=' :: after)) =
      some (name, back ++ '=' :: after) := by
  have hskip : skipSpace (front ++ key ++ back ++ '=' :: after) =
      key ++ (back ++ '=' :: after) := by
    obtain ⟨c, key', rfl, hc, -⟩ := hkey.head
    rw [List.append_assoc, List.append_assoc]
    refine skipSpace_append hfront fun d hd ↦ ?_
    cases hd
    exact hc
  rw [hskip]
  refine readKey_of_isKey hkey fun c hc ↦ ?_
  cases back with
  | nil =>
    cases hc
    decide
  | cons d back =>
    cases hc
    exact isKeyChar_of_isSpace (hback c List.mem_cons_self)

theorem head_of_spaced (hfront : IsSpaces front) (hkey : IsKey key name) :
    (front ++ key ++ back ++ '=' :: after).head? ≠ some '\x7d' := by
  cases front with
  | nil =>
    obtain ⟨c, key', rfl, -, hc⟩ := hkey.head
    exact fun hhead ↦ hc (Option.some.inj hhead)
  | cons d front =>
    intro hhead
    cases hhead
    exact absurd (hfront '\x7d' List.mem_cons_self) (by decide)

theorem readMembers_last (hfront : IsSpaces front) (hkey : IsKey key name) (hback : IsSpaces back)
    (hv : readValue fuel after = some (v, '\x7d' :: rest)) :
    readMembers (fuel + 1) (front ++ key ++ back ++ '=' :: after) = some ([(name, v)], rest) := by
  have hsign : skipSpace (back ++ '=' :: after) = '=' :: after :=
    skipSpace_append hback fun c hc ↦ by cases hc; decide
  rw [readMembers]
  · rw [readKey_of_spaced hfront hkey hback]
    simp [hsign, hv]
  · rintro rest heq
    exact head_of_spaced hfront hkey (congrArg List.head? heq)

theorem readMembers_more (hfront : IsSpaces front) (hkey : IsKey key name) (hback : IsSpaces back)
    (hv : readValue fuel after = some (v, ',' :: rest)) :
    readMembers (fuel + 1) (front ++ key ++ back ++ '=' :: after) =
      (readMembers fuel rest).map fun (members, rest) ↦ ((name, v) :: members, rest) := by
  have hsign : skipSpace (back ++ '=' :: after) = '=' :: after :=
    skipSpace_append hback fun c hc ↦ by cases hc; decide
  rw [readMembers]
  · rw [readKey_of_spaced hfront hkey hback]
    simp only [Option.bind_eq_bind, Option.bind_some, hsign, hv]
    cases readMembers fuel rest <;> rfl
  · rintro rest heq
    exact head_of_spaced hfront hkey (congrArg List.head? heq)

end Members

theorem readsMembers_succ (hvalues : ReadsValues fuel) (hmembers : ReadsMembers fuel) :
    ReadsMembers (fuel + 1) := by
  intro cs items h hfuel rest
  cases h with
  | nil =>
    rw [List.singleton_append, readMembers]
    intro hfuel
    cases hfuel
  | @last front key back cs name v hfront hkey hback h =>
    simp only [List.length_append, List.length_cons, List.length_nil] at hfuel
    have htext : front ++ key ++ back ++ '=' :: (cs ++ ['\x7d']) ++ rest =
        front ++ key ++ back ++ '=' :: (cs ++ '\x7d' :: rest) := by simp
    rw [htext]
    exact readMembers_last hfront hkey hback
      (hvalues cs v h (by omega) _ (.of_mem (by decide) rest))
  | @more front key back cs others name v items hfront hkey hback h hothers =>
    simp only [List.length_append, List.length_cons] at hfuel
    have htext : front ++ key ++ back ++ '=' :: (cs ++ ',' :: others) ++ rest =
        front ++ key ++ back ++ '=' :: (cs ++ ',' :: (others ++ rest)) := by simp
    rw [htext,
      readMembers_more hfront hkey hback (hvalues cs v h (by omega) _ (.of_mem (by decide) _)),
      hmembers others items hothers (by omega) rest]
    rfl

/-- All values, items and members of the grammar are read. -/
theorem reads (fuel : Nat) : ReadsValues fuel ∧ ReadsItems fuel ∧ ReadsMembers fuel := by
  induction fuel with
  | zero =>
    refine ⟨fun cs v h hfuel ↦ absurd hfuel (Nat.not_lt_zero _), fun cs items h hfuel ↦ ?_,
      fun cs members h hfuel ↦ ?_⟩
    · cases h <;> simp at hfuel
    · cases h <;> simp at hfuel
  | succ fuel ih =>
    obtain ⟨hvalues, hitems, hmembers⟩ := ih
    exact ⟨readsValues_succ hitems hmembers, readsItems_succ hvalues hitems,
      readsMembers_succ hvalues hmembers⟩

/-! ### What is read is a value of the grammar -/

/-- What is read as a value is one by the grammar, and nothing is lost. -/
def FindsValues (fuel : Nat) : Prop :=
  ∀ cs v rest, readValue fuel cs = some (v, rest) → ∃ text, cs = text ++ rest ∧ IsValue text v

def FindsItems (fuel : Nat) : Prop :=
  ∀ cs items rest, readItems fuel cs = some (items, rest) →
    ∃ text, cs = text ++ rest ∧ IsItems text items

def FindsMembers (fuel : Nat) : Prop :=
  ∀ cs members rest, readMembers fuel cs = some (members, rest) →
    ∃ text, cs = text ++ rest ∧ IsMembers text members

/-- A value that shows where it ends has the blanks around it. -/
theorem exists_of_marked {core after : List Char} (h : IsMarked core v)
    (hcs : skipSpace cs = core ++ after) :
    ∃ text, cs = text ++ skipSpace after ∧ IsValue text v := by
  obtain ⟨front, hfront, hcs', -⟩ := exists_of_skipSpace cs
  obtain ⟨back, hback, hafter, -⟩ := exists_of_skipSpace after
  refine ⟨front ++ core ++ back, ?_, .marked hfront h hback⟩
  rw [hcs', hcs, List.append_assoc, List.append_assoc, ← hafter]

/-- A text that begins as no other value does is plain up to a separator. -/
theorem isPlain_takeWhile (hspace : ∀ c ∈ cs.head?, isSpace c = false)
    (hquote : cs.head? ≠ some '"') (hapostrophe : cs.head? ≠ some '\'')
    (htruth : Text.dropPrefix? "true".toList cs = none)
    (huntruth : Text.dropPrefix? "false".toList cs = none) :
    IsPlain (cs.takeWhile (!isSeparator ·)) := by
  have hhead (c : Char) (hc : c ∈ (cs.takeWhile (!isSeparator ·)).head?) : c ∈ cs.head? := by
    cases cs with
    | nil => cases hc
    | cons d cs =>
      rw [List.takeWhile_cons] at hc
      split at hc
      · exact hc
      · cases hc
  have hword (word : List Char) (hnone : Text.dropPrefix? word cs = none) :
      ¬ word <+: cs.takeWhile (!isSeparator ·) := by
    intro hprefix
    obtain ⟨after, hafter⟩ := hprefix.trans (List.takeWhile_prefix _)
    rw [dropPrefix?_eq_some_iff.mpr hafter.symm] at hnone
    cases hnone
  exact
    { separator := fun c hc ↦ by simpa using List.mem_takeWhile_imp hc
      space := fun c hc ↦ hspace c (hhead c hc)
      quote := fun hc ↦ hquote (hhead _ hc)
      apostrophe := fun hc ↦ hapostrophe (hhead _ hc)
      truth := hword _ htruth
      untruth := hword _ huntruth }

theorem isSpace_of_isSeparator (h : isSeparator c = true) : isSpace c = false := by
  simp only [isSeparator, Bool.or_eq_true, beq_iff_eq] at h
  rcases h with (((rfl | rfl) | rfl) | rfl) | rfl <;> decide

theorem skipSpace_dropWhile (cs : List Char) : skipSpace (cs.dropWhile (!isSeparator ·)) =
    cs.dropWhile (!isSeparator ·) := by
  have hhead := List.head?_dropWhile_not (!isSeparator ·) cs
  cases hcs : cs.dropWhile (!isSeparator ·) with
  | nil => rfl
  | cons c rest =>
    rw [hcs] at hhead
    have hseparator : isSeparator c = true := by simpa using hhead
    exact List.dropWhile_cons_of_neg (by simp [isSpace_of_isSeparator hseparator])

theorem findsValues_succ (hitems : FindsItems fuel) (hmembers : FindsMembers fuel) :
    FindsValues (fuel + 1) := by
  intro cs v rest h
  rw [readValue] at h
  split at h
  · rename_i after htruth
    cases h
    exact exists_of_marked .truth (dropPrefix?_eq_some_iff.mp htruth)
  · rename_i after _ huntruth
    cases h
    exact exists_of_marked .untruth (dropPrefix?_eq_some_iff.mp huntruth)
  · rename_i after _ _ hcs
    obtain ⟨⟨items, after'⟩, hread, heq⟩ :=
      Option.map_eq_some_iff.mp ((bind_skipSpace _ Json.array).symm.trans h)
    cases heq
    obtain ⟨text, rfl, htext⟩ := hitems _ _ _ hread
    exact exists_of_marked (.list htext) hcs
  · rename_i after _ _ hcs
    obtain ⟨⟨members, after'⟩, hread, heq⟩ :=
      Option.map_eq_some_iff.mp ((bind_skipSpace _ Json.ofMembers).symm.trans h)
    cases heq
    obtain ⟨text, rfl, htext⟩ := hmembers _ _ _ hread
    exact exists_of_marked (.dictionary htext) hcs
  · rename_i after _ _ hcs
    obtain ⟨⟨s, after'⟩, hread, heq⟩ :=
      Option.map_eq_some_iff.mp ((bind_skipSpace _ Json.string).symm.trans h)
    cases heq
    obtain ⟨inner, rfl, hinner⟩ := readQuoted_append hread
    refine exists_of_marked (.quoted (hinner [])) ?_
    rw [hcs, List.cons_append, List.append_assoc, List.singleton_append]
  · rename_i after _ _ hcs
    split at h
    · cases h
      exact exists_of_marked .letter hcs
    · cases h
  · rename_i htruth huntruth _ _ hquote hapostrophe
    cases h
    obtain ⟨front, hfront, hcs, hspace⟩ := exists_of_skipSpace cs
    have hplain : IsPlain ((skipSpace cs).takeWhile (!isSeparator ·)) :=
      isPlain_takeWhile hspace (fun hhead ↦ (List.head?_eq_some_iff.mp hhead).elim hquote)
        (fun hhead ↦ (List.head?_eq_some_iff.mp hhead).elim hapostrophe) htruth huntruth
    refine ⟨_, ?_, .plain hfront hplain⟩
    rw [skipSpace_dropWhile, List.append_assoc, List.takeWhile_append_dropWhile]
    exact hcs

theorem findsItems_succ (hvalues : FindsValues fuel) (hitems : FindsItems fuel) :
    FindsItems (fuel + 1) := by
  intro cs items rest h
  rw [readItems.eq_def] at h
  split at h
  · rename_i hfuel
    cases hfuel
  · cases h
    exact ⟨[']'], rfl, .nil⟩
  · rename_i fuel' hfuel hopen
    cases hfuel
    obtain ⟨⟨v, after⟩, hv, hafter⟩ := Option.bind_eq_some_iff.mp h
    clear h
    obtain ⟨text, rfl, htext⟩ := hvalues _ _ _ hv
    split at hafter
    · rename_i item after' heq
      cases heq
      obtain ⟨⟨others, rest'⟩, hothers, heq⟩ := Option.bind_eq_some_iff.mp hafter
      cases heq
      obtain ⟨text', rfl, htext'⟩ := hitems _ _ _ hothers
      exact ⟨text ++ ',' :: text', by simp, .more htext htext'⟩
    · rename_i item after' heq
      cases heq
      cases hafter
      have hne : text ≠ [] := by
        rintro rfl
        exact hopen _ rfl
      exact ⟨text ++ [']'], by simp, .last hne htext⟩
    · cases hafter

/-- What is read as a key is one by the grammar. -/
theorem exists_of_readKey {name : String} (h : readKey cs = some (name, rest)) :
    ∃ key, cs = key ++ rest ∧ IsKey key name := by
  unfold readKey at h
  split at h
  · obtain ⟨inner, rfl, hinner⟩ := readQuoted_append h
    exact ⟨'"' :: (inner ++ ['"']), by simp, .quoted (hinner [])⟩
  · simp only at h
    split_ifs at h with hempty
    cases h
    refine ⟨cs.takeWhile isKeyChar, List.takeWhile_append_dropWhile.symm, .bare ?_ ?_⟩
    · simpa using hempty
    · exact fun c hc ↦ List.mem_takeWhile_imp hc

theorem findsMembers_succ (hvalues : FindsValues fuel) (hmembers : FindsMembers fuel) :
    FindsMembers (fuel + 1) := by
  intro cs members rest h
  rw [readMembers.eq_def] at h
  split at h
  · rename_i hfuel
    cases hfuel
  · cases h
    exact ⟨['\x7d'], rfl, .nil⟩
  · rename_i cs _ _ fuel' hfuel hopen
    cases hfuel
    obtain ⟨⟨name, after⟩, hkey, hmember⟩ := Option.bind_eq_some_iff.mp h
    clear h
    obtain ⟨front, hfront, hcs, -⟩ := exists_of_skipSpace cs
    obtain ⟨back, hback, hafter, -⟩ := exists_of_skipSpace after
    obtain ⟨key, hskip, hkey⟩ := exists_of_readKey hkey
    simp only at hmember
    split at hmember
    · rename_i after' hsign
      obtain ⟨⟨v, after''⟩, hv, hend⟩ := Option.bind_eq_some_iff.mp hmember
      clear hmember
      obtain ⟨text, rfl, htext⟩ := hvalues _ _ _ hv
      have hspelled : cs = front ++ key ++ back ++ '=' :: (text ++ after'') := by
        rw [hcs, hskip, hafter, hsign]
        simp
      split at hend
      · rename_i heq
        cases heq
        obtain ⟨⟨others, rest'⟩, hread, heq⟩ := Option.bind_eq_some_iff.mp hend
        cases heq
        obtain ⟨text', rfl, hothers⟩ := hmembers _ _ _ hread
        exact ⟨_, by rw [hspelled]; simp, .more hfront hkey hback htext hothers⟩
      · rename_i heq
        cases heq
        cases hend
        exact ⟨_, by rw [hspelled]; simp, .last hfront hkey hback htext⟩
      · cases hend
    · cases hmember

/-- Whatever is read is a value, are items or members of the grammar. -/
theorem finds (fuel : Nat) : FindsValues fuel ∧ FindsItems fuel ∧ FindsMembers fuel := by
  induction fuel with
  | zero =>
    refine ⟨fun cs v rest h ↦ ?_, fun cs items rest h ↦ ?_, fun cs members rest h ↦ ?_⟩
    · rw [readValue] at h
      cases h
    · rw [readItems] at h
      cases h
    · rw [readMembers] at h
      cases h
  | succ fuel ih =>
    obtain ⟨hvalues, hitems, hmembers⟩ := ih
    exact ⟨findsValues_succ hitems hmembers, findsItems_succ hvalues hitems,
      findsMembers_succ hvalues hmembers⟩

end SearchClient.Literal

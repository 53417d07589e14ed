import SearchClient.Proofs.Json.Lexing
import SearchClient.Proofs.Json.Spelling

/-!
# Texts are read as their documents

The tokens of a document are taken as the document's tree (`Written.take_tokens`), by induction over
the document, with an invariant for items and members of a container that is still open. Trees are
compared without the spelling that containers keep. So every text of the grammar is read as what was
written (`parse_written`), and a text says one thing only (`Denotes.unique`).
-/

set_option autoImplicit false
set_option relaxedAutoImplicit false

namespace SearchClient.Json

open Text

/-! ### Texts of a document -/

mutual

/-- The tree of a document, its containers without their spelling. -/
def Written.tree : Written → Tree
  | .null => .null
  | .bool b => .bool b
  | .number n _ => .number n.spelling n.value
  | .string s => .string s.quoted
  | .array items => .array [] (treesOfItems items) .closed
  | .object members => .object [] (treesOfMembers members) .closed

/-- The trees of items. -/
def treesOfItems : List Written → List Tree
  | [] => []
  | w :: items => w.tree :: treesOfItems items

/-- The trees of members. -/
def treesOfMembers : List (SpelledString × Written) → List (Quoted × Tree)
  | [] => []
  | (name, w) :: members => (name.quoted, w.tree) :: treesOfMembers members

end

/-- One token is taken, without blanks in front of it. -/
def take (r : Reading) (token : Token) : Reading := step r ⟨[], token⟩

theorem foldl_take_congr {r r' : Reading} (h : r.bare = r'.bare) (tokens : List Token) :
    (tokens.foldl take r).bare = (tokens.foldl take r').bare := by
  induction tokens generalizing r r' with
  | nil => exact h
  | cons token tokens ih => exact ih (step_congr h rfl)

/-- The stack is open where the phase awaits a value. -/
def Awaits : Phase → List Frame → Prop
  | .value, [] | .value, .array .. :: _ | .valueOrClose, .array .. :: _
  | .memberValue _, .object .. :: _ => True
  | _, _ => False

theorem awaits_item {phase : Phase} (h : phase = .value ∨ phase = .valueOrClose) (s : List Glyph)
    (acc : List Tree) (stack : List Frame) : Awaits phase (.array s acc :: stack) := by
  obtain rfl | rfl := h <;> trivial

/-- The stack where a container is opened: in an object its member has been entered. -/
def entered : Phase → List Frame → List Frame
  | .memberValue key, .object s members :: stack => .object s ((key, .null) :: members) :: stack
  | _, stack => stack

variable {phase : Phase} {stack : List Frame}

theorem openFrame_eq (h : Awaits phase stack) (frame : Frame) (next : Phase) :
    openFrame phase frame next stack = .underWay (frame :: entered phase stack) next := by
  match phase, stack, h with
  | .value, [], _ | .value, .array .. :: _, _ | .valueOrClose, .array .. :: _, _
  | .memberValue _, .object .. :: _, _ => rfl

theorem closeTop_entered (h : Awaits phase stack) (top : Frame) :
    (closeTop (top :: entered phase stack)).bare =
      (deliver phase (top.close .closed) stack).bare := by
  match phase, stack, h with
  | .value, [], _ => rfl
  | .value, .array .. :: _, _ | .valueOrClose, .array .. :: _, _
  | .memberValue _, .object .. :: _, _ => rfl

theorem take_value (h : Awaits phase stack) {token : Token} (htoken : token ≠ .closeBracket) :
    take (.underWay stack phase) token = takeValue ⟨[], token⟩ stack phase := by
  match phase, stack, h with
  | .value, [], _ | .value, .array .. :: _, _ | .memberValue _, .object .. :: _, _ => rfl
  | .valueOrClose, .array .. :: _, _ => cases token <;> first | rfl | exact absurd rfl htoken

theorem take_openBracket (h : Awaits phase stack) :
    (take (.underWay stack phase) .openBracket).bare =
      (Reading.underWay (.array [] [] :: entered phase stack) .valueOrClose).bare := by
  rw [take_value h, ← openFrame_eq h]
  · refine openFrame_congr (map_bare_extend ..) ?_ ..
    rfl
  · nofun

theorem take_openBrace (h : Awaits phase stack) :
    (take (.underWay stack phase) .openBrace).bare =
      (Reading.underWay (.object [] [] :: entered phase stack) .keyOrClose).bare := by
  rw [take_value h, ← openFrame_eq h]
  · refine openFrame_congr (map_bare_extend ..) ?_ ..
    rfl
  · nofun

variable {s : List Glyph} {acc : List Tree} {known : List (Quoted × Tree)}

/-- A closing bracket closes the array, whether or not it has items. -/
theorem take_closeBracket (h : phase = .separator ∨ phase = .valueOrClose) :
    (take (.underWay (.array s acc :: stack) phase) .closeBracket).bare =
      (closeTop (.array s acc :: stack)).bare := by
  obtain rfl | rfl := h <;>
    exact closeTop_congr (map_bare_extend [.char ']'] (.array s acc :: stack))

theorem take_closeBrace (h : phase = .separator ∨ phase = .keyOrClose) :
    (take (.underWay (.object s known :: stack) phase) .closeBrace).bare =
      (closeTop (.object s known :: stack)).bare := by
  obtain rfl | rfl := h <;>
    exact closeTop_congr (map_bare_extend [.char '\x7d'] (.object s known :: stack))

/-- Behind a comma in an array a value is awaited. -/
theorem take_comma_array :
    (take (.underWay (.array s acc :: stack) .separator) .comma).bare =
      (Reading.underWay (.array s acc :: stack) .value).bare :=
  rfl

/-- Behind a comma in an object a name is awaited. -/
theorem take_comma_object :
    (take (.underWay (.object s known :: stack) .separator) .comma).bare =
      (Reading.underWay (.object s known :: stack) .key).bare :=
  rfl

/-- Behind a name and a colon the value of the member is awaited. -/
theorem take_name (h : phase = .key ∨ phase = .keyOrClose) (name : Quoted) :
    ([.string name, .colon].foldl take (.underWay (.object s known :: stack) phase)).bare =
      (Reading.underWay (.object s known :: stack) (.memberValue name)).bare := by
  obtain rfl | rfl := h <;> rfl

/-- A closed array is delivered where it was opened. -/
theorem take_end_array (h : Awaits phase stack) {last : Phase}
    (hlast : last = .separator ∨ last = .valueOrClose) :
    (take (.underWay (.array s acc :: entered phase stack) last) .closeBracket).bare =
      (deliver phase (.array [] acc.reverse .closed) stack).bare := by
  rw [take_closeBracket hlast, closeTop_entered h]
  refine deliver_congr rfl ?_ _
  rfl

theorem take_end_object (h : Awaits phase stack) {last : Phase}
    (hlast : last = .separator ∨ last = .keyOrClose) :
    (take (.underWay (.object s known :: entered phase stack) last) .closeBrace).bare =
      (deliver phase (.object [] known.reverse .closed) stack).bare := by
  rw [take_closeBrace hlast, closeTop_entered h]
  refine deliver_congr rfl ?_ _
  rfl

mutual

/-- The tokens of a document are taken as its tree, where a value is awaited. -/
theorem Written.take_tokens : (w : Written) → {phase : Phase} → {stack : List Frame} →
    Awaits phase stack →
    (w.tokens.foldl take (.underWay stack phase)).bare = (deliver phase w.tree stack).bare
  | .null, _, _, h | .bool _, _, _, h | .number _ _, _, _, h | .string _, _, _, h => by
    rw [Written.tokens, List.foldl_cons, List.foldl_nil, take_value h]
    · exact deliver_congr (map_bare_extend ..) rfl _
    · nofun
  | .array [], phase, stack, h => by
    rw [Written.tokens, List.foldl_cons, foldl_take_congr (take_openBracket h)]
    exact take_end_array h (.inr rfl)
  | .array (w :: items), phase, stack, h => by
    rw [Written.tokens, List.foldl_cons, foldl_take_congr (take_openBracket h), List.foldl_append,
      foldl_take_congr (take_itemTokens (w :: items) nofun (.inr rfl)), List.foldl_cons,
      List.foldl_nil, take_end_array h (.inl rfl), List.append_nil, List.reverse_reverse,
      Written.tree]
  | .object [], phase, stack, h => by
    rw [Written.tokens, List.foldl_cons, foldl_take_congr (take_openBrace h)]
    exact take_end_object h (.inr rfl)
  | .object ((name, w) :: members), phase, stack, h => by
    rw [Written.tokens, List.foldl_cons, foldl_take_congr (take_openBrace h), List.foldl_append,
      foldl_take_congr (take_memberTokens ((name, w) :: members) nofun (.inr rfl)), List.foldl_cons,
      List.foldl_nil, take_end_object h (.inl rfl), List.append_nil, List.reverse_reverse,
      Written.tree]

/-- The tokens of items, of which there is one at least, are taken as their trees. -/
theorem take_itemTokens : (items : List Written) → items ≠ [] → {phase : Phase} →
    {s : List Glyph} → {acc : List Tree} → {stack : List Frame} →
    phase = .value ∨ phase = .valueOrClose →
    ((itemTokens items).foldl take (.underWay (.array s acc :: stack) phase)).bare =
      (Reading.underWay (.array s ((treesOfItems items).reverse ++ acc) :: stack) .separator).bare
  | [w], _, phase, s, acc, stack, h => w.take_tokens (awaits_item h s acc stack)
  | w :: next :: items, _, phase, s, acc, stack, h => by
    have htrees : (treesOfItems (w :: next :: items)).reverse ++ acc =
        (treesOfItems (next :: items)).reverse ++ w.tree :: acc := by
      rw [treesOfItems, List.reverse_cons, List.append_assoc, List.singleton_append]
    -- the first item is delivered to the array; behind the comma its rest awaits a value again
    rw [itemTokens, List.foldl_append, foldl_take_congr (w.take_tokens (awaits_item h s acc stack)),
      List.foldl_cons, deliver, foldl_take_congr take_comma_array,
      take_itemTokens (next :: items) nofun (.inl rfl), htrees]

/-- The tokens of members, of which there is one at least, are taken as their trees. -/
theorem take_memberTokens : (members : List (SpelledString × Written)) → members ≠ [] →
    {phase : Phase} → {s : List Glyph} → {known : List (Quoted × Tree)} → {stack : List Frame} →
    phase = .key ∨ phase = .keyOrClose →
    ((memberTokens members).foldl take (.underWay (.object s known :: stack) phase)).bare =
      (Reading.underWay (.object s ((treesOfMembers members).reverse ++ known) :: stack)
        .separator).bare
  | [(name, w)], _, phase, s, known, stack, h =>
    (foldl_take_congr (take_name h name.quoted) w.tokens).trans (w.take_tokens trivial)
  | (name, w) :: next :: members, _, phase, s, known, stack, h => by
    have hawaits : Awaits (.memberValue name.quoted) (.object s known :: stack) := trivial
    refine (foldl_take_congr (take_name h name.quoted)
      (w.tokens ++ .comma :: memberTokens (next :: members))).trans ?_
    have htrees : (treesOfMembers ((name, w) :: next :: members)).reverse ++ known =
        (treesOfMembers (next :: members)).reverse ++ (name.quoted, w.tree) :: known := by
      rw [treesOfMembers, List.reverse_cons, List.append_assoc, List.singleton_append]
    rw [List.foldl_append, foldl_take_congr (w.take_tokens hawaits), List.foldl_cons, deliver,
      foldl_take_congr take_comma_object, take_memberTokens (next :: members) nofun (.inl rfl),
      htrees]

end

/-- A text of a document is read as the tree of the document, and nothing follows it. -/
theorem bare_ofString {w : Written} {text : String} (h : Spaced w.tokens text.toList) :
    (Source.ofString text).bare = ⟨w.tree.bare, false⟩ := by
  have htokens : (pieces (Utf8.glyphs text)).map Piece.token =
      (w.tokens.map (Piece.mk [])).map Piece.token := by
    rw [List.map_map]
    exact (Written.tokens_pieces h).trans (List.map_id w.tokens).symm
  have htake : ((w.tokens.map (Piece.mk [])).foldl step (.underWay [] .value)).bare =
      (Reading.complete w.tree).bare := by
    rw [List.foldl_map]
    exact w.take_tokens trivial
  exact finish_congr ((foldl_step_congr htokens rfl).trans htake)

/-- A text of a document is read as the document of its tree. -/
theorem parse_written {w : Written} {text : String} (h : Spaced w.tokens text.toList) :
    parse text = w.tree.toJson depthLimit := by
  rw [parse, ← ofSource_bare, bare_ofString h, ofSource, Source.read, Tree.toJson_bare]
  cases w.tree.toJson depthLimit <;> rfl

/-! ### A text says one thing -/

mutual

theorem Written.bare_tree : (w : Written) → w.tree.bare = w.tree
  | .null | .bool _ | .number _ _ | .string _ => rfl
  | .array items => by rw [Written.tree, Tree.bare, bare_treesOfItems items]
  | .object members => by rw [Written.tree, Tree.bare, bare_treesOfMembers members]

theorem bare_treesOfItems :
    (items : List Written) → bareItems (treesOfItems items) = treesOfItems items
  | [] => rfl
  | w :: items => by rw [treesOfItems, bareItems, w.bare_tree, bare_treesOfItems items]

theorem bare_treesOfMembers : (members : List (SpelledString × Written)) →
    bareMembers (treesOfMembers members) = treesOfMembers members
  | [] => rfl
  | (name, w) :: members => by
    rw [treesOfMembers, bareMembers, w.bare_tree, bare_treesOfMembers members]

end

/-- Different numbers are spelled differently. -/
theorem Numeral.WellFormed.spelling_inj {n n' : Numeral} (hn : n.WellFormed) (hn' : n'.WellFormed)
    (h : n.spelling = n'.spelling) : n = n' := by
  have hended : Ended [] := trivial
  have hread := readToken_number hn hended
  rw [h, readToken_number hn' hended] at hread
  exact (Token.number.inj (Prod.mk.inj hread).1).symm

theorem SpelledString.text_eq {s s' : SpelledString} (h : s.quoted = s'.quoted) :
    s.text = s'.text :=
  Except.ok.inj (congrArg Quoted.content h)

variable {number : Numeral → Exact}

mutual

theorem Written.meaning_congr :
    (w w' : Written) → w.tree = w'.tree → w.meaning number = w'.meaning number
  | .null, .null, _ => rfl
  | .bool _, .bool _, h => by
    obtain rfl := Tree.bool.inj h
    rfl
  | .number _ hn, .number _ hn', h => by
    obtain rfl := hn.spelling_inj hn' (Tree.number.inj h).1
    rfl
  | .string _, .string _, h => congrArg Exact.string (SpelledString.text_eq (Tree.string.inj h))
  | .array items, .array items', h =>
    congrArg Exact.array (itemMeanings_congr items items' (Tree.array.inj h).2.1)
  | .object members, .object members', h =>
    congrArg (Exact.object ∘ sortMembers)
      (memberMeanings_congr members members' (Tree.object.inj h).2.1)

theorem itemMeanings_congr : (items items' : List Written) →
    treesOfItems items = treesOfItems items' →
    itemMeanings number items = itemMeanings number items'
  | [], [], _ => rfl
  | w :: items, w' :: items', h => by
    obtain ⟨hw, hitems⟩ := List.cons.inj h
    rw [itemMeanings, itemMeanings, w.meaning_congr w' hw, itemMeanings_congr items items' hitems]

theorem memberMeanings_congr : (members members' : List (SpelledString × Written)) →
    treesOfMembers members = treesOfMembers members' →
    memberMeanings number members = memberMeanings number members'
  | [], [], _ => rfl
  | (name, w) :: members, (name', w') :: members', h => by
    obtain ⟨hmember, hmembers⟩ := List.cons.inj h
    obtain ⟨hname, hw⟩ := Prod.mk.inj hmember
    rw [memberMeanings, memberMeanings, SpelledString.text_eq hname, w.meaning_congr w' hw,
      memberMeanings_congr members members' hmembers]

end

/-- Two documents with one text say the same. -/
theorem Spaced.meaning_eq {w w' : Written} {text : String} (h : Spaced w.tokens text.toList)
    (h' : Spaced w'.tokens text.toList) (number : Numeral → Exact) :
    w.meaning number = w'.meaning number := by
  have htree := (bare_ofString h).symm.trans (bare_ofString h')
  rw [w.bare_tree, w'.bare_tree] at htree
  exact w.meaning_congr w' (Source.mk.inj htree).1

/-- A text says one thing. -/
theorem Denotes.unique {text : String} {d d' : Exact} (h : Denotes text d) (h' : Denotes text d') :
    d = d' := by
  obtain ⟨w, hw, rfl⟩ := h
  obtain ⟨w', hw', rfl⟩ := h'
  exact hw.meaning_eq hw' _

/-- Two texts are JSON and say the same. -/
def SameDocument (text text' : String) : Prop := ∃ d, Denotes text d ∧ Denotes text' d

theorem SameDocument.iff_eq {text text' : String} {d d' : Exact} (h : Denotes text d)
    (h' : Denotes text' d') : SameDocument text text' ↔ d = d' := by
  constructor
  · rintro ⟨d'', hd, hd'⟩
    rw [h.unique hd, h'.unique hd']
  · rintro rfl
    exact ⟨d, h, h'⟩

end SearchClient.Json

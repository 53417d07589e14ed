import SearchClient.Json.Tree
import Mathlib.Data.List.Basic

/-!
# Spelling does not steer a reading

A container keeps its spelling, blanks included; trees are compared without it (`Tree.bare`). What a
reading does with a token does not depend on the spelling kept so far, nor on the blanks in front of
the token (`step_congr`): taking the spelling away commutes with each operation on the stack, and so
with a step and with the end of the text (`finish_congr`). Hence texts with the same tokens are the
same document, or are refused alike (`parse_congr`).
-/

set_option autoImplicit false
set_option relaxedAutoImplicit false

namespace SearchClient.Json

open Text

/-! ### Trees without their spelling -/

mutual

/-- A tree whose containers have lost their spelling. -/
def Tree.bare : Tree → Tree
  | .array _ items ending => .array [] (bareItems items) ending
  | .object _ members ending => .object [] (bareMembers members) ending
  | t => t

/-- Items whose containers have lost their spelling. -/
def bareItems : List Tree → List Tree
  | [] => []
  | t :: items => t.bare :: bareItems items

/-- Members whose containers have lost their spelling. -/
def bareMembers : List (Quoted × Tree) → List (Quoted × Tree)
  | [] => []
  | (name, t) :: members => (name, t.bare) :: bareMembers members

end

/-- An open container without its spelling. -/
def Frame.bare : Frame → Frame
  | .array _ items => .array [] (bareItems items)
  | .object _ members => .object [] (bareMembers members)

def Source.bare (source : Source) : Source := { source with root := source.root.bare }

/-- A reading whose containers have lost their spelling. -/
def Reading.bare : Reading → Reading
  | .underWay stack phase => .underWay (stack.map Frame.bare) phase
  | .complete root => .complete root.bare
  | .decided source => .decided source.bare

theorem bareItems_eq_map (items : List Tree) : bareItems items = items.map Tree.bare := by
  induction items with
  | nil => rfl
  | cons t items ih => rw [bareItems, ih, List.map_cons]

theorem bareMembers_eq_map (members : List (Quoted × Tree)) :
    bareMembers members = members.map fun m ↦ (m.1, m.2.bare) := by
  induction members with
  | nil => rfl
  | cons m members ih => rw [bareMembers, ih, List.map_cons]

mutual

@[simp]
theorem Tree.bare_bare : (t : Tree) → t.bare.bare = t.bare
  | .array _ items _ => by
    rw [Tree.bare, Tree.bare, bareItems_bareItems items]
  | .object _ members _ => by
    rw [Tree.bare, Tree.bare, bareMembers_bareMembers members]
  | .null | .bool _ | .number _ _ | .string _ | .broken _ => rfl

@[simp]
theorem bareItems_bareItems : (items : List Tree) → bareItems (bareItems items) = bareItems items
  | [] => rfl
  | t :: items => by
    rw [bareItems, bareItems, t.bare_bare, bareItems_bareItems items]

@[simp]
theorem bareMembers_bareMembers :
    (members : List (Quoted × Tree)) → bareMembers (bareMembers members) = bareMembers members
  | [] => rfl
  | (name, t) :: members => by
    rw [bareMembers, bareMembers, t.bare_bare, bareMembers_bareMembers members]

end

@[simp]
theorem bareItems_reverse (items : List Tree) :
    bareItems items.reverse = (bareItems items).reverse := by
  rw [bareItems_eq_map, bareItems_eq_map, List.map_reverse]

@[simp]
theorem bareMembers_reverse (members : List (Quoted × Tree)) :
    bareMembers members.reverse = (bareMembers members).reverse := by
  rw [bareMembers_eq_map, bareMembers_eq_map, List.map_reverse]

@[simp]
theorem Frame.bare_array (s : List Glyph) (items : List Tree) :
    (Frame.array s items).bare = .array [] (bareItems items) :=
  rfl

@[simp]
theorem Frame.bare_object (s : List Glyph) (members : List (Quoted × Tree)) :
    (Frame.object s members).bare = .object [] (bareMembers members) :=
  rfl

@[simp]
theorem Frame.bare_bare (frame : Frame) : frame.bare.bare = frame.bare := by
  cases frame <;> simp

@[simp]
theorem Frame.bare_comp_bare : Frame.bare ∘ Frame.bare = Frame.bare :=
  funext Frame.bare_bare

@[simp]
theorem map_bare_extend (s : List Glyph) (stack : List Frame) :
    (extend s stack).map Frame.bare = stack.map Frame.bare := by
  match stack with
  | [] => rfl
  | .array _ _ :: _ | .object _ _ :: _ => rfl

/-! ### Spelling does not steer a reading -/

@[simp]
theorem bare_close (ending : Ending) (top : Frame) :
    (top.bare.close ending).bare = (top.close ending).bare := by
  cases top <;> simp [Frame.close, Tree.bare]

theorem bare_deliver (phase : Phase) (t : Tree) (stack : List Frame) :
    (deliver phase t.bare (stack.map Frame.bare)).bare = (deliver phase t stack).bare := by
  match stack with
  | [] | .array _ _ :: _ => simp [deliver, Reading.bare, bareItems]
  | .object _ _ :: _ => cases phase <;> simp [deliver, Reading.bare, bareMembers]

theorem bare_closeTop (stack : List Frame) :
    (closeTop (stack.map Frame.bare)).bare = (closeTop stack).bare := by
  match stack with
  | [] => rfl
  | [top] => simp [closeTop, Reading.bare]
  | top :: .array _ _ :: _ => simp [closeTop, Reading.bare, bareItems]
  | top :: .object _ [] :: _ => simp [closeTop, Reading.bare, bareMembers]
  | top :: .object _ ((_, _) :: _) :: _ => simp [closeTop, Reading.bare, bareMembers]

theorem bare_unwind (b : Break) (t : Tree) (stack : List Frame) :
    (unwind b t.bare (stack.map Frame.bare)).bare = (unwind b t stack).bare := by
  induction stack generalizing t with
  | nil => exact t.bare_bare
  | cons frame stack ih =>
    match frame with
    | .array s items =>
      rw [unwind, ← ih, Tree.bare, bareItems_reverse]
      rfl
    | .object s [] =>
      rw [unwind, ← ih]
      rfl
    | .object s ((key, t') :: members) =>
      rw [unwind, ← ih, Tree.bare, bareMembers_reverse]
      rfl

theorem bare_breakOff (b : Break) (stack : List Frame) (phase : Phase) :
    (breakOff b (stack.map Frame.bare) phase).bare = (breakOff b stack phase).bare := by
  have hvalue : (unwind b (.broken b) (stack.map Frame.bare)).bare =
      (unwind b (.broken b) stack).bare := bare_unwind b (.broken b) stack
  have hclose (top : Frame) (below : List Frame) :
      (unwind b (top.bare.close (.broken b)) (below.map Frame.bare)).bare =
        (unwind b (top.close (.broken b)) below).bare := by
    rw [← bare_unwind, ← bare_unwind b (top.close _), bare_close, List.map_map,
      Frame.bare_comp_bare]
  match phase, stack with
  | .value, _ | .valueOrClose, _ => exact congrArg (Source.mk · false) hvalue
  | .key, [] | .keyOrClose, [] | .colon _, [] | .memberValue _, [] | .separator, [] => rfl
  | .key, top :: below | .keyOrClose, top :: below | .separator, top :: below =>
    exact congrArg (Source.mk · false) (hclose top below)
  | .colon _, .array s items :: below | .memberValue _, .array s items :: below =>
    exact congrArg (Source.mk · false) (hclose (.array s items) below)
  | .colon key, .object s members :: below | .memberValue key, .object s members :: below =>
    exact congrArg (Source.mk · false) (hclose (.object s ((key, .broken b) :: members)) below)

theorem bare_openFrame {frame frame' : Frame} (h : frame.bare = frame'.bare) (phase next : Phase)
    (stack : List Frame) :
    (openFrame phase frame next (stack.map Frame.bare)).bare =
      (openFrame phase frame' next stack).bare := by
  match phase, stack with
  | .memberValue key, .object s members :: below =>
    simp [openFrame, Reading.bare, bareMembers, Tree.bare, h]
  | .memberValue key, [] | .memberValue key, .array _ _ :: _ =>
    simp [openFrame, Reading.bare, h]
  | .value, _ | .valueOrClose, _ | .key, _ | .keyOrClose, _ | .colon _, _ | .separator, _ =>
    simp [openFrame, Reading.bare, h]

variable {stack stack' : List Frame}

theorem deliver_congr (h : stack.map Frame.bare = stack'.map Frame.bare) {t t' : Tree}
    (ht : t.bare = t'.bare) (phase : Phase) :
    (deliver phase t stack).bare = (deliver phase t' stack').bare := by
  rw [← bare_deliver, h, ht, bare_deliver]

theorem closeTop_congr (h : stack.map Frame.bare = stack'.map Frame.bare) :
    (closeTop stack).bare = (closeTop stack').bare := by
  rw [← bare_closeTop, h, bare_closeTop]

theorem openFrame_congr (h : stack.map Frame.bare = stack'.map Frame.bare) {frame frame' : Frame}
    (hframe : frame.bare = frame'.bare) (phase next : Phase) :
    (openFrame phase frame next stack).bare = (openFrame phase frame' next stack').bare := by
  rw [← bare_openFrame rfl, h, bare_openFrame hframe]

theorem breakOff_congr (h : stack.map Frame.bare = stack'.map Frame.bare) (b : Break)
    (phase : Phase) : (breakOff b stack phase).bare = (breakOff b stack' phase).bare := by
  rw [← bare_breakOff, h, bare_breakOff]

theorem extend_congr (h : stack.map Frame.bare = stack'.map Frame.bare) (s s' : List Glyph) :
    (extend s stack).map Frame.bare = (extend s' stack').map Frame.bare := by
  rw [map_bare_extend, map_bare_extend, h]

theorem takeValue_congr (h : stack.map Frame.bare = stack'.map Frame.bare) {p p' : Piece}
    (hp : p.token = p'.token) (phase : Phase) :
    (takeValue p stack phase).bare = (takeValue p' stack' phase).bare := by
  unfold takeValue
  rw [← hp]
  cases p.token with
  | null | bool _ | number _ | string _ => exact deliver_congr (extend_congr h _ _) rfl _
  | openBracket | openBrace =>
    refine openFrame_congr (extend_congr h _ _) ?_ _ _
    rfl
  | _ => exact congrArg Reading.decided (breakOff_congr h ..)

/-- Stacks that differ only in spelling have frames of one kind on top. -/
theorem top_alike (h : stack.map Frame.bare = stack'.map Frame.bare) :
    (stack = [] ∧ stack' = []) ∨
      (∃ s items below s' items' below', stack = .array s items :: below ∧
        stack' = .array s' items' :: below') ∨
      (∃ s members below s' members' below', stack = .object s members :: below ∧
        stack' = .object s' members' :: below') := by
  match stack, stack' with
  | [], [] => exact .inl ⟨rfl, rfl⟩
  | .array _ _ :: _, .array _ _ :: _ => exact .inr (.inl ⟨_, _, _, _, _, _, rfl, rfl⟩)
  | .object _ _ :: _, .object _ _ :: _ => exact .inr (.inr ⟨_, _, _, _, _, _, rfl, rfl⟩)
  | [], _ :: _ | _ :: _, [] | .array _ _ :: _, .object _ _ :: _
  | .object _ _ :: _, .array _ _ :: _ => simp at h

theorem takeSeparator_congr (h : stack.map Frame.bare = stack'.map Frame.bare) {p p' : Piece}
    (hp : p.token = p'.token) :
    (takeSeparator p stack).bare = (takeSeparator p' stack').bare := by
  have hbroken : (Reading.decided (breakOff .malformed stack .separator)).bare =
      (Reading.decided (breakOff .malformed stack' .separator)).bare :=
    congrArg Reading.decided (breakOff_congr h ..)
  have hextend := extend_congr h (p.blank ++ p.spelling) (p'.blank ++ p'.spelling)
  have hunder (phase : Phase) := congrArg (Reading.underWay · phase) hextend
  have hclose := closeTop_congr hextend
  unfold takeSeparator
  rw [← hp]
  obtain ⟨hs, hs'⟩ | ⟨s, items, below, s', items', below', hs, hs'⟩ |
      ⟨s, members, below, s', members', below', hs, hs'⟩ := top_alike hextend
  · simp only [hs, hs']
    cases p.token <;> exact hbroken
  · simp only [hs, hs'] at hunder hclose ⊢
    cases p.token with
    | comma => exact hunder .value
    | closeBracket => exact hclose
    | _ => exact hbroken
  · simp only [hs, hs'] at hunder hclose ⊢
    cases p.token with
    | comma => exact hunder .key
    | closeBrace => exact hclose
    | _ => exact hbroken

/-- Readings that differ only in spelling stand at one place: both under way in one phase, both with
a complete document, or both decided. -/
theorem reading_alike {r r' : Reading} (h : r.bare = r'.bare) :
    (∃ stack stack' phase, r = .underWay stack phase ∧ r' = .underWay stack' phase ∧
      stack.map Frame.bare = stack'.map Frame.bare) ∨
    (∃ root root', r = .complete root ∧ r' = .complete root' ∧ root.bare = root'.bare) ∨
    (∃ source source', r = .decided source ∧ r' = .decided source' ∧
      source.bare = source'.bare) := by
  match r, r' with
  | .underWay stack phase, .underWay stack' phase' =>
    obtain ⟨hstack, rfl⟩ := Reading.underWay.inj h
    exact .inl ⟨stack, stack', phase, rfl, rfl, hstack⟩
  | .complete root, .complete root' =>
    exact .inr (.inl ⟨root, root', rfl, rfl, Reading.complete.inj h⟩)
  | .decided source, .decided source' =>
    exact .inr (.inr ⟨source, source', rfl, rfl, Reading.decided.inj h⟩)
  | .underWay _ _, .complete _ | .underWay _ _, .decided _ | .complete _, .underWay _ _
  | .complete _, .decided _ | .decided _, .underWay _ _ | .decided _, .complete _ =>
    simp [Reading.bare] at h

/-- What a piece does depends on its token only, up to the spelling that containers keep. -/
theorem step_congr {r r' : Reading} (h : r.bare = r'.bare) {p p' : Piece}
    (hp : p.token = p'.token) : (step r p).bare = (step r' p').bare := by
  obtain ⟨stack, stack', phase, rfl, rfl, hstack⟩ | ⟨root, root', rfl, rfl, hroot⟩ |
      ⟨source, source', rfl, rfl, _⟩ := reading_alike h
  · have hextend := extend_congr hstack (p.blank ++ p.spelling) (p'.blank ++ p'.spelling)
    have hunder (phase : Phase) := congrArg (Reading.underWay · phase) hextend
    have hclose := closeTop_congr hextend
    have hbroken (b : Break) := congrArg Reading.decided (breakOff_congr hstack b phase)
    have hvalue := takeValue_congr hstack hp phase
    unfold step
    cases phase with
    | value | memberValue _ => exact hvalue
    | separator => exact takeSeparator_congr hstack hp
    | valueOrClose =>
      simp only [← hp]
      cases p.token with
      | closeBracket => exact hclose
      | _ => exact hvalue
    | key =>
      simp only [← hp]
      cases p.token with
      | string name => exact hunder (.colon name)
      | _ => exact hbroken _
    | keyOrClose =>
      simp only [← hp]
      cases p.token with
      | string name => exact hunder (.colon name)
      | closeBrace => exact hclose
      | _ => exact hbroken _
    | colon name =>
      simp only [← hp]
      cases p.token with
      | colon => exact hunder (.memberValue name)
      | _ => exact hbroken _
  · exact congrArg (fun t ↦ Reading.decided ⟨t, true⟩) hroot
  · exact h

theorem foldl_step_congr {ps ps' : List Piece} (hp : ps.map Piece.token = ps'.map Piece.token)
    {r r' : Reading} (h : r.bare = r'.bare) :
    (ps.foldl step r).bare = (ps'.foldl step r').bare := by
  induction ps generalizing ps' r r' with
  | nil =>
    obtain rfl := List.map_eq_nil_iff.mp hp.symm
    exact h
  | cons p ps ih =>
    obtain ⟨p', ps', rfl, htoken, hrest⟩ := List.map_eq_cons_iff.mp hp.symm
    exact ih hrest.symm (step_congr h htoken.symm)

theorem finish_congr {r r' : Reading} (h : r.bare = r'.bare) : r.finish.bare = r'.finish.bare := by
  obtain ⟨stack, stack', phase, rfl, rfl, hstack⟩ | ⟨root, root', rfl, rfl, hroot⟩ |
      ⟨source, source', rfl, rfl, hsource⟩ := reading_alike h
  · exact breakOff_congr hstack _ _
  · exact congrArg (Source.mk · false) hroot
  · exact hsource

mutual

theorem Tree.toJson_bare (room : Nat) : (t : Tree) → t.bare.toJson room = t.toJson room
  | .array _ items _ => by
    cases room with
    | zero => rfl
    | succ room => rw [Tree.bare, Tree.toJson, Tree.toJson, itemsToJson_bare room items]
  | .object _ members _ => by
    cases room with
    | zero => rfl
    | succ room => rw [Tree.bare, Tree.toJson, Tree.toJson, membersToJson_bare room members]
  | .null | .bool _ | .number _ _ | .string _ | .broken _ => rfl

theorem itemsToJson_bare (room : Nat) :
    (items : List Tree) → itemsToJson room (bareItems items) = itemsToJson room items
  | [] => rfl
  | t :: items => by
    rw [bareItems, itemsToJson, itemsToJson, t.toJson_bare room, itemsToJson_bare room items]

theorem membersToJson_bare (room : Nat) :
    (members : List (Quoted × Tree)) →
      membersToJson room (bareMembers members) = membersToJson room members
  | [] => rfl
  | (name, t) :: members => by
    rw [bareMembers, membersToJson, membersToJson, t.toJson_bare room,
      membersToJson_bare room members]

end

theorem ofSource_bare (source : Source) : ofSource source.bare = ofSource source := by
  rw [ofSource, ofSource, Source.read, Source.read, Source.bare, Tree.toJson_bare]

/-- Texts with the same tokens are the same document, or none for the same reason. -/
theorem parse_congr {text text' : String}
    (h : (pieces (Utf8.glyphs text)).map Piece.token =
      (pieces (Utf8.glyphs text')).map Piece.token) : parse text = parse text' := by
  have hsource : (Source.ofString text).bare = (Source.ofString text').bare :=
    finish_congr (foldl_step_congr h rfl)
  rw [parse, parse, ← ofSource_bare, hsource, ofSource_bare]

end SearchClient.Json

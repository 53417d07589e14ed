import SearchClient.Proofs.Url.Paths
import SearchClient.Request.Basic
import Mathlib.Data.List.Forall2

/-!
# Values in paths

Each value of a request becomes a segment of its own below the path of a node. It is addressed if
the piece that is added for it decodes to it, and `Addressable` tells for which values that is so:
not for the two names of the place itself and the one above, nor for values with tabs or line breaks
in them. Slashes, percent signs and whatever else has a meaning in a path are encoded.

`addressed_iff` has both directions. The one from left to right counts: every value adds at most one
piece, so where there are as many new pieces as values none was passed over or led back up.
-/

set_option autoImplicit false
set_option relaxedAutoImplicit false

namespace SearchClient

namespace Url

open Text

variable {web : Bool} {items : List String} {value : String} {values : List String}

/-! ### Reading values back -/

/-- The pieces of a node's own path. A slash at its end has none behind it. -/
def ownPieces (node : Url) : List (List Char) :=
  piecesOf ((dropSuffix? ['/'] node.pathText.toList).getD node.pathText.toList)

/-- The bytes of the values that a locator names below a node. -/
def addressed? (node url : Url) : Option (List Bytes) :=
  (url.pieces.dropPrefix? node.ownPieces).map fun rest ↦ rest.map Percent.decode

/-- A value that can be addressed. -/
def Addressable (value : String) : Prop :=
  value ≠ "." ∧ value ≠ ".." ∧ ∀ c ∈ value.toList, isSkipped c = false

theorem addressed?_eq_some_iff {node url : Url} {named : List Bytes} :
    addressed? node url = some named ↔
      ∃ rest, url.pieces = node.ownPieces ++ rest ∧ rest.map Percent.decode = named := by
  simp [addressed?, Option.map_eq_some_iff, List.dropPrefix?_eq_some_iff]

/-! ### Dots -/

/-- A character whose small letter is another one is that letter as a capital. -/
theorem eq_or_of_toLower_eq {c d : Char} (h : c.toLower = d) :
    c = d ∨ (65 ≤ c.toNat ∧ c.toNat ≤ 90 ∧ d.toNat = c.toNat + 32) := by
  unfold Char.toLower at h
  split_ifs at h with hupper
  · right
    have hlow : 65 ≤ c.val.toNat := hupper.1
    have hhigh : c.val.toNat ≤ 90 := hupper.2
    subst h
    refine ⟨hlow, hhigh, ?_⟩
    change (c.val + 32).toNat = c.val.toNat + 32
    rw [UInt32.toNat_add]
    change (c.val.toNat + 32) % 4294967296 = _
    omega
  · exact .inl h

theorem eq_of_toLower_eq {c d : Char} (h : c.toLower = d) (hd : d.toNat < 97) : c = d :=
  (eq_or_of_toLower_eq h).resolve_right (by omega)

theorem eq_of_toLower_eq_e {c : Char} (h : c.toLower = 'e') : c = 'e' ∨ c = 'E' := by
  refine (eq_or_of_toLower_eq h).imp_right fun ⟨_, _, hsum⟩ ↦ Char.toNat_inj.mp ?_
  have hsmall : 'e'.toNat = 101 := rfl
  have hcapital : 'E'.toNat = 69 := rfl
  omega

/-- A dot at the beginning of a segment, which may be written as a byte. -/
theorem decode_of_dot {cs rest : List Char}
    (h : cs.map Char.toLower = '.' :: rest ∨ cs.map Char.toLower = '%' :: '2' :: 'e' :: rest) :
    ∃ tail, Percent.decode cs = 46 :: Percent.decode tail ∧ tail.map Char.toLower = rest := by
  simp only [List.map_eq_cons_iff] at h
  obtain ⟨c, tail, rfl, hc, htail⟩ | ⟨a, _, rfl, ha, b, _, rfl, hb, e, tail, rfl, he, htail⟩ := h
  · rw [eq_of_toLower_eq hc (by decide)]
    exact ⟨tail, Percent.decode_cons_of_ne (by decide) tail, htail⟩
  · rw [eq_of_toLower_eq ha (by decide), eq_of_toLower_eq hb (by decide)]
    refine ⟨tail, ?_, htail⟩
    obtain rfl | rfl := eq_of_toLower_eq_e he <;> rfl

/-- A segment for the place itself reads as its name. -/
theorem decode_of_isDot {segment : List Char} (h : isDot segment = true) :
    Percent.decode segment = Utf8.encode "." := by
  have hdot : segment.map Char.toLower = ['.'] ∨ segment.map Char.toLower = ['%', '2', 'e'] := by
    simp only [isDot, Bool.or_eq_true, decide_eq_true_eq] at h
    refine h.imp_left ?_
    rintro rfl
    rfl
  obtain ⟨tail, hdecode, htail⟩ := decode_of_dot hdot
  rw [hdecode, List.map_eq_nil_iff.mp htail]
  rfl

/-- A segment for the place above reads as its name. -/
theorem decode_of_isDotDot {segment : List Char} (h : isDotDot segment = true) :
    Percent.decode segment = Utf8.encode ".." := by
  have hdots : ∃ rest, (segment.map Char.toLower = '.' :: rest ∨
      segment.map Char.toLower = '%' :: '2' :: 'e' :: rest) ∧
      (rest = ['.'] ∨ rest = ['%', '2', 'e']) := by
    simp only [isDotDot, List.any_cons, List.any_nil, Bool.or_false, Bool.or_eq_true,
      decide_eq_true_eq] at h
    obtain h | h | h | h := h
    · exact ⟨_, .inl h, .inl rfl⟩
    · exact ⟨_, .inl h, .inr rfl⟩
    · exact ⟨_, .inr h, .inl rfl⟩
    · exact ⟨_, .inr h, .inr rfl⟩
  obtain ⟨rest, hfirst, hrest⟩ := hdots
  obtain ⟨tail, hdecode, rfl⟩ := decode_of_dot hfirst
  obtain ⟨last, hlast, hnothing⟩ := decode_of_dot hrest
  rw [hdecode, hlast, List.map_eq_nil_iff.mp hnothing]
  rfl

/-! ### One value -/

theorem openEnd_of_ne (h : items ≠ [""]) : openEnd items = items := if_neg h

theorem length_openEnd_le (items : List String) : (openEnd items).length ≤ items.length := by
  unfold openEnd
  split_ifs
  · exact Nat.zero_le _
  · exact Nat.le_refl _

/-- An end behind a slash is open only if there is nothing else. -/
theorem openEnd_concat {item : String} (h : items = [] → item ≠ "") :
    openEnd (items ++ [item]) = items ++ [item] := by
  refine openEnd_of_ne fun hconcat ↦ ?_
  cases items with
  | nil => exact h rfl (List.singleton_inj.mp hconcat)
  | cons => simp at hconcat

/-- The piece that a value is written as. -/
def pieceOf (web : Bool) (value : String) : List Char :=
  Percent.encode (segmentSet web) (value.toList.filter (!isSkipped ·))

/-- The piece of a value is read as what is left of the value without tabs and line breaks. -/
theorem decode_pieceOf (web : Bool) (value : String) : Percent.decode (pieceOf web value) =
    Utf8.encode (String.ofList (value.toList.filter (!isSkipped ·))) :=
  Percent.decode_encode (by simp [segmentSet]) _

theorem slash_not_mem_pieceOf (web : Bool) (value : String) : '/' ∉ pieceOf web value :=
  slash_not_mem_encode (.inr (by simp [segmentSet]))

/-- Nothing is left out of a value that can be addressed. -/
theorem Addressable.filter_eq (h : Addressable value) :
    value.toList.filter (!isSkipped ·) = value.toList :=
  List.filter_eq_self.mpr fun c hc ↦ by simp [h.2.2 c hc]

theorem Addressable.decode_pieceOf (h : Addressable value) :
    Percent.decode (pieceOf web value) = Utf8.encode value := by
  rw [Url.decode_pieceOf, h.filter_eq, String.ofList_toList]

theorem pushSegment_of_not_dots (h : ¬ (value = "." ∨ value = "..")) :
    pushSegment web items value = enter (openEnd items) (pieceOf web value) true := by
  rw [pushSegment, if_neg h]
  rfl

/-- A value that can be addressed adds its piece. -/
theorem Addressable.openEnd_pushSegment (h : Addressable value) (hne : value ≠ "") :
    openEnd (pushSegment web items value) =
      openEnd items ++ [String.ofList (pieceOf web value)] := by
  have hread : Percent.decode (pieceOf web value) = Utf8.encode value := h.decode_pieceOf
  have hdotdot : ¬ isDotDot (pieceOf web value) = true := fun hdots ↦
    h.2.1 (Utf8.encode_inj.mp (hread.symm.trans (decode_of_isDotDot hdots)))
  have hdot : ¬ isDot (pieceOf web value) = true := fun hdots ↦
    h.1 (Utf8.encode_inj.mp (hread.symm.trans (decode_of_isDot hdots)))
  have hpiece : String.ofList (pieceOf web value) ≠ "" := by
    intro hempty
    rw [String.ofList_eq_empty_iff.mp hempty] at hread
    exact hne (Utf8.encode_inj.mp hread.symm)
  rw [pushSegment_of_not_dots (not_or.mpr ⟨h.1, h.2.1⟩), enter, if_neg hdotdot, if_neg hdot]
  exact openEnd_concat fun _ ↦ hpiece

/-- A piece that is added for a value: its own, or an empty one. -/
def Enters (web : Bool) (value piece : String) : Prop :=
  value ≠ "." ∧ value ≠ ".." ∧ (piece = "" ∨ piece = String.ofList (pieceOf web value))

/-- A value adds one piece at most. -/
theorem pushSegment_spec (web : Bool) (items : List String) (value : String) :
    (openEnd (pushSegment web items value)).length ≤ (openEnd items).length ∨
      ∃ piece, Enters web value piece ∧
        openEnd (pushSegment web items value) = openEnd items ++ [piece] := by
  by_cases hdots : value = "." ∨ value = ".."
  · rw [pushSegment, if_pos hdots]
    exact .inl (Nat.le_refl _)
  rw [pushSegment_of_not_dots hdots]
  generalize openEnd items = front
  rw [not_or] at hdots
  -- A piece is added unless it would be an empty one behind the first slash.
  have hadded (piece : String)
      (hpiece : piece = "" ∨ piece = String.ofList (pieceOf web value)) :
      (openEnd (front ++ [piece])).length ≤ front.length ∨ ∃ piece', Enters web value piece' ∧
        openEnd (front ++ [piece]) = front ++ [piece'] := by
    by_cases hopen : front = [] ∧ piece = ""
    · rw [hopen.1, hopen.2]
      exact .inl (Nat.le_refl _)
    · exact .inr ⟨piece, ⟨hdots.1, hdots.2, hpiece⟩, openEnd_concat fun hnil hempty ↦
        hopen ⟨hnil, hempty⟩⟩
  simp only [enter, ↓reduceIte]
  split_ifs
  · left
    cases front with
    | nil => exact Nat.le_refl _
    | cons first front => exact Nat.le_trans (length_openEnd_le _) (by simp)
  · exact hadded "" (.inl rfl)
  · exact hadded _ (.inr rfl)

/-! ### Many values -/

theorem openEnd_foldl_pushSegment (h : ∀ value ∈ values, value ≠ "" ∧ Addressable value) :
    openEnd (values.foldl (pushSegment web) items) =
      openEnd items ++ values.map fun value ↦ String.ofList (pieceOf web value) := by
  induction values generalizing items with
  | nil => simp
  | cons value values ih =>
    obtain ⟨⟨hne, hvalue⟩, hvalues⟩ := List.forall_mem_cons.mp h
    rw [List.foldl_cons, ih hvalues, hvalue.openEnd_pushSegment hne, List.map_cons,
      List.append_assoc, List.singleton_append]

/-- Values add one piece each, or there are fewer new pieces than values. -/
theorem foldl_pushSegment_spec (web : Bool) (items values : List String) :
    (openEnd (values.foldl (pushSegment web) items)).length <
        (openEnd items).length + values.length ∨
      ∃ pieces, List.Forall₂ (Enters web) values pieces ∧
        openEnd (values.foldl (pushSegment web) items) = openEnd items ++ pieces := by
  induction values generalizing items with
  | nil => exact .inr ⟨[], .nil, (List.append_nil _).symm⟩
  | cons value values ih =>
    rw [List.foldl_cons, List.length_cons]
    obtain hfewer | ⟨piece, hpiece, hadded⟩ := pushSegment_spec web items value
    · left
      obtain hlength | ⟨pieces, hpieces, hall⟩ := ih (pushSegment web items value)
      · omega
      · rw [hall, List.length_append, ← hpieces.length_eq]
        omega
    · obtain hlength | ⟨pieces, hpieces, hall⟩ := ih (pushSegment web items value)
      · left
        rw [hadded, List.length_append, List.length_singleton] at hlength
        omega
      · right
        refine ⟨piece :: pieces, .cons hpiece hpieces, ?_⟩
        rw [hall, hadded, List.append_assoc, List.singleton_append]

/-- Pieces that are added for values and decode to them are those of values that can be
addressed. -/
theorem addressable_of_enters {pieces : List String} (h : List.Forall₂ (Enters web) values pieces)
    (hread : pieces.map (fun piece ↦ Percent.decode piece.toList) = values.map Utf8.encode)
    (hne : ∀ value ∈ values, value ≠ "") : ∀ value ∈ values, Addressable value := by
  induction h with
  | nil => simp
  | @cons value piece values pieces hpiece _ ih =>
    rw [List.map_cons, List.map_cons, List.cons.injEq] at hread
    obtain ⟨hfirst, hrest⟩ := hread
    obtain ⟨hne, hnes⟩ := List.forall_mem_cons.mp hne
    refine List.forall_mem_cons.mpr ⟨⟨hpiece.1, hpiece.2.1, ?_⟩, ih hrest hnes⟩
    obtain rfl | rfl := hpiece.2.2
    · have hempty : Utf8.encode "" = Utf8.encode value := hfirst
      exact absurd (Utf8.encode_inj.mp hempty).symm hne
    · rw [String.toList_ofList, decode_pieceOf, Utf8.encode_inj] at hfirst
      intro c hc
      rw [← hfirst, String.toList_ofList, List.mem_filter] at hc
      simpa using hc.2

/-! ### Below a node -/

theorem dropOpenEnd_concat_empty (h : items ≠ []) : dropOpenEnd (items ++ [""]) = items := by
  unfold dropOpenEnd
  rw [List.getLast?_concat]
  simp [h]

theorem dropOpenEnd_concat_of_ne {last : String} (h : last ≠ "") :
    dropOpenEnd (items ++ [last]) = items ++ [last] := by
  unfold dropOpenEnd
  rw [List.getLast?_concat]
  split
  · rename_i hlast
    exact absurd (Option.some.inj hlast) h
  · rfl

theorem Separable.dropOpenEnd (h : Separable items) : Separable (dropOpenEnd items) := by
  obtain rfl | ⟨init, last, rfl⟩ := List.eq_nil_or_concat' items
  · exact h
  by_cases hlast : last = ""
  · subst hlast
    cases init with
    | nil => exact h
    | cons first init =>
      rw [dropOpenEnd_concat_empty (List.cons_ne_nil _ _)]
      exact ⟨List.cons_ne_nil _ _, fun item hitem ↦ h.no_slash item (List.mem_append_left _ hitem)⟩
  · rwa [dropOpenEnd_concat_of_ne hlast]

theorem Separable.pushSegment (h : Separable items) (web : Bool) (value : String) :
    Separable (pushSegment web items value) := by
  by_cases hdots : value = "." ∨ value = ".."
  · rwa [Url.pushSegment, if_pos hdots]
  · rw [pushSegment_of_not_dots hdots]
    have hopen : ∀ item ∈ openEnd items, '/' ∉ item.toList := by
      unfold openEnd
      split_ifs
      · simp
      · exact h.no_slash
    obtain ⟨hslash, hlast⟩ := enter_spec hopen (slash_not_mem_pieceOf web value) true
    exact ⟨hlast rfl, hslash⟩

theorem Separable.foldl_pushSegment (h : Separable items) (web : Bool) (values : List String) :
    Separable (values.foldl (Url.pushSegment web) items) := by
  induction values generalizing items with
  | nil => exact h
  | cons value values ih => exact ih (h.pushSegment web value)

/-- The own pieces of a node are its segments without an empty last one. -/
theorem ownPieces_eq {node : Url} {authority : Authority}
    (hauthority : node.authority = some authority) (hpath : node.path = .segments items)
    (h : Separable items) : node.ownPieces = (openEnd (dropOpenEnd items)).map String.toList := by
  have hdrop := h.dropOpenEnd
  rw [ownPieces, pathText_eq hauthority, hpath]
  obtain rfl | ⟨init, last, rfl⟩ := List.eq_nil_or_concat' items
  · exact absurd rfl h.ne_nil
  have htext : (Path.segments (init ++ [last])).text.toList =
      (Path.segments init).text.toList ++ '/' :: last.toList := by
    simp [toList_text_segments]
  by_cases hlast : last = ""
  · subst hlast
    have hfront : dropSuffix? ['/'] (Path.segments (init ++ [""])).text.toList =
        some (Path.segments init).text.toList := by
      rw [htext]
      exact dropSuffix?_concat '/' '/' _
    rw [hfront, Option.getD_some]
    cases init with
    | nil => rfl
    | cons first init =>
      rw [dropOpenEnd_concat_empty (List.cons_ne_nil _ _)] at hdrop ⊢
      exact piecesOf_segments hdrop
  · have hfront : dropSuffix? ['/'] (Path.segments (init ++ [last])).text.toList = none := by
      obtain hnil | ⟨front, c, hconcat⟩ := List.eq_nil_or_concat' last.toList
      · exact absurd (String.toList_eq_nil_iff.mp hnil) hlast
      · have hc : '/' ≠ c := by
          rintro rfl
          refine h.no_slash last (by simp) ?_
          simp [hconcat]
        rw [htext, hconcat, ← List.cons_append, ← List.append_assoc, dropSuffix?_concat, if_neg hc]
    rw [hfront, dropOpenEnd_concat_of_ne hlast, Option.getD_none]
    exact piecesOf_segments h

/-- Below a hierarchical node there is a piece for each value, which decodes to the value, if and
only if all values can be addressed. -/
theorem Hierarchical.extend_spec {node : Url} (h : node.Hierarchical)
    (hne : ∀ value ∈ values, value ≠ "") : ∃ url, node.extend values = some url ∧
      (addressed? node url = some (values.map Utf8.encode) ↔
        ∀ value ∈ values, Addressable value) := by
  obtain ⟨authority, items, hauthority, hpath, hseparable⟩ := h
  obtain ⟨url, hextend, hsame, hbelow⟩ : ∃ url : Url, node.extend values = some url ∧
      url.authority = node.authority ∧ url.path =
        .segments (values.foldl (Url.pushSegment node.isWeb) (dropOpenEnd items)) :=
    ⟨{ node with
        path := .segments (values.foldl (Url.pushSegment node.isWeb) (dropOpenEnd items)) },
      by rw [extend, hpath], rfl, rfl⟩
  refine ⟨url, hextend, ?_⟩
  rw [addressed?_eq_some_iff, ownPieces_eq hauthority hpath hseparable,
    pieces_eq (hsame.trans hauthority) hbelow (hseparable.dropOpenEnd.foldl_pushSegment ..)]
  constructor
  · rintro ⟨rest, hrest, hread⟩
    have hlength := congrArg List.length hrest
    have hcount := congrArg List.length hread
    simp only [List.length_append, List.length_map] at hlength hcount
    obtain hfewer | ⟨pieces, hpieces, hall⟩ :=
      foldl_pushSegment_spec node.isWeb (dropOpenEnd items) values
    · omega
    · rw [hall, List.map_append, List.append_cancel_left_eq] at hrest
      refine addressable_of_enters hpieces ?_ hne
      rw [← hread, ← hrest, List.map_map]
      rfl
  · intro hvalues
    refine ⟨values.map (pieceOf node.isWeb), ?_, ?_⟩
    · rw [openEnd_foldl_pushSegment fun value hvalue ↦ ⟨hne value hvalue, hvalues value hvalue⟩]
      simp
    · rw [List.map_map]
      exact List.map_congr_left fun value hvalue ↦ (hvalues value hvalue).decode_pieceOf

/-- The path that a request's values make below a node of the web names exactly these values, in
order, if and only if all of them can be addressed. So no two lists of such values share a
locator. -/
theorem addressed_iff [Domain.Spelling] {text : String} {node : Url} (h : parse text = .ok node)
    (hscheme : node.scheme = "http" ∨ node.scheme = "https")
    (hne : ∀ value ∈ values, value ≠ "") :
    (∃ url, (RequestPath.values values).below node = some url ∧
      (addressed? node url = some (values.map Utf8.encode) ↔
        ∀ value ∈ values, Addressable value)) ∧
    ∀ others : List String, (∀ value ∈ others, value ≠ "") →
      (∀ value ∈ values, Addressable value) → (∀ value ∈ others, Addressable value) →
      (RequestPath.values values).below node = (RequestPath.values others).below node →
      values = others := by
  have hweb : node.isWeb = true := by
    unfold isWeb
    obtain hscheme | hscheme := hscheme <;> rw [hscheme] <;> rfl
  have hnode := hierarchical_of_parse h hweb
  refine ⟨hnode.extend_spec hne, fun others hothers haddressable hothers' hsame ↦ ?_⟩
  obtain ⟨url, hurl, hread⟩ := hnode.extend_spec hne
  obtain ⟨other, hother, hread'⟩ := hnode.extend_spec hothers
  obtain rfl : url = other := Option.some.inj (hurl.symm.trans (hsame.trans hother))
  have hbytes := (hread.mpr haddressable).symm.trans (hread'.mpr hothers')
  rw [Option.some.injEq] at hbytes
  exact List.map_injective_iff.mpr (fun s t ↦ Utf8.encode_inj.mp) hbytes

/-! ### Two nodes -/

/-- A node behind a prefix. -/
def searchNode : Url :=
  { scheme := "http", authority := some { host := .name "proxy", port := some 8080 }
    path := .segments ["search", ""] }

/-- A node at the top of its host. -/
def localNode : Url :=
  { scheme := "http", authority := some { host := .name "localhost", port := some 9200 }
    path := .segments [""] }

theorem parse_searchNode : parse "http://proxy:8080/search/" = .ok searchNode := rfl

example : parse "http://localhost:9200" = .ok localNode := rfl

/-- Blanks, slashes and question marks are part of the values, and the prefix of the node is not. -/
theorem addressed_iff_of_prefix :
    (∃ url, (RequestPath.values ["my index", "_doc", "a/b?c"]).below searchNode = some url ∧
      (addressed? searchNode url = some (["my index", "_doc", "a/b?c"].map Utf8.encode) ↔
        ∀ value ∈ ["my index", "_doc", "a/b?c"], Addressable value)) ∧
    ∀ others : List String, (∀ value ∈ others, value ≠ "") →
      (∀ value ∈ ["my index", "_doc", "a/b?c"], Addressable value) →
      (∀ value ∈ others, Addressable value) →
      (RequestPath.values ["my index", "_doc", "a/b?c"]).below searchNode =
        (RequestPath.values others).below searchNode → ["my index", "_doc", "a/b?c"] = others :=
  addressed_iff parse_searchNode (.inl rfl) (by decide)

/-- What is meant for a snapshot with the name of the place above goes to its repository, and a tab
in a name is lost. -/
theorem repository_for_snapshot : parse "http://localhost:9200" = .ok localNode ∧
    (∃ url, (RequestPath.values ["_snapshot", "r", ".."]).below localNode = some url ∧
      (RequestPath.values ["_snapshot", "r"]).below localNode = some url ∧
      addressed? localNode url ≠ some (["_snapshot", "r", ".."].map Utf8.encode)) ∧
    ∃ url, (RequestPath.values ["_snapshot", "r", "a\tb"]).below localNode = some url ∧
      (RequestPath.values ["_snapshot", "r", "ab"]).below localNode = some url ∧
      addressed? localNode url ≠ some (["_snapshot", "r", "a\tb"].map Utf8.encode) :=
  ⟨rfl, ⟨_, rfl, rfl, by decide⟩, _, rfl, rfl, by decide⟩

end Url

end SearchClient

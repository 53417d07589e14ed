import SearchClient.Proofs.Program.Steps
import SearchClient.Proofs.Text.Percent
import SearchClient.Proofs.Text.Split
import SearchClient.Url.Join
import SearchClient.Url.Parser
import Mathlib.Tactic.SplitIfs

/-!
# Paths and their pieces

The path of a locator can be cut at its slashes (`Url.pieces`). For a path of segments without
slashes in them the pieces are the segments, except that a path which is only a slash has none
(`pieces_eq`). Every locator of the web that was read from a text has such a path
(`hierarchical_of_parse`).
-/

set_option autoImplicit false
set_option relaxedAutoImplicit false

namespace SearchClient

namespace Url

open Text

/-! ### Pieces of a path -/

/-- The pieces between the slashes of a path's text, from behind the first one. A path that is only
a slash has none. -/
def piecesOf (path : List Char) : List (List Char) :=
  match split '/' path.tail with
  | [[]] => []
  | pieces => pieces

def pieces (url : Url) : List (List Char) := piecesOf url.pathText.toList

/-- Segments that can be told apart in a path: there is one at least, and none has a slash. -/
structure Separable (items : List String) : Prop where
  ne_nil : items ≠ []
  no_slash : ∀ item ∈ items, '/' ∉ item.toList

theorem toList_text_segments (items : List String) :
    (Path.segments items).text.toList = items.flatMap fun item ↦ '/' :: item.toList := by
  rw [Path.text, String.toList_join, List.flatMap_map]
  refine List.flatMap_congr fun item _ ↦ ?_
  simp

theorem split_flatMap {item : List Char} {items : List (List Char)} (hitem : '/' ∉ item)
    (hitems : ∀ other ∈ items, '/' ∉ other) :
    split '/' (item ++ items.flatMap ('/' :: ·)) = item :: items := by
  induction items generalizing item with
  | nil => simpa using split_of_not_mem hitem
  | cons next items ih =>
    obtain ⟨hnext, hitems⟩ := List.forall_mem_cons.mp hitems
    rw [List.flatMap_cons, List.cons_append, split_append, split_of_not_mem hitem, ih hnext hitems,
      List.singleton_append]

/-- The pieces of a path of segments are the segments. -/
theorem piecesOf_segments {items : List String} (h : Separable items) :
    piecesOf (Path.segments items).text.toList = (openEnd items).map String.toList := by
  cases items with
  | nil => exact absurd rfl h.ne_nil
  | cons item items =>
    obtain ⟨hitem, hitems⟩ := List.forall_mem_cons.mp h.no_slash
    have hsplit : split '/' (Path.segments (item :: items)).text.toList.tail =
        (item :: items).map String.toList := by
      rw [toList_text_segments, List.flatMap_cons, List.cons_append, List.tail_cons, List.map_cons,
        ← split_flatMap hitem (by simpa using hitems), List.flatMap_map]
    unfold piecesOf openEnd
    rw [hsplit]
    by_cases hslash : item :: items = [""]
    · rw [hslash]
      rfl
    · rw [if_neg hslash]
      split
      · rename_i hnothing
        exact absurd (by simpa using hnothing) hslash
      · rfl

/-- Behind an authority a path is written as it is. -/
theorem pathText_eq {url : Url} {authority : Authority} (h : url.authority = some authority) :
    url.pathText = url.path.text := by
  rw [pathText, h]

theorem pieces_eq {url : Url} {authority : Authority} {items : List String}
    (hauthority : url.authority = some authority) (hpath : url.path = .segments items)
    (h : Separable items) : url.pieces = (openEnd items).map String.toList := by
  rw [← piecesOf_segments h, pieces, pathText_eq hauthority, hpath]

/-! ### Paths that were read -/

theorem separable_concat {items : List String} {item : String} (h : ∀ i ∈ items, '/' ∉ i.toList)
    (hitem : '/' ∉ item.toList) : Separable (items ++ [item]) := by
  refine ⟨by simp, fun other hother ↦ ?_⟩
  obtain hother | hother := List.mem_append.mp hother
  · exact h other hother
  · rwa [List.mem_singleton.mp hother]

/-- What is entered has no slash in it, and the last segment leaves one behind. -/
theorem enter_spec {done : List String} {segment : List Char}
    (h : ∀ item ∈ done, '/' ∉ item.toList) (hsegment : '/' ∉ segment) (last : Bool) :
    (∀ item ∈ enter done segment last, '/' ∉ item.toList) ∧
      (last = true → enter done segment last ≠ []) := by
  have hup : ∀ item ∈ done.dropLast, '/' ∉ item.toList := fun item hitem ↦
    h item (List.dropLast_subset _ hitem)
  have hempty : '/' ∉ "".toList := by simp
  have hnew : '/' ∉ (String.ofList segment).toList := by simpa using hsegment
  unfold enter
  cases last with
  | false =>
    simp only [Bool.false_eq_true, ↓reduceIte, false_implies, and_true]
    split_ifs
    · exact hup
    · exact h
    · exact (separable_concat h hnew).no_slash
  | true =>
    simp only [↓reduceIte, true_implies]
    split_ifs
    · have := separable_concat hup hempty
      exact ⟨this.no_slash, this.ne_nil⟩
    · have := separable_concat h hempty
      exact ⟨this.no_slash, this.ne_nil⟩
    · have := separable_concat h hnew
      exact ⟨this.no_slash, this.ne_nil⟩

theorem enterAll_separable {done : List String} {segments : List (List Char)}
    (h : ∀ item ∈ done, '/' ∉ item.toList) (hsegments : ∀ s ∈ segments, '/' ∉ s)
    (hne : segments ≠ []) : Separable (enterAll done segments) := by
  induction segments generalizing done with
  | nil => exact absurd rfl hne
  | cons segment segments ih =>
    obtain ⟨hsegment, hsegments⟩ := List.forall_mem_cons.mp hsegments
    cases segments with
    | nil =>
      obtain ⟨hslash, hlast⟩ := enter_spec h hsegment true
      exact ⟨hlast rfl, hslash⟩
    | cons next segments =>
      exact ih (enter_spec h hsegment false).1 hsegments (by simp)

/-- Encoding brings no slash. -/
theorem slash_not_mem_encode {reserved : Char → Bool} {cs : List Char}
    (h : '/' ∉ cs ∨ reserved '/' = true) : '/' ∉ Percent.encode reserved cs :=
  Percent.not_mem_encode h (by decide) (by decide)

theorem readSegments_separable (web : Bool) (cs : List Char) :
    Separable (readSegments web cs) := by
  refine enterAll_separable (by simp) (fun segment hsegment ↦ ?_)
    (by simpa using split_ne_nil _ _)
  obtain ⟨piece, hpiece, rfl⟩ := List.mem_map.mp hsegment
  exact slash_not_mem_encode (.inl (not_mem_of_mem_split hpiece))

/-- The path of a locator of the web has segments. -/
theorem readPath_web (cs : List Char) :
    ∃ items, readPath true cs = .segments items ∧ Separable items := by
  cases cs with
  | nil => exact ⟨[""], rfl, ⟨by simp, by simp⟩⟩
  | cons c cs =>
    unfold readPath
    simp only
    split_ifs
    · exact ⟨_, rfl, readSegments_separable ..⟩
    · exact ⟨_, rfl, readSegments_separable ..⟩

/-- A locator has an authority and a path of segments. -/
def Hierarchical (url : Url) : Prop :=
  ∃ authority items, url.authority = some authority ∧ url.path = .segments items ∧ Separable items

variable [Domain.Spelling]

theorem hierarchical_of_readHierarchical {scheme : String} {cs : List Char} {url : Url}
    (hweb : isWebScheme scheme = true) (h : readHierarchical scheme cs = .ok url) :
    url.Hierarchical := by
  unfold readHierarchical at h
  simp only [hweb] at h
  obtain ⟨authority, -, h⟩ := bind_eq_ok.mp h
  cases h
  obtain ⟨items, hitems, hseparable⟩ := readPath_web _
  exact ⟨authority, items, rfl, hitems, hseparable⟩

theorem scheme_of_readHierarchical {scheme : String} {cs : List Char} {url : Url}
    (h : readHierarchical scheme cs = .ok url) : url.scheme = scheme := by
  unfold readHierarchical at h
  obtain ⟨authority, -, h⟩ := bind_eq_ok.mp h
  cases h
  rfl

theorem hierarchical_of_readFile {cs : List Char} {url : Url} (h : readFile cs = .ok url) :
    url.Hierarchical := by
  unfold readFile at h
  extract_lets isSlash finish at h
  have hfinish (place : Host × List Char)
      (h : (Except.ok place >>= finish) = (.ok url : Except Flaw Url)) : url.Hierarchical := by
    cases h
    obtain ⟨items, hitems, hseparable⟩ := readPath_web _
    exact ⟨_, items, rfl, hitems, hseparable⟩
  split at h
  · split_ifs at h with hslashes
    · simp only at h
      split_ifs at h
      · exact hfinish _ h
      · obtain ⟨host, -, h⟩ := bind_eq_ok.mp h
        exact hfinish _ h
    · exact hfinish _ h
  · exact hfinish _ h

/-- A locator of the web that was read from a text is hierarchical. -/
theorem hierarchical_of_parse {text : String} {url : Url} (h : parse text = .ok url)
    (hweb : url.isWeb = true) : url.Hierarchical := by
  unfold parse at h
  simp only at h
  split at h
  · cases h
  · exact hierarchical_of_readFile h
  · split_ifs at h with hscheme
    · exact hierarchical_of_readHierarchical hscheme h
    -- A scheme that is not of the web stays as it is.
    · have hother : url.isWeb = false := by
        unfold isWeb
        split at h
        · rw [scheme_of_readHierarchical h]
          simpa using hscheme
        · cases h
          simpa [readPlain] using hscheme
      rw [hother] at hweb
      cases hweb

end Url

end SearchClient

import SearchClient.Endpoint.Catalogue
import SearchClient.Proofs.Json.Members
import SearchClient.Proofs.Text.Split
import SearchClient.Request.Route
import Mathlib.Data.List.Forall2
import Mathlib.Data.List.Induction

/-!
# Routes that are resolved

A request sets values for keys, one after the other, and for each key the value that was set last
counts, unless it is empty (`RouteValues.Chosen`). The text of a template is cut at its slashes, and
a piece in braces is the place of a key (`RoutePiece.parse_eq_value_iff`). A template accepts values
if it has places for exactly the keys that have one, and the first template that accepts them gives
the segments, each value whole in its place (`RouteTable.resolved_exactly`).
-/

set_option autoImplicit false
set_option relaxedAutoImplicit false

namespace SearchClient

/-! ### Values that were set -/

namespace RouteValues

variable {values : RouteValues} {settings : List (String × String)} {key value : String}

/-- The values after some settings, one after the other. -/
def ofSettings (settings : List (String × String)) : RouteValues :=
  settings.foldl (fun values s ↦ values.set s.1 s.2) .empty

/-- A value was set for a key, and none was set for it later. -/
def LastSet (settings : List (String × String)) (key value : String) : Prop :=
  ∃ before after, settings = before ++ (key, value) :: after ∧ ∀ s ∈ after, s.1 ≠ key

/-- The value that counts for a key: the one that was set last, unless it is empty. -/
def Chosen (settings : List (String × String)) (key value : String) : Prop :=
  LastSet settings key value ∧ value ≠ ""

theorem lastSet_concat_iff {s : String × String} :
    LastSet (settings ++ [s]) key value ↔
      s = (key, value) ∨ (s.1 ≠ key ∧ LastSet settings key value) := by
  constructor
  · rintro ⟨before, after, heq, hafter⟩
    obtain rfl | ⟨others, last, rfl⟩ := List.eq_nil_or_concat' after
    · exact .inl (List.append_inj_right' heq rfl |> List.singleton_inj.mp)
    · have hsplit : settings ++ [s] = (before ++ (key, value) :: others) ++ [last] := by
        rw [heq, List.append_assoc, List.cons_append]
      obtain ⟨rfl, hlast⟩ := List.append_inj' hsplit rfl
      obtain rfl := List.singleton_inj.mp hlast
      exact .inr ⟨hafter s (by simp), before, others, rfl, fun s hs ↦ hafter s (by simp [hs])⟩
  · rintro (rfl | ⟨hne, before, after, rfl, hafter⟩)
    · exact ⟨settings, [], rfl, by simp⟩
    · refine ⟨before, after ++ [s], by simp, fun s' hs' ↦ ?_⟩
      obtain hs' | hs' := List.mem_append.mp hs'
      · exact hafter s' hs'
      · rwa [List.mem_singleton.mp hs']

/-- Setting a value keeps the keys in order. -/
theorem inOrder_set (h : Json.InOrder values.pairs) (key value : String) :
    Json.InOrder (values.set key value).pairs := by
  unfold set
  split_ifs
  · exact h.filter _
  · exact h.insertMember key value

/-- Setting a value changes what there is for its key and nothing else. -/
theorem mem_set_iff (h : Json.InOrder values.pairs) {m : String × String} :
    m ∈ (values.set key value).pairs ↔
      (m = (key, value) ∧ value ≠ "") ∨ (m.1 ≠ key ∧ m ∈ values.pairs) := by
  unfold set
  split_ifs with hempty
  · simp [hempty, and_comm]
  · rw [h.mem_insertMember_iff]
    simp [hempty]

theorem ofSettings_concat (settings : List (String × String)) (s : String × String) :
    ofSettings (settings ++ [s]) = (ofSettings settings).set s.1 s.2 := by
  simp [ofSettings]

theorem inOrder_ofSettings (settings : List (String × String)) :
    Json.InOrder (ofSettings settings).pairs := by
  induction settings using List.reverseRecOn with
  | nil => exact .nil
  | append_singleton settings s ih =>
    rw [ofSettings_concat]
    exact inOrder_set ih ..

/-- The values that there are after some settings are those that count. -/
theorem mem_ofSettings_iff :
    (key, value) ∈ (ofSettings settings).pairs ↔ Chosen settings key value := by
  induction settings using List.reverseRecOn with
  | nil => simp [ofSettings, empty, Chosen, LastSet]
  | append_singleton settings s ih =>
    rw [ofSettings_concat, mem_set_iff (inOrder_ofSettings settings), Chosen, lastSet_concat_iff,
      ih, Chosen]
    obtain ⟨key', value'⟩ := s
    constructor
    · rintro (⟨heq, hvalue⟩ | ⟨hne, hlast, hvalue⟩)
      · obtain ⟨rfl, rfl⟩ := Prod.mk.inj heq
        exact ⟨.inl rfl, hvalue⟩
      · exact ⟨.inr ⟨Ne.symm hne, hlast⟩, hvalue⟩
    · rintro ⟨heq | ⟨hne, hlast⟩, hvalue⟩
      · obtain ⟨rfl, rfl⟩ := Prod.mk.inj heq
        exact .inl ⟨rfl, hvalue⟩
      · exact .inr ⟨Ne.symm hne, hlast, hvalue⟩

theorem mem_keys_ofSettings_iff :
    key ∈ (ofSettings settings).keys ↔ ∃ value, Chosen settings key value := by
  simp [keys, mem_ofSettings_iff]

/-- Keys come in order, each once. -/
theorem keys_ofSettings_pairwise (settings : List (String × String)) :
    (ofSettings settings).keys.Pairwise (· < ·) :=
  List.pairwise_map.mpr (inOrder_ofSettings settings)

theorem get?_ofSettings_iff :
    (ofSettings settings).get? key = some value ↔ Chosen settings key value := by
  have hfind (m : String × String) : (ofSettings settings).pairs.find? (·.1 = key) = some m ↔
      m ∈ (ofSettings settings).pairs ∧ m.1 = key :=
    Json.find?_eq_some_iff_of_nodup (inOrder_ofSettings settings).nodup_names fun _ _ ↦
      decide_eq_true_iff
  rw [get?, Option.map_eq_some_iff, ← mem_ofSettings_iff]
  constructor
  · rintro ⟨⟨key', value'⟩, hm, rfl⟩
    obtain ⟨hmem, rfl⟩ := (hfind _).mp hm
    exact hmem
  · exact fun hmem ↦ ⟨(key, value), (hfind _).mpr ⟨hmem, rfl⟩, rfl⟩

theorem LastSet.unique {value' : String} (h : LastSet settings key value)
    (h' : LastSet settings key value') : value = value' := by
  induction settings using List.reverseRecOn with
  | nil => simp [LastSet] at h
  | append_singleton settings s ih =>
    rcases lastSet_concat_iff.mp h with rfl | ⟨hne, hlast⟩
    · rcases lastSet_concat_iff.mp h' with heq | ⟨hne', -⟩
      · exact (Prod.mk.inj heq).2
      · exact absurd rfl hne'
    · rcases lastSet_concat_iff.mp h' with rfl | ⟨-, hlast'⟩
      · exact absurd rfl hne
      · exact ih hlast hlast'

theorem lastSet_filter_iff {key' : String} :
    LastSet (settings.filter (·.1 ≠ key')) key value ↔ key ≠ key' ∧ LastSet settings key value := by
  induction settings using List.reverseRecOn with
  | nil => simp [LastSet]
  | append_singleton settings s ih =>
    rw [List.filter_append, lastSet_concat_iff]
    by_cases hs : s.1 = key'
    · rw [List.filter_singleton, decide_eq_false (not_not_intro hs), cond_false, List.append_nil,
        ih]
      constructor
      · rintro ⟨hne, hlast⟩
        exact ⟨hne, .inr ⟨hs ▸ Ne.symm hne, hlast⟩⟩
      · rintro ⟨hne, rfl | ⟨-, hlast⟩⟩
        · exact absurd hs hne
        · exact ⟨hne, hlast⟩
    · rw [List.filter_singleton, decide_eq_true hs, cond_true, lastSet_concat_iff, ih]
      constructor
      · rintro (rfl | ⟨hne, hne', hlast⟩)
        · exact ⟨hs, .inl rfl⟩
        · exact ⟨hne', .inr ⟨hne, hlast⟩⟩
      · rintro ⟨hne', rfl | ⟨hne, hlast⟩⟩
        · exact .inl rfl
        · exact .inr ⟨hne, hne', hlast⟩

/-- A key that has no value might as well not have been set. -/
theorem ofSettings_filter (h : ∀ value, ¬ Chosen settings key value) :
    ofSettings (settings.filter (·.1 ≠ key)) = ofSettings settings := by
  have hpairs : (ofSettings (settings.filter (·.1 ≠ key))).pairs = (ofSettings settings).pairs := by
    refine (inOrder_ofSettings _).eq_of_mem_iff (inOrder_ofSettings _) fun m ↦ ?_
    rw [mem_ofSettings_iff, mem_ofSettings_iff, Chosen, lastSet_filter_iff, and_assoc]
    refine and_iff_right_of_imp ?_
    rintro hm rfl
    exact h _ hm
  exact congrArg RouteValues.mk hpairs

end RouteValues

/-! ### Texts of templates -/

/-- A piece of a template is the place for the value of a key: the key in braces. -/
def IsPlace (piece : List Char) (key : String) : Prop := piece = '{' :: (key.toList ++ ['}'])

namespace RoutePiece

variable {cs : List Char} {key : String}

theorem parse_eq_value_iff : parse cs = .value key ↔ IsPlace cs key := by
  unfold parse IsPlace
  constructor
  · intro h
    split at h
    · rename_i inner hinner
      split at h
      · rename_i key' hkey
        cases h
        rw [Text.dropPrefix?_eq_some_iff.mp hinner, Text.dropSuffix?_eq_some_iff.mp hkey,
          String.toList_ofList, List.singleton_append]
      · cases h
    · cases h
  · rintro rfl
    have hinner : Text.dropPrefix? ['{'] ('{' :: (key.toList ++ ['}'])) =
        some (key.toList ++ ['}']) := Text.dropPrefix?_eq_some_iff.mpr rfl
    have hkey : Text.dropSuffix? ['}'] (key.toList ++ ['}']) = some key.toList :=
      Text.dropSuffix?_eq_some_iff.mpr rfl
    rw [hinner]
    simp only [hkey, String.ofList_toList]

/-- A piece that is no place stands for itself. -/
theorem parse_eq_text (h : ∀ key, ¬ IsPlace cs key) : parse cs = .text (String.ofList cs) := by
  simp only [← parse_eq_value_iff] at h
  unfold parse at h ⊢
  split
  · split
    · rename_i key hkey
      simp_all
    · rfl
  · rfl

end RoutePiece

/-- A piece is the place of one key only. -/
theorem IsPlace.unique {piece : List Char} {key key' : String} (h : IsPlace piece key)
    (h' : IsPlace piece key') : key = key' :=
  RoutePiece.value.inj ((RoutePiece.parse_eq_value_iff.mpr h).symm.trans
    (RoutePiece.parse_eq_value_iff.mpr h'))

namespace RouteTemplate

variable {text key : String}

/-- The pieces between the slashes of a template's text, empty ones left out. -/
def piecesIn (text : String) : List (List Char) :=
  (Text.split '/' text.toList).filter (· ≠ [])

theorem mem_keys_parse_iff :
    key ∈ (parse text).keys ↔ ∃ piece ∈ piecesIn text, IsPlace piece key := by
  simp only [keys, parse, List.mem_filterMap, List.mem_map, ← RoutePiece.parse_eq_value_iff]
  constructor
  · rintro ⟨_, ⟨cs, hcs, rfl⟩, hkey⟩
    refine ⟨cs, hcs, ?_⟩
    cases hpiece : RoutePiece.parse cs with
    | text s =>
      rw [hpiece] at hkey
      cases hkey
    | value key' =>
      rw [hpiece] at hkey
      cases hkey
      rfl
  · rintro ⟨cs, hcs, hpiece⟩
    exact ⟨.value key, ⟨cs, hcs, hpiece⟩, rfl⟩

end RouteTemplate

/-! ### Templates that are filled -/

namespace RouteValues

open RouteTemplate

variable {settings : List (String × String)} {text : String}

/-- A template has places for the keys that have a value, and for no others. -/
def Accepted (settings : List (String × String)) (text : String) : Prop :=
  ∀ key, (∃ piece ∈ piecesIn text, IsPlace piece key) ↔ ∃ value, Chosen settings key value

/-- What a piece of a template becomes: a place the whole value of its key, any other piece what it
is. -/
inductive Becomes (settings : List (String × String)) (piece : List Char) : String → Prop
  | value {key value : String} (hplace : IsPlace piece key) (hvalue : Chosen settings key value) :
      Becomes settings piece value
  | text (hplace : ∀ key, ¬ IsPlace piece key) : Becomes settings piece (String.ofList piece)

theorem fits_iff : (ofSettings settings).Fits (.parse text) ↔ Accepted settings text := by
  simp only [Fits, mem_keys_parse_iff, mem_keys_ofSettings_iff]
  exact ⟨fun h key ↦ ⟨h.1 key, h.2 key⟩, fun h ↦ ⟨fun key ↦ (h key).mp, fun key ↦ (h key).mpr⟩⟩

/-- The value that counts for a key is the only one. -/
theorem Chosen.unique {key value value' : String} (h : Chosen settings key value)
    (h' : Chosen settings key value') : value = value' :=
  Option.some.inj ((get?_ofSettings_iff.mpr h).symm.trans (get?_ofSettings_iff.mpr h'))

/-- What a piece of an accepted template becomes is what it is filled with. -/
theorem becomes_iff (h : Accepted settings text) {piece : List Char}
    (hpiece : piece ∈ piecesIn text) {segment : String} : Becomes settings piece segment ↔
      segment = match RoutePiece.parse piece with
        | .text s => s
        | .value key => ((ofSettings settings).get? key).getD "" := by
  by_cases hplace : ∃ key, IsPlace piece key
  · obtain ⟨key, hkey⟩ := hplace
    obtain ⟨value, hvalue⟩ := (h key).mp ⟨piece, hpiece, hkey⟩
    rw [RoutePiece.parse_eq_value_iff.mpr hkey]
    simp only [get?_ofSettings_iff.mpr hvalue, Option.getD_some]
    constructor
    · rintro (⟨hkey', hvalue'⟩ | hother)
      · obtain rfl := hkey.unique hkey'
        exact hvalue'.unique hvalue
      · exact absurd hkey (hother key)
    · rintro rfl
      exact .value hkey hvalue
  · rw [RoutePiece.parse_eq_text (not_exists.mp hplace)]
    constructor
    · rintro (⟨hkey, -⟩ | -)
      · exact absurd ⟨_, hkey⟩ hplace
      · rfl
    · rintro rfl
      exact .text (not_exists.mp hplace)

/-- The segments of an accepted template are what its pieces become. -/
theorem forall₂_becomes_iff (h : Accepted settings text) {segments : List String} :
    List.Forall₂ (Becomes settings) (piecesIn text) segments ↔
      segments = (ofSettings settings).fill (.parse text) := by
  have hpieces (pieces : List (List Char)) (hpieces : ∀ piece ∈ pieces, piece ∈ piecesIn text)
      (segments : List String) : List.Forall₂ (Becomes settings) pieces segments ↔
        segments = (ofSettings settings).fill ⟨text, pieces.map RoutePiece.parse⟩ := by
    induction pieces generalizing segments with
    | nil => simp [fill]
    | cons piece pieces ih =>
      obtain ⟨hpiece, hpieces⟩ := List.forall_mem_cons.mp hpieces
      rw [List.forall₂_cons_left_iff]
      simp only [becomes_iff h hpiece, ih hpieces, exists_and_left, exists_eq_left]
      rfl
  exact hpieces _ (fun _ ↦ id) segments

theorem mem_fill_iff (h : Accepted settings text) {segment : String} :
    segment ∈ (ofSettings settings).fill (.parse text) ↔
      ∃ piece ∈ piecesIn text, Becomes settings piece segment := by
  rw [fill, RouteTemplate.parse, List.map_map, List.mem_map]
  refine exists_congr fun piece ↦ and_congr_right fun hpiece ↦ ?_
  rw [becomes_iff h hpiece]
  exact eq_comm

/-- Every value that counts has a segment of its own. -/
theorem mem_fill_of_chosen (h : Accepted settings text) {key value : String}
    (hvalue : Chosen settings key value) : value ∈ (ofSettings settings).fill (.parse text) := by
  obtain ⟨piece, hpiece, hkey⟩ := (h key).mpr ⟨value, hvalue⟩
  exact (mem_fill_iff h).mpr ⟨piece, hpiece, .value hkey hvalue⟩

/-- No segment is empty. -/
theorem ne_empty_of_mem_fill (h : Accepted settings text) {segment : String}
    (hsegment : segment ∈ (ofSettings settings).fill (.parse text)) : segment ≠ "" := by
  obtain ⟨piece, hpiece, ⟨-, hvalue⟩ | -⟩ := (mem_fill_iff h).mp hsegment
  · exact hvalue.2
  · have hne : piece ≠ [] := of_decide_eq_true (List.mem_filter.mp hpiece).2
    intro hempty
    exact hne (by simpa using congrArg String.toList hempty)

end RouteValues

/-! ### Tables that are resolved -/

namespace RouteTable

open RouteValues RouteTemplate

variable {operation : String} {texts : List String} {settings : List (String × String)}

/-- The table of an operation whose templates are spelled by texts. -/
def spelled (operation : String) (texts : List String) : RouteTable :=
  ⟨operation, texts.map RouteTemplate.parse⟩

/-- A template is the first one that accepts the values. -/
def FirstAccepted (settings : List (String × String)) (texts : List String) (text : String) :
    Prop :=
  ∃ before after, texts = before ++ text :: after ∧ Accepted settings text ∧
    ∀ other ∈ before, ¬ Accepted settings other

theorem shown_spelled (operation : String) (texts : List String) :
    (spelled operation texts).templates.map (·.shown) = texts := by
  rw [spelled, List.map_map]
  exact List.map_id _

theorem find?_spelled_eq_some_iff {text : String} :
    texts.find? (fun text ↦ decide ((ofSettings settings).Fits (.parse text))) = some text ↔
      FirstAccepted settings texts text := by
  rw [List.find?_eq_some_iff_append, FirstAccepted]
  simp only [decide_eq_true_iff, fits_iff, Bool.not_eq_true', decide_eq_false_iff_not]
  tauto

/-- The first template that accepts the values is filled. -/
theorem resolve_eq_ok_iff {segments : List String} :
    (spelled operation texts).resolve (ofSettings settings) = .ok segments ↔
      ∃ text, FirstAccepted settings texts text ∧
        List.Forall₂ (Becomes settings) (piecesIn text) segments := by
  unfold resolve
  simp only [spelled, List.find?_map, Function.comp_def]
  cases hfind : texts.find? fun text ↦ decide ((ofSettings settings).Fits (.parse text)) with
  | some first =>
    have hfirst := find?_spelled_eq_some_iff.mp hfind
    have haccepted : Accepted settings first := by
      obtain ⟨_, _, _, haccepted, _⟩ := hfirst
      exact haccepted
    simp only [Option.map_some, Except.ok.injEq]
    constructor
    · rintro rfl
      exact ⟨first, hfirst, (forall₂_becomes_iff haccepted).mpr rfl⟩
    · rintro ⟨text, htext, hsegments⟩
      obtain rfl : first = text :=
        Option.some.inj (hfind.symm.trans (find?_spelled_eq_some_iff.mpr htext))
      exact ((forall₂_becomes_iff haccepted).mp hsegments).symm
  | none =>
    simp only [Option.map_none, reduceCtorEq, false_iff, not_exists, not_and]
    intro text htext
    rw [find?_spelled_eq_some_iff.mpr htext] at hfind
    cases hfind

/-- Where no template accepts the values, all keys and all templates are told. -/
theorem resolve_eq_error_iff {mismatch : RouteMismatch} :
    (spelled operation texts).resolve (ofSettings settings) = .error mismatch ↔
      (∀ text ∈ texts, ¬ Accepted settings text) ∧
        mismatch = ⟨operation, (ofSettings settings).keys, texts⟩ := by
  have hnone : (spelled operation texts).templates.find?
      (fun t ↦ decide ((ofSettings settings).Fits t)) = none ↔
        ∀ text ∈ texts, ¬ Accepted settings text := by
    simp [spelled, List.find?_eq_none, fits_iff]
  unfold resolve
  rw [← hnone, shown_spelled]
  cases (spelled operation texts).templates.find? fun t ↦ decide ((ofSettings settings).Fits t) with
  | some t => simp
  | none => simp [spelled, eq_comm]

/-- A table is resolved exactly if one of its templates accepts the values. -/
theorem exists_resolve_iff :
    (∃ segments, (spelled operation texts).resolve (ofSettings settings) = .ok segments) ↔
      ∃ text ∈ texts, Accepted settings text := by
  cases hresolve : (spelled operation texts).resolve (ofSettings settings) with
  | ok segments =>
    obtain ⟨text, ⟨before, after, rfl, haccepted, -⟩, -⟩ := resolve_eq_ok_iff.mp hresolve
    exact ⟨fun _ ↦ ⟨text, by simp, haccepted⟩, fun _ ↦ ⟨segments, rfl⟩⟩
  | error mismatch =>
    have hnone := (resolve_eq_error_iff.mp hresolve).1
    exact ⟨nofun, fun ⟨text, htext, haccepted⟩ ↦ absurd haccepted (hnone text htext)⟩

/-- A table is resolved exactly if one of its templates has places for the keys that have a value
and for no others. The first such template gives the segments: its pieces in order, each value whole
in its place. So no segment is empty, and every value has one. Otherwise the keys are told in order,
and so are all templates. A key that was last set to nothing counts as one that was never set. -/
theorem resolved_exactly (operation : String) (texts : List String)
    (settings : List (String × String)) :
    let resolved := (spelled operation texts).resolve (ofSettings settings)
    ((∃ segments, resolved = .ok segments) ↔ ∃ text ∈ texts, Accepted settings text) ∧
      (∀ segments, resolved = .ok segments ↔ ∃ text, FirstAccepted settings texts text ∧
        List.Forall₂ (Becomes settings) (piecesIn text) segments) ∧
      (∀ segments, resolved = .ok segments → (∀ segment ∈ segments, segment ≠ "") ∧
        ∀ key value, Chosen settings key value → value ∈ segments) ∧
      (∀ mismatch, resolved = .error mismatch ↔ (∀ text ∈ texts, ¬ Accepted settings text) ∧
        mismatch.operation = operation ∧ mismatch.templates = texts ∧
        mismatch.provided.Pairwise (· < ·) ∧
        (∀ key, key ∈ mismatch.provided ↔ ∃ value, Chosen settings key value) ∧
        mismatch.message = "no url template of `" ++ operation ++ "` accepts route values [" ++
          ", ".intercalate mismatch.provided ++ "]; templates: " ++ " | ".intercalate texts) ∧
      ∀ key, LastSet settings key "" →
        resolved =
          (spelled operation texts).resolve (ofSettings (settings.filter (·.1 ≠ key))) := by
  intro resolved
  refine ⟨exists_resolve_iff, fun segments ↦ resolve_eq_ok_iff, fun segments hsegments ↦ ?_,
    fun mismatch ↦ ?_, fun key hcleared ↦ ?_⟩
  · obtain ⟨text, ⟨_, _, _, haccepted, _⟩, hfilled⟩ := resolve_eq_ok_iff.mp hsegments
    obtain rfl := (forall₂_becomes_iff haccepted).mp hfilled
    exact ⟨fun _ ↦ ne_empty_of_mem_fill haccepted, fun _ _ ↦ mem_fill_of_chosen haccepted⟩
  · rw [resolve_eq_error_iff]
    refine and_congr_right fun _ ↦ ⟨?_, ?_⟩
    · rintro rfl
      exact ⟨rfl, rfl, keys_ofSettings_pairwise settings, fun _ ↦ mem_keys_ofSettings_iff, rfl⟩
    · rintro ⟨rfl, rfl, hprovided, hmem, -⟩
      have hkeys : mismatch.provided = (ofSettings settings).keys :=
        hprovided.eq_of_mem_iff (keys_ofSettings_pairwise settings) fun key ↦
          (hmem key).trans mem_keys_ofSettings_iff.symm
      rw [← hkeys]
  · have hnone (value : String) : ¬ Chosen settings key value :=
      fun ⟨hlast, hvalue⟩ ↦ hvalue (hlast.unique hcleared)
    rw [ofSettings_filter hnone]

/-- Three templates, two of them with places. -/
def searchTexts : List String :=
  [RouteTemplate.of [.value "index", "_doc", .value "id"],
    RouteTemplate.of [.value "index", "_search"], RouteTemplate.of ["_search"]].map (·.shown)

/-- An id is set and taken back. -/
def searchSettings : List (String × String) := [("id", "7"), ("index", "logs/{id}"), ("id", "")]

/-- A value with a slash and braces in it fills its place whole, and an id that was taken back leads
to the template without one. -/
theorem resolved_exactly_of_search : LastSet searchSettings "id" "" ∧
    Chosen searchSettings "index" "logs/{id}" ∧
    (spelled "search" searchTexts).resolve (ofSettings searchSettings) =
      .ok ["logs/{id}", "_search"] ∧
    (∃ text ∈ searchTexts, Accepted searchSettings text) ∧
    "logs/{id}" ∈ ["logs/{id}", "_search"] ∧
    (spelled "search" searchTexts).resolve (ofSettings searchSettings) =
      (spelled "search" searchTexts).resolve (ofSettings [("index", "logs/{id}")]) := by
  have hcleared : LastSet searchSettings "id" "" := ⟨searchSettings.take 2, [], rfl, nofun⟩
  have hindex : Chosen searchSettings "index" "logs/{id}" :=
    ⟨⟨searchSettings.take 1, searchSettings.drop 2, rfl, by decide⟩, by decide⟩
  have hresolved : (spelled "search" searchTexts).resolve (ofSettings searchSettings) =
      .ok ["logs/{id}", "_search"] := rfl
  obtain ⟨hexists, -, hsegments, -, hnever⟩ :=
    resolved_exactly "search" searchTexts searchSettings
  exact ⟨hcleared, hindex, hresolved, hexists.mp ⟨_, hresolved⟩,
    (hsegments _ hresolved).2 _ _ hindex, hnever "id" hcleared⟩

end RouteTable

/-! ### Tables of endpoints -/

/-- A piece that is found again in the text of a template: it is not empty, has no slash, and looks
like what it is. -/
def RoutePiece.Plain (piece : RoutePiece) : Prop :=
  piece.shown.toList ≠ [] ∧ '/' ∉ piece.shown.toList ∧ parse piece.shown.toList = piece

instance (piece : RoutePiece) : Decidable piece.Plain := by
  unfold RoutePiece.Plain
  infer_instance

/-- A template of plain pieces is spelled by the text that it is shown as. -/
theorem RouteTemplate.parse_of {pieces : List RoutePiece} (h : ∀ piece ∈ pieces, piece.Plain) :
    parse (of pieces).shown = of pieces := by
  have hshown : (of pieces).shown.toList =
      [] ++ '/' :: Text.join ['/'] (pieces.map fun piece ↦ piece.shown.toList) := by
    simp [of, Text.join_eq_intercalate, Function.comp_def]
  have hpieces : piecesIn (of pieces).shown = pieces.map fun piece ↦ piece.shown.toList := by
    rw [piecesIn, hshown, Text.split_append, List.filter_append]
    cases pieces with
    | nil => rfl
    | cons piece pieces =>
      rw [Text.split_join (by simp) (by simpa using fun piece hpiece ↦ (h piece hpiece).2.1)]
      refine List.filter_eq_self.mpr fun cs hcs ↦ ?_
      obtain ⟨piece, hpiece, rfl⟩ := List.mem_map.mp hcs
      exact decide_eq_true (h piece hpiece).1
  have hparsed : (piecesIn (of pieces).shown).map RoutePiece.parse = pieces := by
    rw [hpieces, List.map_map]
    exact (List.map_congr_left fun piece hpiece ↦ (h piece hpiece).2.2).trans (List.map_id _)
  exact congrArg (RouteTemplate.mk _) hparsed

/-- Every endpoint has a table whose templates are spelled by texts. -/
theorem Endpoint.table_eq_spelled {e : Endpoint} (h : e ∈ all) :
    e.table = .spelled e.table.operation (e.table.templates.map (·.shown)) := by
  have hplain : ∀ e ∈ all, ∀ t ∈ e.table.templates, ∀ piece ∈ t.pieces, piece.Plain := by
    decide +kernel
  have hmade : ∀ e ∈ all, ∀ t ∈ e.table.templates, t = .of t.pieces := by decide +kernel
  have htemplates : e.table.templates.map (fun t ↦ RouteTemplate.parse t.shown) =
      e.table.templates := by
    refine (List.map_congr_left fun t ht ↦ ?_).trans (List.map_id _)
    rw [hmade e h t ht]
    exact RouteTemplate.parse_of (hplain e h t ht)
  rw [RouteTable.spelled, List.map_map]
  exact congrArg (RouteTable.mk _) htemplates.symm

end SearchClient

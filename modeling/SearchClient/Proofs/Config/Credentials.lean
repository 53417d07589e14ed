import SearchClient.Config.Load
import SearchClient.Config.Resolve
import SearchClient.Proofs.Config.Typed
import SearchClient.Proofs.Json.Members

/-!
# Credentials from the environment

Variables that are each about another setting configure these settings, in whatever order they come
(`Environment.document_of_settings`), and variables of other names do not matter. So a name, a
password and a key are in the configuration as they are in the environment, unless one of them is
taken for something else than a text: a truth value, a number, a text in quotes, a list or a
dictionary (`ClientConfig.credentials_arrive_iff`). Then there is no configuration, or one with
another text.
-/

set_option autoImplicit false
set_option relaxedAutoImplicit false

namespace SearchClient

namespace Environment

variable {env : Environment}

/-- Names that begin with `OSC_`, in letters of either case. -/
def isOurs (name : String) : Bool :=
  (Text.dropPrefix? start ((Text.trim name.toList).map Char.toLower)).isSome

theorem settingPath?_of_not_isOurs {name : String} (h : isOurs name = false) :
    settingPath? name = none := by
  rw [isOurs, Option.isSome_eq_false_iff, Option.isNone_iff_eq_none] at h
  rw [settingPath?, h]
  rfl

/-- Variables of other names do not matter. -/
theorem document_filter (env : Environment) :
    document (env.filter (isOurs ·.1)) = document env := by
  unfold document
  rw [List.foldl_filter]
  congr
  funext under p
  split_ifs with hours
  · rfl
  · simp only [settingPath?_of_not_isOurs (Bool.eq_false_iff.mpr hours)]

/-- A variable is about a setting that stands in no section. -/
def IsAbout (p : String × String) (key : String) : Prop := settingPath? p.1 = some [key]

/-- A variable about another setting than those before it adds its value to theirs. -/
theorem document_concat {p : String × String} {key : String} (hp : IsAbout p key)
    {members : List (String × Json)} (henv : document env = .object members)
    (hnew : ∀ v, (key, v) ∉ members) : document (env ++ [p]) =
      .object (Json.insertMember key (Literal.read p.2) members) := by
  have hnone : members.find? (·.1 == key) = none := Json.find?_name_eq_none_iff.mpr hnew
  rw [document, List.foldl_append, ← document, henv]
  simp only [List.foldl_cons, List.foldl_nil]
  rw [show settingPath? p.1 = some [key] from hp]
  simp only [nest, Json.overlay, overlayMembers, hnone]

/-- Variables about different settings give each of these settings its value. -/
theorem document_of_settings (h : ∀ p ∈ env, ∃ key, IsAbout p key)
    (hnodup : (env.map (settingPath? ·.1)).Nodup) :
    ∃ members, document env = .object members ∧ Json.InOrder members ∧
      ∀ key v, (key, v) ∈ members ↔ ∃ p ∈ env, IsAbout p key ∧ v = Literal.read p.2 := by
  induction env using List.reverseRecOn with
  | nil => exact ⟨[], rfl, .nil, by simp⟩
  | append_singleton env p ih =>
    rw [List.map_append, List.nodup_append] at hnodup
    obtain ⟨hbefore, -, hother⟩ := hnodup
    obtain ⟨members, hdocument, hsorted, hmem⟩ :=
      ih (fun q hq ↦ h q (List.mem_append_left _ hq)) hbefore
    obtain ⟨key, hp⟩ := h p (by simp)
    have hnew (v : Json) : (key, v) ∉ members := fun hv ↦ by
      obtain ⟨q, hq, hqkey, -⟩ := (hmem key v).mp hv
      exact hother _ (List.mem_map_of_mem hq) _ (by simp) (hqkey.trans hp.symm)
    refine ⟨_, document_concat hp hdocument hnew, hsorted.insertMember _ _, fun key' v ↦ ?_⟩
    rw [hsorted.mem_insertMember_iff, hmem, Prod.mk.injEq]
    constructor
    · rintro (⟨rfl, rfl⟩ | ⟨-, q, hq, hqkey, hv⟩)
      · exact ⟨p, by simp, hp, rfl⟩
      · exact ⟨q, List.mem_append_left _ hq, hqkey, hv⟩
    · rintro ⟨q, hq, hqkey, hv⟩
      obtain hq | hq := List.mem_append.mp hq
      · refine .inr ⟨?_, q, hq, hqkey, hv⟩
        rintro rfl
        exact hnew v ((hmem _ _).mpr ⟨q, hq, hqkey, hv⟩)
      · obtain rfl := List.mem_singleton.mp hq
        obtain rfl : key = key' := by simpa using hp.symm.trans hqkey
        exact .inl ⟨rfl, hv⟩

end Environment

/-! ### Settings that are texts -/

namespace Json

variable {members : List (String × Json)} {key : String}

/-- What a text setting gets from the text of its variable, if there is one. -/
def textRead (given : Option String) : Option (Option String) :=
  match given with
  | none => some none
  | some text => optional? string? (Literal.read text)

/-- A setting gets the text of its variable exactly if the variable reads as a text, as the same. -/
theorem textRead_eq_some_iff {given : Option String} :
    textRead given = some given ↔ ∀ text ∈ given, Literal.read text = .string text := by
  cases given with
  | none => simp [textRead]
  | some text =>
    simp only [textRead, Option.mem_def, Option.some.injEq, forall_eq']
    cases Literal.read text <;> simp [optional?, string?]

/-- The members of a document that has what these texts say in their settings and nothing else. -/
structure Gives (members : List (String × Json)) (given : String → Option String) : Prop where
  inOrder : InOrder members
  mem_iff : ∀ key v, (key, v) ∈ members ↔ ∃ text ∈ given key, v = Literal.read text

theorem Gives.find?_eq_none {given : String → Option String} (h : Gives members given)
    (hgiven : given key = none) : members.find? (·.1 == key) = none := by
  refine find?_name_eq_none_iff.mpr fun v hmem ↦ ?_
  obtain ⟨text, htext, -⟩ := (h.mem_iff key v).mp hmem
  rw [hgiven] at htext
  cases htext

theorem Gives.field?_text {given : String → Option String} (h : Gives members given)
    (key : String) : field? members key none (optional? string?) = textRead (given key) := by
  unfold field? textRead
  cases hgiven : given key with
  | none =>
    have hnone : members.find? (·.1 == key) = none := h.find?_eq_none hgiven
    rw [hnone]
  | some text =>
    have hfind : members.find? (·.1 == key) = some (key, Literal.read text) :=
      (find?_eq_some_iff_of_nodup h.inOrder.nodup_names fun _ _ ↦ beq_iff_eq).mpr
        ⟨(h.mem_iff key _).mpr ⟨text, hgiven, rfl⟩, rfl⟩
    rw [hfind]

theorem Gives.field?_usual {α : Type} {given : String → Option String} (h : Gives members given)
    {key : String} (hgiven : given key = none) (usual : α) (read : Json → Option α) :
    field? members key usual read = some usual := by
  rw [field?, h.find?_eq_none hgiven]

end Json

namespace ClientConfig

open Json Environment

variable {env : Environment} {u v k : Option String}

/-- The variables of a name, a password and a key, of those there are. -/
def credentialVariables (u v k : Option String) : Environment :=
  (u.map ("OSC_USERNAME", ·)).toList ++ (v.map ("OSC_PASSWORD", ·)).toList ++
    (k.map ("OSC_API_KEY", ·)).toList

/-- The texts of the settings that they are about. -/
def credentialTexts (u v k : Option String) (key : String) : Option String :=
  if key = "username" then u else if key = "password" then v else if key = "api_key" then k
  else none

theorem settingPath?_credentials : settingPath? "OSC_USERNAME" = some ["username"] ∧
    settingPath? "OSC_PASSWORD" = some ["password"] ∧
    settingPath? "OSC_API_KEY" = some ["api_key"] := by
  decide

theorem exists_members (henv : (env.filter (isOurs ·.1)).Perm (credentialVariables u v k)) :
    ∃ members, env.document = .object members ∧ Gives members (credentialTexts u v k) := by
  obtain ⟨hname, hpassword, hkey⟩ := settingPath?_credentials
  have hmem (p : String × String) : p ∈ env.filter (isOurs ·.1) ↔
      (p.1 = "OSC_USERNAME" ∧ u = some p.2) ∨ (p.1 = "OSC_PASSWORD" ∧ v = some p.2) ∨
        (p.1 = "OSC_API_KEY" ∧ k = some p.2) := by
    obtain ⟨name, text⟩ := p
    rw [henv.mem_iff, credentialVariables]
    simp only [List.mem_append, Option.mem_toList, Option.map_eq_some_iff, Prod.mk.injEq]
    grind
  have habout : ∀ p ∈ env.filter (isOurs ·.1), ∃ key, IsAbout p key := by
    intro p hp
    obtain ⟨h, -⟩ | ⟨h, -⟩ | ⟨h, -⟩ := (hmem p).mp hp
    · exact ⟨"username", by rw [IsAbout, h, hname]⟩
    · exact ⟨"password", by rw [IsAbout, h, hpassword]⟩
    · exact ⟨"api_key", by rw [IsAbout, h, hkey]⟩
  have hnodup : ((env.filter (isOurs ·.1)).map (settingPath? ·.1)).Nodup := by
    rw [(henv.map _).nodup_iff]
    cases u <;> cases v <;> cases k <;>
      simp [credentialVariables, hname, hpassword, hkey]
  obtain ⟨members, hdocument, hsorted, hmembers⟩ := document_of_settings habout hnodup
  rw [document_filter] at hdocument
  refine ⟨members, hdocument, hsorted, fun key value ↦ (hmembers key value).trans ?_⟩
  simp only [hmem, IsAbout]
  constructor
  · rintro ⟨⟨name, text⟩, ⟨rfl, htext⟩ | ⟨rfl, htext⟩ | ⟨rfl, htext⟩, hpath, rfl⟩
    · obtain rfl : "username" = key := by simpa using hname.symm.trans hpath
      exact ⟨text, htext, rfl⟩
    · obtain rfl : "password" = key := by simpa using hpassword.symm.trans hpath
      exact ⟨text, htext, rfl⟩
    · obtain rfl : "api_key" = key := by simpa using hkey.symm.trans hpath
      exact ⟨text, htext, rfl⟩
  · rintro ⟨text, htext, rfl⟩
    unfold credentialTexts at htext
    split_ifs at htext with husername hsecret hapi
    · exact ⟨("OSC_USERNAME", text), .inl ⟨rfl, htext⟩, by rw [hname, husername], rfl⟩
    · exact ⟨("OSC_PASSWORD", text), .inr (.inl ⟨rfl, htext⟩), by rw [hpassword, hsecret], rfl⟩
    · exact ⟨("OSC_API_KEY", text), .inr (.inr ⟨rfl, htext⟩), by rw [hkey, hapi], rfl⟩
    · cases htext

/-- A configuration has a name, a password and a key, and who asks is known by them. -/
structure Holds (c : ClientConfig) (u v k : Option String) : Prop where
  username : c.username = u
  password : c.password = v
  apiKey : c.apiKey = k
  byKey : ∀ key ∈ k, c.credentials = .ok (some (.apiKey key))
  byName : ∀ name ∈ u, k = none → c.credentials = .ok (some (.basic name v))

theorem holds_of_eq {c : ClientConfig} (husername : c.username = u) (hpassword : c.password = v)
    (hkey : c.apiKey = k) : c.Holds u v k where
  username := husername
  password := hpassword
  apiKey := hkey
  byKey := by
    rintro key rfl
    rw [credentials, hkey]
  byName := by
    rintro name rfl rfl
    rw [credentials, hkey, husername, hpassword]

/-- What the environment configures if its variables are about credentials only. -/
theorem load_eq (henv : (env.filter (isOurs ·.1)).Perm (credentialVariables u v k)) :
    load env none =
      match textRead u, textRead v, textRead k with
      | some u, some v, some k => .ok { username := u, password := v, apiKey := k }
      | _, _, _ => .error ⟨none⟩ := by
  obtain ⟨members, hdocument, hgives⟩ := exists_members henv
  have hname : field? members "username" none (optional? string?) = textRead u :=
    hgives.field?_text "username"
  have hpassword : field? members "password" none (optional? string?) = textRead v :=
    hgives.field?_text "password"
  have hkey : field? members "api_key" none (optional? string?) = textRead k :=
    hgives.field?_text "api_key"
  have hproxy : field? members "proxy" none (optional? string?) = some none :=
    hgives.field?_text "proxy"
  have husual {α : Type} (key : String) (hkey : credentialTexts u v k key = none) (usual : α)
      (read : Json → Option α) := hgives.field?_usual hkey usual read
  unfold load
  simp only [hdocument, Option.bind_some, ofJson?, fieldValues?, Option.bind_eq_bind, hname,
    hpassword, hkey, hproxy, husual "nodes" rfl, husual "pool" rfl, husual "headers" rfl,
    husual "query_params" rfl, husual "transport" rfl]
  cases textRead u <;> cases textRead v <;> cases textRead k <;> rfl

/-- A name, a password and a key from the environment arrive as they are unless one of them is taken
for something else than a text. -/
theorem credentials_arrive_iff (henv : (env.filter (isOurs ·.1)).Perm (credentialVariables u v k))
    (htight : ∀ text ∈ u.toList ++ v.toList ++ k.toList, Text.Tight text.toList) :
    (∃ c, load env none = .ok c ∧ c.Holds u v k) ↔
      ∀ text ∈ u.toList ++ v.toList ++ k.toList, ¬ Literal.IsTyped text.toList := by
  have hread : (∀ text ∈ u.toList ++ v.toList ++ k.toList, ¬ Literal.IsTyped text.toList) ↔
      textRead u = some u ∧ textRead v = some v ∧ textRead k = some k := by
    have hall : (∀ text ∈ u.toList ++ v.toList ++ k.toList, ¬ Literal.IsTyped text.toList) ↔
        ∀ text ∈ u.toList ++ v.toList ++ k.toList, Literal.read text = .string text :=
      forall₂_congr fun text htext ↦ (Literal.read_eq_string_iff (htight text htext)).symm
    rw [hall]
    simp only [textRead_eq_some_iff, List.forall_mem_append, Option.mem_toList, and_assoc]
    rfl
  rw [hread]
  constructor
  · rintro ⟨c, hload, hholds⟩
    rw [load_eq henv] at hload
    split at hload
    · rename_i name secret key hname hsecret hkey
      cases hload
      obtain ⟨rfl, rfl, rfl, -, -⟩ := hholds
      exact ⟨hname, hsecret, hkey⟩
    · cases hload
  · rintro ⟨hname, hsecret, hkey⟩
    refine ⟨{ username := u, password := v, apiKey := k }, ?_, holds_of_eq rfl rfl rfl⟩
    rw [load_eq henv, hname, hsecret, hkey]

/-- A name and a password arrive in front of other variables, brackets and all. -/
theorem credentials_arrive_of_brackets :
    (([("HOME", "/root"), ("OSC_PASSWORD", "p@ss[1]"), ("OSC_USERNAME", "admin")].filter
      (isOurs ·.1)).Perm (credentialVariables (some "admin") (some "p@ss[1]") none)) ∧
    (∀ text ∈ ["admin", "p@ss[1]"], Text.Tight text.toList) ∧
    ∃ c, load [("HOME", "/root"), ("OSC_PASSWORD", "p@ss[1]"), ("OSC_USERNAME", "admin")] none =
      .ok c ∧ c.Holds (some "admin") (some "p@ss[1]") none := by
  have henv : ([("HOME", "/root"), ("OSC_PASSWORD", "p@ss[1]"), ("OSC_USERNAME", "admin")].filter
      (isOurs ·.1)).Perm (credentialVariables (some "admin") (some "p@ss[1]") none) := by
    have hours : [("HOME", "/root"), ("OSC_PASSWORD", "p@ss[1]"), ("OSC_USERNAME", "admin")].filter
        (isOurs ·.1) = [("OSC_PASSWORD", "p@ss[1]"), ("OSC_USERNAME", "admin")] := by decide
    rw [hours]
    exact .swap ..
  have htight : ∀ text ∈ ["admin", "p@ss[1]"], Text.Tight text.toList := by decide
  have hname : ¬ Literal.IsTyped "admin".toList := by
    rw [← Literal.read_eq_string_iff (htight "admin" (by simp))]
    cbv
  have hsecret : ¬ Literal.IsTyped "p@ss[1]".toList := by
    rw [← Literal.read_eq_string_iff (htight "p@ss[1]" (by simp))]
    cbv
  refine ⟨henv, htight, (credentials_arrive_iff henv htight).mpr ?_⟩
  simp only [Option.toList, List.cons_append, List.nil_append, List.append_nil,
    List.forall_mem_cons]
  exact ⟨hname, hsecret, List.forall_mem_nil _⟩

/-- A password of digits alone is taken for a number, and there is no configuration. A key in quotes
loses them. -/
theorem digits_are_no_password : Text.Tight "12345".toList ∧
    load [("OSC_USERNAME", "admin"), ("OSC_PASSWORD", "12345")] none = .error ⟨none⟩ ∧
    Text.Tight "\"key\"".toList ∧
    load [("OSC_API_KEY", "\"key\"")] none = .ok { apiKey := some "key" } := by
  have hplain : Literal.IsPlain "12345".toList :=
    { separator := List.all_iff_forall_prop.mp (by decide)
      space := fun c hc ↦ by cases hc; decide
      quote := by decide
      apostrophe := by decide
      truth := by decide
      untruth := by decide }
  have hnumber : Literal.read "12345" = .integer 12345 :=
    Literal.read_of_isValue (@Literal.IsValue.plain [] _ (List.forall_mem_nil _) hplain)
  have hquoted : Literal.read "\"key\"" = .string "key" := by cbv
  have hname : Literal.read "admin" = .string "admin" := by cbv
  have henv : ([("OSC_USERNAME", "admin"), ("OSC_PASSWORD", "12345")].filter (isOurs ·.1)).Perm
    (credentialVariables (some "admin") (some "12345") none) := .of_eq (by decide)
  have henv' : ([("OSC_API_KEY", "\"key\"")].filter (isOurs ·.1)).Perm
    (credentialVariables none none (some "\"key\"")) := .of_eq (by decide)
  refine ⟨by decide, ?_, by decide, ?_⟩
  · rw [load_eq henv]
    simp [textRead, hnumber, hname, optional?, string?, Json.integer]
  · rw [load_eq henv']
    simp [textRead, hquoted, optional?, string?]

end ClientConfig

end SearchClient

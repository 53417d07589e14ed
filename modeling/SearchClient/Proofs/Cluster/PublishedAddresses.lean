import SearchClient.Cluster.Sniff
import SearchClient.Proofs.Url.Hosts

/-!
# Published addresses

A node publishes its address as a host and a port, or as a name, a slash, and a host and a port, and
then the name counts (`Sniff.Publishes`). The locator that is made of it is that host and that port
and nothing else (`Url.PointsAt`) exactly if the host has no mark in it, one of the characters that
end a host or what is in front of it. A host with one is pasted into the locator as it is: what
stands behind the mark becomes a path, a query or a fragment, the port with it, and what stands in
front of an at sign becomes a user. Whatever is a host gets its locator, so the usual addresses do
(`Sniff.published_host_and_port`).
-/

set_option autoImplicit false
set_option relaxedAutoImplicit false

namespace SearchClient

/-! ### Locators of hosts and ports -/

namespace Url

variable {scheme : String} {text : List Char} {port : Nat}

theorem kept_eq_self (h : ∀ c ∈ text, isSkipped c = false) : kept text = text :=
  List.filter_eq_self.mpr fun c hc ↦ by rw [h c hc, Bool.not_false]

theorem not_isSkipped_of_isGroupPart {c : Char} (h : Address.IsGroupPart c) :
    isSkipped c = false := by
  rw [Bool.eq_false_iff]
  intro hskipped
  have hblank : c = '\t' ∨ c = '\n' ∨ c = '\r' := by simpa [isSkipped, or_assoc] using hskipped
  revert h
  unfold Address.IsGroupPart
  obtain rfl | rfl | rfl := hblank <;> decide

variable [Domain.Spelling]

/-- A text that is a host of the web. -/
def IsHost (text : List Char) : Prop := ∃ host, readWebHost (kept text) = .ok host

/-- A locator that says no more than where a host and a port are. -/
structure PointsAt (url : Url) (scheme : String) (host : List Char) (port : Nat) : Prop where
  scheme : url.scheme = scheme
  authority : ∃ a, url.authority = some a ∧ readWebHost (kept host) = .ok a.host ∧
    a.username = "" ∧ a.password = none
  port : url.effectivePort? = some port
  path : url.pathText = "/"
  query : url.query = none
  fragment : url.fragment = none

theorem pointsAt_place {host : Host} (h : readWebHost (kept text) = .ok host) :
    (place scheme host port).PointsAt scheme text port where
  scheme := rfl
  authority := ⟨_, rfl, h, rfl, rfl⟩
  port := by
    simp only [effectivePort?, place, Option.bind_some]
    split_ifs with hdefault
    · rw [Option.none_or, hdefault]
    · rfl
  path := rfl
  query := rfl
  fragment := rfl

/-- A host has no mark in it. -/
theorem IsHost.not_isMark {c : Char} (h : IsHost text) (hc : c ∈ text) : isMark c = false := by
  obtain ⟨host, hhost⟩ := h
  rw [Bool.eq_false_iff]
  intro hmark
  have hkept : isSkipped c = false := by
    have hall : ∀ c ∈ ['/', '\\', '?', '#', '@'], isSkipped c = false :=
      List.all_iff_forall_prop.mp (by decide)
    exact hall c (List.contains_iff_mem.mp hmark)
  have hmem : c ∈ kept text := List.mem_filter.mpr ⟨hc, by rw [hkept, Bool.not_false]⟩
  rw [not_isMark_of_readWebHost hhost hmem] at hmark
  cases hmark

theorem IsHost.ne_nil (h : IsHost text) : text ≠ [] := by
  rintro rfl
  obtain ⟨host, hhost⟩ := h
  rw [kept, List.filter_nil, readWebHost_nil] at hhost
  cases hhost

theorem PointsAt.isHost {url : Url} (h : url.PointsAt scheme text port) : IsHost text := by
  obtain ⟨a, -, hhost, -, -⟩ := h.authority
  exact ⟨a.host, hhost⟩

/-- An address of either kind, as it stands in a locator. -/
inductive IsAddress : List Char → Prop
  | four {address : Nat} (h : address < 4294967296) : IsAddress (Address.write32 address)
  | eight {inner : List Char} {groups : List Nat} (h : Address.read128 inner = some groups) :
      IsAddress ('[' :: (inner ++ [']']))

theorem IsAddress.isHost (h : IsAddress text) : IsHost text := by
  cases h with
  | @four address hbound =>
    refine ⟨_, (congrArg readWebHost (kept_eq_self fun c hc ↦ ?_)).trans
      (readWebHost_write32 hbound)⟩
    obtain rfl | hdigit := Address.isDigit_of_mem_write32 hc
    · decide
    · exact (plain_of_isDigit hdigit).2.1
  | @eight inner groups hgroups =>
    have hkept : kept ('[' :: (inner ++ [']'])) = '[' :: (inner ++ [']']) := by
      refine kept_eq_self fun c hc ↦ ?_
      obtain rfl | hc := List.mem_cons.mp hc
      · decide
      obtain hc | hc := List.mem_append.mp hc
      · exact not_isSkipped_of_isGroupPart (Address.isGroupPart_of_read128 hgroups hc)
      · obtain rfl := List.mem_singleton.mp hc
        decide
    have hinner : Text.dropSuffix? [']'] (inner ++ [']']) = some inner :=
      Text.dropSuffix?_eq_some_iff.mpr rfl
    refine ⟨.address128 groups, ?_⟩
    rw [hkept, readWebHost, readBracketed, hinner]
    simp only [hgroups]

end Url

namespace Sniff

open Url

/-! ### Addresses -/

/-- A text that names a port: digits, perhaps behind a plus sign. -/
def IsPort (text : List Char) (port : Nat) : Prop :=
  ∃ digits, (text = digits ∨ text = '+' :: digits) ∧ digits ≠ [] ∧
    (∀ c ∈ digits, Decimal.isDigit c = true) ∧ Decimal.value digits = port ∧ port ≤ 65535

/-- The host and the port that an address names. The host is the name in front of the first slash;
if there is none, it is what stands in front of the last colon. -/
inductive Publishes : (address host : List Char) → (port : Nat) → Prop
  | named {host rest digits : List Char} {port : Nat} (hne : host ≠ []) (hslash : '/' ∉ host)
      (hport : IsPort digits port) : Publishes (host ++ '/' :: (rest ++ ':' :: digits)) host port
  | slashed {host digits : List Char} {port : Nat} (hport : IsPort digits port) :
      Publishes ('/' :: (host ++ ':' :: digits)) host port
  | bare {host digits : List Char} {port : Nat} (hslash : '/' ∉ host) (hport : IsPort digits port) :
      Publishes (host ++ ':' :: digits) host port

variable {scheme : String} {text host : List Char} {port : Nat}

theorem readNat?_eq_some_iff : Decimal.readNat? text = some port ↔
    text ≠ [] ∧ (∀ c ∈ text, Decimal.isDigit c = true) ∧ Decimal.value text = port := by
  rw [Decimal.readNat?, Option.ite_none_right_eq_some, List.all_eq_true, Option.some.injEq,
    and_assoc]

/-- A text is read as a port if its digits, behind a plus sign or not, name one. -/
theorem readPort_eq_some_iff : readPort text = some port ↔ IsPort text port := by
  constructor
  · intro h
    unfold readPort at h
    extract_lets digits at h
    split at h
    · rename_i n hread
      split_ifs at h with hbound
      cases h
      obtain ⟨hne, hdigits, hvalue⟩ := readNat?_eq_some_iff.mp hread
      refine ⟨digits, ?_, hne, hdigits, hvalue, hbound⟩
      simp only [digits]
      split
      · exact .inr rfl
      · exact .inl rfl
    · cases h
  · rintro ⟨digits, htext, hne, hdigits, hvalue, hbound⟩
    have hread := readNat?_eq_some_iff.mpr ⟨hne, hdigits, hvalue⟩
    unfold readPort
    extract_lets given
    have hgiven : given = digits := by
      simp only [given]
      obtain rfl | rfl := htext
      · split
        · exact absurd (hdigits '+' List.mem_cons_self) (by decide)
        · rfl
      · rfl
    simp only [hgiven, hread, if_pos hbound]

theorem IsPort.not_mem {c : Char} (h : IsPort text port) (hplus : c ≠ '+')
    (hdigit : Decimal.isDigit c = false) : c ∉ text := by
  obtain ⟨digits, htext, -, hdigits, -⟩ := h
  have hmem : c ∉ digits := fun hc ↦ by
    rw [hdigits c hc] at hdigit
    cases hdigit
  obtain rfl | rfl := htext
  · exact hmem
  · exact List.not_mem_cons_of_ne_of_not_mem hplus hmem

/-- The text of a locator that is made of a host and a port. -/
def placeText (scheme : String) (host : List Char) (port : Nat) : String :=
  String.ofList (scheme.toList ++ "://".toList ++ host ++ ':' :: Decimal.digits port)

theorem IsPort.le (h : IsPort text port) : port ≤ 65535 := by
  obtain ⟨_, -, -, -, -, hle⟩ := h
  exact hle

theorem Publishes.le {address : List Char} (h : Publishes address host port) : port ≤ 65535 := by
  cases h with
  | named _ _ hport => exact hport.le
  | slashed hport => exact hport.le
  | bare _ hport => exact hport.le

section Spelled

variable [Url.Domain.Spelling]

/-- The locator of an address is read from its host and its port. -/
theorem publishUrl?_of_publishes {address : String} (h : Publishes address.toList host port) :
    publishUrl? address scheme = (parse (placeText scheme host port)).toOption := by
  have hcolon {digits : List Char} (hport : IsPort digits port) : ':' ∉ digits :=
    hport.not_mem (by decide) (by decide)
  have hslash {digits : List Char} (hport : IsPort digits port) : '/' ∉ digits :=
    hport.not_mem (by decide) (by decide)
  have hread {digits : List Char} (hport : IsPort digits port) := readPort_eq_some_iff.mpr hport
  unfold publishUrl?
  generalize address.toList = cs at h
  cases h with
  | @named host rest digits port hne hname hport =>
    simp only [Text.splitFirst_append hname, hne, if_false, Option.bind_eq_bind, Option.bind_some,
      Text.splitLast_eq_some_iff.mpr ⟨rfl, hcolon hport⟩, hread hport]
    rfl
  | @slashed host digits port hport =>
    have hsplit : Text.splitFirst '/' ('/' :: (host ++ ':' :: digits)) =
        some ([], host ++ ':' :: digits) := rfl
    simp only [hsplit, if_true, Option.bind_eq_bind, Option.bind_some,
      Text.splitLast_eq_some_iff.mpr ⟨rfl, hcolon hport⟩, hread hport]
    rfl
  | @bare host digits port hname hport =>
    have hnone : Text.splitFirst '/' (host ++ ':' :: digits) = none := by
      rw [Text.splitFirst_eq_none_iff]
      simp [hname, hslash hport]
    simp only [hnone, if_true, Option.bind_eq_bind, Option.bind_some,
      Text.splitLast_eq_some_iff.mpr ⟨rfl, hcolon hport⟩, hread hport]
    rfl

theorem publishUrl?_eq_some_iff {address : String} (h : Publishes address.toList host port)
    {url : Url} : publishUrl? address scheme = some url ↔
      parse (placeText scheme host port) = .ok url := by
  rw [publishUrl?_of_publishes h]
  cases parse (placeText scheme host port) with
  | error flaw => exact ⟨nofun, nofun⟩
  | ok read => exact ⟨fun heq ↦ congrArg _ (Option.some.inj heq), fun heq ↦ heq ▸ rfl⟩

theorem exists_publishes {address : String} {url : Url}
    (h : publishUrl? address scheme = some url) :
    ∃ host port, Publishes address.toList host port := by
  unfold publishUrl? at h
  split at h
  rename_i name rest hplace
  simp only [Option.bind_eq_bind, Option.bind_eq_some_iff] at h
  obtain ⟨⟨front, portText⟩, hlast, port, hport, -⟩ := h
  obtain ⟨hrest, -⟩ := Text.splitLast_eq_some_iff.mp hlast
  have hport := readPort_eq_some_iff.mp hport
  split at hplace
  · rename_i name' rest' hsplit
    cases hplace
    obtain ⟨haddress, hname⟩ := Text.splitFirst_eq_some_iff.mp hsplit
    rw [haddress, hrest]
    cases name with
    | nil => exact ⟨front, port, .slashed hport⟩
    | cons c name => exact ⟨c :: name, port, .named (by simp) hname hport⟩
  · rename_i hsplit
    cases hplace
    rw [Text.splitFirst_eq_none_iff, hrest] at hsplit
    rw [hrest]
    exact ⟨front, port, .bare (fun hmem ↦ hsplit (List.mem_append_left _ hmem)) hport⟩

/-! ### What becomes of an address -/

/-- An address has a locator, which says where a host and a port are. -/
def Reaches (address scheme : String) (host : List Char) (port : Nat) : Prop :=
  ∃ url, publishUrl? address scheme = some url ∧ url.PointsAt scheme host port

section Served

variable {address : String} (hproper : ProperScheme scheme) (hweb : isWebScheme scheme = true)
  (hfile : scheme ≠ "file")

include hproper hweb hfile

/-- Without a mark in the host, a locator points at the host and the port. -/
theorem pointsAt_of_publishes (h : Publishes address.toList host port)
    (hmarks : ∀ c ∈ host, isMark c = false) {url : Url}
    (hurl : publishUrl? address scheme = some url) : url.PointsAt scheme host port := by
  obtain ⟨place, hhost, rfl⟩ := (parse_eq_ok_iff hproper hweb hfile hmarks h.le).mp
    ((publishUrl?_eq_some_iff h).mp hurl)
  exact pointsAt_place hhost

/-- What names a host gets its locator. -/
theorem reaches_of_isHost (h : Publishes address.toList host port) (hhost : IsHost host) :
    Reaches address scheme host port := by
  obtain ⟨place, hplace⟩ := hhost
  have hparse := (parse_eq_ok_iff hproper hweb hfile (fun c ↦ IsHost.not_isMark ⟨place, hplace⟩)
    h.le).mpr ⟨place, hplace, rfl⟩
  exact ⟨_, (publishUrl?_eq_some_iff h).mpr hparse, pointsAt_place hplace⟩

end Served

/-- The locator of an address points at the host and the port of the address exactly if the host has
no mark in it. Each address whose host is one of the web has such a locator, and so have the four
usual shapes: an address of four numbers or of eight groups with a port behind it, alone or behind a
name and a slash. -/
theorem published_host_and_port (hscheme : scheme = "http" ∨ scheme = "https") (address : String) :
    (∀ url, publishUrl? address scheme = some url → ∃ host port,
      Publishes address.toList host port ∧
        (url.PointsAt scheme host port ↔ ∀ c ∈ host, isMark c = false)) ∧
    (∀ host port, Publishes address.toList host port → IsHost host →
      Reaches address scheme host port) ∧
    (∀ ip digits port, IsAddress ip → IsPort digits port →
      (address.toList = ip ++ ':' :: digits → Reaches address scheme ip port) ∧
      ∀ name, IsHost name → address.toList = name ++ '/' :: (ip ++ ':' :: digits) →
        Reaches address scheme name port) := by
  have hserved : ProperScheme scheme ∧ isWebScheme scheme = true ∧ scheme ≠ "file" := by
    obtain rfl | rfl := hscheme
    · have hsplit : splitScheme "http:".toList = some ("http", []) := by decide
      exact ⟨properScheme_of_splitScheme hsplit, by decide, by decide⟩
    · have hsplit : splitScheme "https:".toList = some ("https", []) := by decide
      exact ⟨properScheme_of_splitScheme hsplit, by decide, by decide⟩
  obtain ⟨hproper, hweb, hfile⟩ := hserved
  have hreaches {host : List Char} {port : Nat} (h : Publishes address.toList host port)
      (hhost : IsHost host) : Reaches address scheme host port :=
    reaches_of_isHost hproper hweb hfile h hhost
  have hslash {text : List Char} (h : IsHost text) : '/' ∉ text := fun hmem ↦
    absurd (h.not_isMark hmem) (by decide)
  refine ⟨fun url hurl ↦ ?_, fun host port ↦ hreaches, fun ip digits port hip hport ↦ ⟨?_, ?_⟩⟩
  · obtain ⟨host, port, hpublishes⟩ := exists_publishes hurl
    exact ⟨host, port, hpublishes, fun hpoints c ↦ hpoints.isHost.not_isMark,
      fun hmarks ↦ pointsAt_of_publishes hproper hweb hfile hpublishes hmarks hurl⟩
  · intro haddress
    exact hreaches (haddress ▸ .bare (hslash hip.isHost) hport) hip.isHost
  · intro name hname haddress
    exact hreaches (haddress ▸ .named hname.ne_nil (hslash hname) hport) hname

end Spelled

/-- A name with an address behind it is a host, so its locator has the name and the port. -/
theorem published_host_and_port_of_name : ("https" = "http" ∨ "https" = "https") ∧
    Publishes "search-1.internal/10.0.0.1:9201".toList "search-1.internal".toList 9201 ∧
    IsHost "search-1.internal".toList ∧
    Reaches "search-1.internal/10.0.0.1:9201" "https" "search-1.internal".toList 9201 := by
  have hport : IsPort "9201".toList 9201 := readPort_eq_some_iff.mp (by decide)
  have hpublishes := @Publishes.named "search-1.internal".toList "10.0.0.1".toList "9201".toList
    9201 (by decide) (by decide) hport
  have hhost : IsHost "search-1.internal".toList := ⟨.name "search-1.internal", by decide⟩
  exact ⟨.inr rfl, hpublishes, hhost,
    (published_host_and_port (.inr rfl) _).2.1 _ _ hpublishes hhost⟩

/-- A question mark in the name makes a query of the port, and the default port is meant. -/
theorem question_mark_takes_the_port :
    Publishes "es?1/10.0.0.1:9200".toList "es?1".toList 9200 ∧
    ∃ url, publishUrl? "es?1/10.0.0.1:9200" "http" = some url ∧ url.hostText = "es" ∧
      url.effectivePort? = some 80 ∧ url.query = some "1:9200" ∧
      ∀ host port, ¬ url.PointsAt "http" host port := by
  have hport : IsPort "9200".toList 9200 := readPort_eq_some_iff.mp (by decide)
  refine ⟨@Publishes.named "es?1".toList "10.0.0.1".toList _ _ (by decide) (by decide) hport,
    { scheme := "http", authority := some { host := .name "es" }, path := .segments [""],
      query := some "1:9200" }, by decide, rfl, rfl, rfl, fun host port hpoints ↦ ?_⟩
  cases hpoints.query

end Sniff

end SearchClient

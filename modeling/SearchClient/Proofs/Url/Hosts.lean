import SearchClient.Proofs.Number.Digits
import SearchClient.Proofs.Text.Split
import SearchClient.Proofs.Text.Utf8
import SearchClient.Proofs.Url.Schemes
import Mathlib.Data.Bool.AllAny
import Mathlib.Data.List.TakeWhile

/-!
# Hosts and ports

A host of the web is eight groups in brackets, or a text without any of the characters that end a
host or divide what is around it (`readWebHost_cases`). So a host is found again in front of its
port (`splitPort_of_readWebHost`), and what is written as a host and a port behind a scheme of the
web is read as that host and that port, and is refused if the host is none (`parse_eq_ok_iff`). For
this the host must have none of the marks that stand before a host or behind it: with one of them
the text is no longer a host and a port.
-/

set_option autoImplicit false
set_option relaxedAutoImplicit false

namespace SearchClient.Url

open Text

/-! ### Characters of addresses -/

namespace Address

/-- A character that eight groups may have between brackets. -/
def IsGroupPart (c : Char) : Prop := (Percent.hexValue? c).isSome ∨ c = ':' ∨ c = '.'

variable {cs : List Char} {c : Char}

theorem isSome_of_digits? {base n : Nat} (h : digits? base cs = some n) (hc : c ∈ cs) :
    (Percent.hexValue? c).isSome := by
  unfold digits? at h
  generalize (0 : Nat) = start at h
  induction cs generalizing start with
  | nil => cases hc
  | cons d cs ih =>
    rw [List.foldlM_cons] at h
    obtain ⟨next, hstep, hrest⟩ := Option.bind_eq_some_iff.mp h
    obtain ⟨digit, hdigit, -⟩ := Option.bind_eq_some_iff.mp hstep
    obtain rfl | hc := List.mem_cons.mp hc
    · rw [hdigit]
      rfl
    · exact ih hc next hrest

theorem isSome_of_readGroup {n : Nat} (h : readGroup cs = some n) (hc : c ∈ cs) :
    (Percent.hexValue? c).isSome := by
  unfold readGroup at h
  split_ifs at h
  exact isSome_of_digits? h hc

theorem isSome_of_readOctet {n : Nat} (h : readOctet cs = some n) (hc : c ∈ cs) :
    (Percent.hexValue? c).isSome := by
  unfold readOctet at h
  split_ifs at h
  obtain ⟨m, hdigits, -⟩ := Option.bind_eq_some_iff.mp h
  exact isSome_of_digits? hdigits hc

/-- Pieces are read together only if each of them is read. -/
theorem exists_of_mapM {read : List Char → Option Nat} {pieces : List (List Char)}
    {numbers : List Nat} (h : pieces.mapM read = some numbers) {piece : List Char}
    (hpiece : piece ∈ pieces) : ∃ n, read piece = some n := by
  induction pieces generalizing numbers with
  | nil => cases hpiece
  | cons first pieces ih =>
    rw [List.mapM_cons] at h
    obtain ⟨n, hn, h⟩ := Option.bind_eq_some_iff.mp h
    obtain ⟨others, hothers, -⟩ := Option.bind_eq_some_iff.mp h
    obtain rfl | hpiece := List.mem_cons.mp hpiece
    · exact ⟨n, hn⟩
    · exact ih hothers hpiece

theorem isGroupPart_of_readGroups {mayEnd : Bool} {pieces : List (List Char)} {groups : List Nat}
    (h : readGroups mayEnd pieces = some groups) {piece : List Char} (hpiece : piece ∈ pieces)
    (hc : c ∈ piece) : IsGroupPart c := by
  fun_induction readGroups mayEnd pieces generalizing groups with
  | case1 => cases hpiece
  | case2 last hdots =>
    -- Four numbers with dots between them.
    obtain rfl := List.mem_singleton.mp hpiece
    obtain ⟨numbers, hnumbers, -⟩ := Option.bind_eq_some_iff.mp h
    obtain rfl | ⟨octet, hoctet, hc⟩ := mem_split '.' hc
    · exact .inr (.inr rfl)
    · obtain ⟨n, hn⟩ := exists_of_mapM hnumbers hoctet
      exact .inl (isSome_of_readOctet hn hc)
  | case3 last hplain =>
    obtain rfl := List.mem_singleton.mp hpiece
    obtain ⟨n, hgroup, -⟩ := Option.map_eq_some_iff.mp h
    exact .inl (isSome_of_readGroup hgroup hc)
  | case4 group groups hmore ih =>
    obtain ⟨n, hgroup, h⟩ := Option.bind_eq_some_iff.mp h
    obtain ⟨others, hothers, -⟩ := Option.bind_eq_some_iff.mp h
    obtain rfl | hpiece := List.mem_cons.mp hpiece
    · exact .inl (isSome_of_readGroup hgroup hc)
    · exact ih hothers hpiece

theorem eq_of_splitGap {before after : List Char} (h : splitGap cs = some (before, after)) :
    cs = before ++ ':' :: ':' :: after := by
  fun_induction splitGap cs generalizing before with
  | case1 rest =>
    cases h
    rfl
  | case2 d rest hgap ih =>
    obtain ⟨⟨front, back⟩, hrest, heq⟩ := Option.map_eq_some_iff.mp h
    cases heq
    rw [ih hrest, List.cons_append]
  | case3 => cases h

theorem isGroupPart_of_split {mayEnd : Bool} {groups : List Nat}
    (h : readGroups mayEnd (split ':' cs) = some groups) (hc : c ∈ cs) : IsGroupPart c := by
  obtain rfl | ⟨piece, hpiece, hc⟩ := mem_split ':' hc
  · exact .inr (.inl rfl)
  · exact isGroupPart_of_readGroups h hpiece hc

theorem isGroupPart_of_readSide {mayEnd : Bool} {groups : List Nat}
    (h : readSide mayEnd cs = some groups) (hc : c ∈ cs) : IsGroupPart c := by
  unfold readSide at h
  split_ifs at h with hempty
  · rw [hempty] at hc
    cases hc
  · exact isGroupPart_of_split h hc

/-- Eight groups are digits, colons and dots. -/
theorem isGroupPart_of_read128 {groups : List Nat} (h : read128 cs = some groups) (hc : c ∈ cs) :
    IsGroupPart c := by
  unfold read128 at h
  split at h
  · obtain ⟨read, hread, -⟩ := Option.bind_eq_some_iff.mp h
    exact isGroupPart_of_split hread hc
  · rename_i before after hgap
    obtain ⟨front, hfront, h⟩ := Option.bind_eq_some_iff.mp h
    obtain ⟨back, hback, -⟩ := Option.bind_eq_some_iff.mp h
    rw [eq_of_splitGap hgap] at hc
    obtain hc | hc := List.mem_append.mp hc
    · exact isGroupPart_of_readSide hfront hc
    obtain hcolon | hc := List.mem_cons.mp hc
    · exact .inr (.inl hcolon)
    obtain hcolon | hc := List.mem_cons.mp hc
    · exact .inr (.inl hcolon)
    · exact isGroupPart_of_readSide hback hc

end Address

/-! ### Characters of names -/

open Domain (Spelling delimiters)

/-- What a delimiter is to those who read bytes. -/
structure Delimits (c : Char) : Prop where
  ascii : c.toNat < 128
  percent : c ≠ '%'
  digit : Percent.hexValue? c = none

theorem delimits_of_mem {c : Char} (h : c ∈ delimiters) : Delimits c := by
  have hall : ∀ c ∈ delimiters, c.toNat < 128 ∧ c ≠ '%' ∧ Percent.hexValue? c = none :=
    List.all_iff_forall_prop.mp (by decide)
  obtain ⟨hascii, hpercent, hdigit⟩ := hall c h
  exact ⟨hascii, hpercent, hdigit⟩

variable {cs : List Char} {c : Char}

/-- A delimiter in a text is there too when the text is read as bytes and these as a text. -/
theorem mem_lossy_decode (h : c ∈ delimiters) (hc : c ∈ cs) :
    c ∈ (Utf8.lossy (Percent.decode cs)).toList := by
  have hdelimits := delimits_of_mem h
  have hascii := hdelimits.ascii
  have hbyte := Percent.mem_decode hascii hdelimits.percent hdelimits.digit hc
  have hnumber : (UInt8.ofNat c.toNat).toNat = c.toNat :=
    UInt8.toNat_ofNat_of_lt (Nat.lt_trans hascii (by decide))
  have hread := Utf8.mem_lossy (by rw [UInt8.lt_iff_toNat_lt, hnumber]; exact hascii) hbyte
  rwa [hnumber, Char.ofNat_toNat] at hread

/-! ### Hosts of the web -/

/-- A host of the web is eight groups in brackets, or has no delimiter in it. -/
theorem readWebHost_cases [Spelling] {host : Host} (h : readWebHost cs = .ok host) :
    (∃ inner groups, cs = '[' :: (inner ++ [']']) ∧ Address.read128 inner = some groups) ∨
      ∀ c ∈ delimiters, c ∉ cs := by
  unfold readWebHost at h
  split at h
  · rename_i inner
    unfold readBracketed at h
    split at h
    · cases h
    · rename_i groupsText hsuffix
      split at h
      · rename_i groups hgroups
        rw [dropSuffix?_eq_some_iff] at hsuffix
        exact .inl ⟨groupsText, groups, by rw [hsuffix], hgroups⟩
      · cases h
  · refine .inr fun c hc hmem ↦ ?_
    rw [Spelling.toAscii_of_mem hc (mem_lossy_decode hc hmem)] at h
    cases h

/-- The characters that end a host or what is in front of it. -/
def isMark (c : Char) : Bool := ['/', '\\', '?', '#', '@'].contains c

theorem isMark_eq_false (h : c ∉ delimiters) : isMark c = false := by
  rw [Bool.eq_false_iff]
  exact fun hmark ↦ h (List.mem_append_left [':', '[', ']'] (List.contains_iff_mem.mp hmark))

theorem isMark_of_mem {marks : List Char} (hmarks : ∀ d ∈ marks, isMark d = true)
    (h : marks.contains c = true) : isMark c = true :=
  hmarks c (List.contains_iff_mem.mp h)

theorem not_isMark_of_readWebHost [Spelling] {host : Host} (h : readWebHost cs = .ok host)
    (hc : c ∈ cs) : isMark c = false := by
  rw [Bool.eq_false_iff]
  intro hmark
  have hmem : c ∈ ['/', '\\', '?', '#', '@'] := List.contains_iff_mem.mp hmark
  obtain ⟨inner, groups, rfl, hgroups⟩ | hnone := readWebHost_cases h
  · have hall : ∀ c ∈ ['/', '\\', '?', '#', '@'],
        ¬ ((Percent.hexValue? c).isSome ∨ c = ':' ∨ c = '.') ∧ c ≠ '[' ∧ c ≠ ']' :=
      List.all_iff_forall_prop.mp (by decide)
    obtain ⟨hpart, hopen, hclose⟩ := hall c hmem
    obtain hc | hc := List.mem_cons.mp hc
    · exact hopen hc
    obtain hc | hc := List.mem_append.mp hc
    · exact hpart (Address.isGroupPart_of_read128 hgroups hc)
    · exact hclose (List.mem_singleton.mp hc)
  · exact hnone c (List.mem_append_left [':', '[', ']'] hmem) hc

/-! ### Addresses of four numbers -/

/-- What holds of the ten digits holds of every digit. -/
theorem forall_of_isDigit {P : Char → Prop}
    (h : ∀ n < 58, Decimal.isDigit (Char.ofNat n) = true → P (Char.ofNat n)) {c : Char}
    (hc : Decimal.isDigit c = true) : P c := by
  have hbelow : c.toNat < 58 := by
    have hnine := (Bool.and_eq_true_iff.mp hc).2
    exact Nat.lt_succ_of_le (UInt32.le_iff_toNat_le.mp (of_decide_eq_true hnine))
  exact forall_of_ofNat (P := fun c ↦ Decimal.isDigit c = true → P c) h hbelow hc

/-- Where no percent sign stands, a text is read as it is. -/
theorem lossy_decode {cs : List Char} (h : '%' ∉ cs) :
    (Utf8.lossy (Percent.decode cs)).toList = cs := by
  have hdecode : Percent.decode cs = Utf8.encode (String.ofList cs) := by
    rw [Utf8.encode_ofList]
    induction cs with
    | nil => rfl
    | cons c cs ih =>
      rw [List.mem_cons, not_or] at h
      rw [Percent.decode_cons_of_ne (Ne.symm h.1), ih h.2, List.flatMap_cons]
  rw [hdecode, Utf8.lossy_encode, String.toList_ofList]

namespace Address

/-- The four numbers of an address. -/
def octets (address : Nat) : List Nat :=
  [address / 16777216 % 256, address / 65536 % 256, address / 256 % 256, address % 256]

theorem readPart_digits : ∀ n < 256, readPart (Decimal.digits n) = some n := by
  decide +kernel

theorem split_write32 (address : Nat) :
    split '.' (write32 address) = (octets address).map Decimal.digits := by
  have hpieces : [16777216, 65536, 256, 1].map (fun weight ↦
      Decimal.digits (address / weight % 256)) = (octets address).map Decimal.digits := by
    simp [octets]
  rw [write32, hpieces]
  refine split_join (by simp [octets]) fun piece hpiece hdot ↦ ?_
  obtain ⟨n, -, rfl⟩ := List.mem_map.mp hpiece
  exact absurd (Decimal.isDigit_of_mem_digits hdot) (by decide)

theorem read32_write32 {address : Nat} (h : address < 4294967296) :
    read32 (write32 address) = some address := by
  unfold read32
  simp only [split_write32, octets, List.map_cons, List.map_nil]
  have hread (n : Nat) : readPart (Decimal.digits (n % 256)) = some (n % 256) :=
    readPart_digits _ (Nat.mod_lt _ (by decide))
  have hsmall (n : Nat) : ¬ 255 < n % 256 := by omega
  simp [hread, hsmall, Decimal.digits_ne_nil, twoTo]
  omega

theorem looksNumeric_write32 (address : Nat) : looksNumeric (write32 address) = true := by
  have hlast : Decimal.digits (address % 256) ≠ [] := Decimal.digits_ne_nil _
  have hdigits : (Decimal.digits (address % 256)).all Decimal.isDigit = true :=
    List.all_eq_true.mpr fun _ hc ↦ Decimal.isDigit_of_mem_digits hc
  unfold looksNumeric
  rw [split_write32]
  simp [octets, hlast, hdigits]

/-- An address of four numbers is digits and dots. -/
theorem isDigit_of_mem_write32 {address : Nat} {c : Char} (h : c ∈ write32 address) :
    c = '.' ∨ Decimal.isDigit c = true := by
  refine (mem_split '.' h).imp_right ?_
  rintro ⟨piece, hpiece, hc⟩
  rw [split_write32] at hpiece
  obtain ⟨n, -, rfl⟩ := List.mem_map.mp hpiece
  exact Decimal.isDigit_of_mem_digits hc

/-- An address of four numbers is spelled as it is written. -/
theorem isPlain_write32 (address : Nat) : Domain.IsPlain (write32 address) := by
  have hchars (c : Char) (hc : c ∈ write32 address) :
      c.toNat < 128 ∧ c.toLower = c ∧ Domain.forbidden c = false := by
    obtain rfl | hdigit := isDigit_of_mem_write32 hc
    · decide
    · exact forall_of_isDigit (P := fun c ↦ c.toNat < 128 ∧ c.toLower = c ∧
        Domain.forbidden c = false) (by decide) hdigit
  refine ⟨fun c hc ↦ (hchars c hc).1, fun c hc ↦ (hchars c hc).2.1, fun c hc ↦ (hchars c hc).2.2,
    fun label hlabel hmarked ↦ ?_⟩
  rw [split_write32] at hlabel
  obtain ⟨n, -, rfl⟩ := List.mem_map.mp hlabel
  have hletter : 'x' ∈ Decimal.digits n := hmarked.subset List.mem_cons_self
  exact absurd (Decimal.isDigit_of_mem_digits hletter) (by decide)

end Address

theorem readWebHost_nil [Spelling] : readWebHost [] = .error .noHost := by
  have hname : Spelling.toAscii (Utf8.lossy (Percent.decode [])).toList = some [] :=
    Spelling.toAscii_eq_self Domain.isPlain_nil
  simp only [readWebHost, hname]

/-- An address of four numbers is a host. -/
theorem readWebHost_write32 [Spelling] {address : Nat} (h : address < 4294967296) :
    readWebHost (Address.write32 address) = .ok (.address32 address) := by
  have hchars (c : Char) (hc : c ∈ Address.write32 address) : c ≠ '%' ∧ c ≠ '[' := by
    obtain rfl | hdigit := Address.isDigit_of_mem_write32 hc
    · decide
    · exact forall_of_isDigit (P := fun c ↦ c ≠ '%' ∧ c ≠ '[') (by decide) hdigit
  have hdecode := lossy_decode fun hmem ↦ (hchars '%' hmem).1 rfl
  have hascii := Spelling.toAscii_eq_self (Address.isPlain_write32 address)
  have hlooks := Address.looksNumeric_write32 address
  have hread := Address.read32_write32 h
  unfold readWebHost
  split
  · rename_i inner heq
    exact absurd rfl (hchars '[' (heq ▸ List.mem_cons_self)).2
  · rw [hdecode, hascii]
    cases haddress : Address.write32 address with
    | nil =>
      rw [haddress] at hlooks
      cases hlooks
    | cons c rest =>
      rw [haddress] at hlooks hread
      simp only [hlooks, hread, if_true]

/-! ### Host and port -/

/-- A text is cut at a colon, or not at all. -/
theorem eq_of_splitPort (inside : Bool) (cs : List Char) :
    cs = (splitPort inside cs).1 ++ (splitPort inside cs).2.elim [] (':' :: ·) := by
  induction cs generalizing inside with
  | nil => rfl
  | cons c cs ih =>
    rw [splitPort]
    by_cases hcolon : c = ':' ∧ ¬ inside
    · rw [if_pos hcolon, hcolon.1]
      rfl
    · rw [if_neg hcolon]
      exact congrArg (c :: ·) (ih _)

theorem splitPort_outside {front : List Char} (hcolon : ':' ∉ front) (hopen : '[' ∉ front)
    (port : List Char) : splitPort false (front ++ ':' :: port) = (front, some port) := by
  induction front with
  | nil => rfl
  | cons c front ih =>
    rw [List.mem_cons, not_or] at hcolon hopen
    rw [List.cons_append, splitPort, if_neg (fun h ↦ hcolon.1 h.1.symm)]
    simp only [Ne.symm hopen.1, if_false, ite_self, ih hcolon.2 hopen.2]

/-- A colon in brackets is none that a port follows. -/
theorem splitPort_inside {inner : List Char} (hclose : ']' ∉ inner) (port : List Char) :
    splitPort true (inner ++ ']' :: ':' :: port) = (inner ++ [']'], some port) := by
  induction inner with
  | nil => rfl
  | cons c inner ih =>
    rw [List.mem_cons, not_or] at hclose
    rw [List.cons_append, splitPort, if_neg (by simp)]
    simp only [Ne.symm hclose.1, if_false, ite_self, ih hclose.2, List.cons_append]

/-- A host of the web is found again in front of a port. -/
theorem splitPort_of_readWebHost [Spelling] {host : Host} (h : readWebHost cs = .ok host)
    (port : List Char) : splitPort false (cs ++ ':' :: port) = (cs, some port) := by
  obtain ⟨inner, groups, rfl, hgroups⟩ | hnone := readWebHost_cases h
  · have hclose : ']' ∉ inner := fun hmem ↦ by
      have hpart := Address.isGroupPart_of_read128 hgroups hmem
      revert hpart
      unfold Address.IsGroupPart
      decide
    rw [List.cons_append, splitPort, if_neg (by decide)]
    simp only [if_true, List.append_assoc, List.singleton_append, splitPort_inside hclose]
  · exact splitPort_outside (hnone ':' (by decide)) (hnone '[' (by decide)) port

theorem readPort_digits (scheme : String) {n : Nat} (hn : n ≤ 65535) :
    readPort scheme (Decimal.digits n) =
      .ok (if defaultPort? scheme = some n then none else some n) := by
  rw [readPort, if_neg (Decimal.digits_ne_nil n)]
  simp only [Decimal.readNat?_digits, if_neg (Nat.not_lt.mpr hn)]

theorem isDigit_of_readPort {scheme : String} {port : Option Nat}
    (h : readPort scheme cs = .ok port) (hc : c ∈ cs) : Decimal.isDigit c = true := by
  unfold readPort at h
  split_ifs at h with hempty
  · rw [hempty] at hc
    cases hc
  · split at h
    · cases h
    · rename_i n hread
      unfold Decimal.readNat? at hread
      split_ifs at hread with hdigits
      exact List.all_eq_true.mp hdigits.2 c hc

/-- What digits are to those who read a locator. -/
theorem plain_of_isDigit (h : Decimal.isDigit c = true) :
    isEdge c = false ∧ isSkipped c = false ∧ c ∉ delimiters :=
  forall_of_isDigit (P := fun c ↦ isEdge c = false ∧ isSkipped c = false ∧ c ∉ delimiters)
    (by decide) h

variable {scheme : String} {n : Nat}

/-- A text that ends in a colon and digits is read as a host and a port only if the host is in front
of this colon. -/
theorem splitPort_of_ok [Spelling] {hostText : List Char} {port : Option (List Char)}
    (hsplit : splitPort false (cs ++ ':' :: Decimal.digits n) = (hostText, port)) {host : Host}
    (hhost : readWebHost hostText = .ok host) {read : Option Nat}
    (hport : readPort scheme (port.getD []) = .ok read) :
    hostText = cs ∧ port = some (Decimal.digits n) := by
  have hdigits (c : Char) (hc : c ∈ Decimal.digits n) : c ∉ delimiters :=
    (plain_of_isDigit (Decimal.isDigit_of_mem_digits hc)).2.2
  have heq := eq_of_splitPort false (cs ++ ':' :: Decimal.digits n)
  rw [hsplit] at heq
  cases port with
  | none =>
    -- Then the host has the colon in it, and no bracket at its end.
    simp only [Option.elim_none, List.append_nil] at heq
    obtain ⟨inner, groups, hbracketed, -⟩ | hnone := readWebHost_cases hhost
    · have hlast : ']' ∈ Decimal.digits n := by
        have hends := congrArg List.getLast? (heq.trans hbracketed)
        rw [← List.cons_append, List.getLast?_concat, List.getLast?_append_cons,
          List.getLast?_cons_of_ne_nil (Decimal.digits_ne_nil n)] at hends
        exact List.mem_of_getLast? hends
      exact absurd (by decide) (hdigits ']' hlast)
    · exact absurd (heq ▸ by simp) (hnone ':' (by decide))
  | some text =>
    simp only [Option.elim_some] at heq
    have htext : ':' ∉ text := fun hmem ↦
      (plain_of_isDigit (isDigit_of_readPort hport hmem)).2.2 (by decide)
    have hcolon : ':' ∉ Decimal.digits n := fun hmem ↦ hdigits ':' hmem (by decide)
    have hfirst := splitLast_eq_some_iff.mpr ⟨heq, htext⟩
    rw [splitLast_eq_some_iff.mpr ⟨rfl, hcolon⟩] at hfirst
    cases hfirst
    exact ⟨rfl, rfl⟩

/-! ### Locators of a host and a port -/

/-- The locator of a host and a port, with nothing else to it. -/
def place (scheme : String) (host : Host) (port : Nat) : Url where
  scheme := scheme
  authority := some
    { host := host, port := if defaultPort? scheme = some port then none else some port }
  path := .segments [""]

theorem readAuthority_eq_ok_iff [Spelling] (hweb : isWebScheme scheme = true) (huser : '@' ∉ cs)
    (hn : n ≤ 65535) {a : Authority} :
    readAuthority scheme (cs ++ ':' :: Decimal.digits n) = .ok a ↔
      ∃ host, readWebHost cs = .ok host ∧ (place scheme host n).authority = some a := by
  have hdigits : '@' ∉ Decimal.digits n := fun hmem ↦
    (plain_of_isDigit (Decimal.isDigit_of_mem_digits hmem)).2.2 (by decide)
  have hnouser : splitLast '@' (cs ++ ':' :: Decimal.digits n) = none := by
    rw [splitLast_eq_none_iff]
    simp [huser, hdigits]
  unfold readAuthority
  simp only [hnouser, hweb]
  constructor
  · intro h
    split_ifs at h with hempty
    · cases h
    · obtain ⟨host, hhost, h⟩ := bind_eq_ok.mp h
      obtain ⟨port, hport, h⟩ := bind_eq_ok.mp h
      cases h
      obtain ⟨hhostText, hportText⟩ := splitPort_of_ok rfl hhost hport
      rw [hhostText] at hhost
      rw [hportText, Option.getD_some, readPort_digits scheme hn] at hport
      cases hport
      exact ⟨host, hhost, rfl⟩
  · rintro ⟨host, hhost, ha⟩
    have hne : cs ≠ [] := by
      rintro rfl
      rw [readWebHost_nil] at hhost
      cases hhost
    rw [splitPort_of_readWebHost hhost]
    simp only [hne, decide_false, Bool.false_and, Bool.false_eq_true, if_false, if_true, hhost,
      Option.getD_some, readPort_digits scheme hn]
    cases ha
    rfl

/-- Behind the slashes, a host without marks and a port are all there is. -/
theorem readHierarchical_eq_ok_iff [Spelling] (hweb : isWebScheme scheme = true)
    (hmarks : ∀ c ∈ cs, isMark c = false) (hn : n ≤ 65535) {url : Url} :
    readHierarchical scheme (cs ++ ':' :: Decimal.digits n) = .ok url ↔
      ∃ host, readWebHost cs = .ok host ∧ place scheme host n = url := by
  have hstops : ∀ c ∈ cs ++ ':' :: Decimal.digits n,
      (!(['/', '?', '#', '\\'].contains c)) = true := by
    intro c hc
    have hmark : isMark c = false := by
      obtain hc | hc := List.mem_append.mp hc
      · exact hmarks c hc
      obtain rfl | hc := List.mem_cons.mp hc
      · decide
      · exact isMark_eq_false (plain_of_isDigit (Decimal.isDigit_of_mem_digits hc)).2.2
    rw [Bool.not_eq_true', Bool.eq_false_iff]
    have hall : ∀ c ∈ ['/', '?', '#', '\\'], isMark c = true :=
      List.all_iff_forall_prop.mp (by decide)
    exact fun hstop ↦ absurd (isMark_of_mem hall hstop) (by simp [hmark])
  have huser : '@' ∉ cs := fun hmem ↦ absurd (hmarks '@' hmem) (by decide)
  have hbreak : breakAt ['/', '?', '#', '\\'] (cs ++ ':' :: Decimal.digits n) =
      (cs ++ ':' :: Decimal.digits n, []) :=
    Prod.ext (List.takeWhile_eq_self_iff.mpr hstops) (List.dropWhile_eq_nil_iff.mpr hstops)
  unfold readHierarchical
  simp only [hweb, if_true, hbreak]
  rw [bind_eq_ok]
  constructor
  · rintro ⟨a, ha, h⟩
    obtain ⟨host, hhost, hplace⟩ := (readAuthority_eq_ok_iff hweb huser hn).mp ha
    cases hplace
    cases h
    exact ⟨host, hhost, rfl⟩
  · rintro ⟨host, hhost, rfl⟩
    exact ⟨_, (readAuthority_eq_ok_iff hweb huser hn).mpr ⟨host, hhost, rfl⟩, rfl⟩

/-- A text that neither begins nor ends with a blank is not trimmed. -/
theorem trimmed_eq_self {c d : Char} (hc : isEdge c = false) (hd : isEdge d = false)
    (middle : List Char) :
    ((((c :: (middle ++ [d])).dropWhile isEdge).reverse.dropWhile isEdge).reverse) =
      c :: (middle ++ [d]) := by
  rw [List.dropWhile_cons_of_neg (by simp [hc]), ← List.cons_append, List.reverse_concat,
    List.dropWhile_cons_of_neg (by simp [hd]), List.reverse_cons, List.reverse_reverse]

/-- A text as it is read: tabs and line breaks do not count. -/
def kept (cs : List Char) : List Char := cs.filter (!isSkipped ·)

/-- A scheme of the web, two slashes, a host and a port. -/
theorem parse_place [Spelling] (hproper : ProperScheme scheme) (hweb : isWebScheme scheme = true)
    (hfile : scheme ≠ "file") (cs : List Char) (n : Nat) :
    parse (String.ofList (scheme.toList ++ "://".toList ++ cs ++ ':' :: Decimal.digits n)) =
      readHierarchical scheme
        ((kept cs ++ ':' :: Decimal.digits n).dropWhile fun c ↦ c == '/' || c == '\\') := by
  have hdigit (c : Char) (hc : c ∈ Decimal.digits n) :=
    plain_of_isDigit (Decimal.isDigit_of_mem_digits hc)
  have hfilter : scheme.toList.filter (!isSkipped ·) = scheme.toList := by
    obtain ⟨c, rest, hscheme, -, hparts⟩ := hproper
    rw [List.filter_eq_self, hscheme]
    exact fun d hd ↦ by rw [(hparts d hd).kept, Bool.not_false]
  have hfilterDigits : (Decimal.digits n).filter (!isSkipped ·) = Decimal.digits n := by
    rw [List.filter_eq_self]
    exact fun d hd ↦ by rw [(hdigit d hd).2.1, Bool.not_false]
  have htrimmed : (((((scheme.toList ++ "://".toList ++ cs ++ ':' :: Decimal.digits n).dropWhile
      isEdge).reverse).dropWhile isEdge).reverse) =
        scheme.toList ++ "://".toList ++ cs ++ ':' :: Decimal.digits n := by
    obtain ⟨c, rest, hscheme, -, hparts⟩ := hproper
    have hlast := List.dropLast_concat_getLast (Decimal.digits_ne_nil n)
    have hedges := trimmed_eq_self (hparts c List.mem_cons_self).inner
      (hdigit _ (List.getLast_mem (Decimal.digits_ne_nil n))).1
      (rest ++ "://".toList ++ cs ++ ':' :: (Decimal.digits n).dropLast)
    simpa only [hscheme, List.cons_append, List.append_assoc, hlast] using hedges
  have hkept : (scheme.toList ++ "://".toList ++ cs ++ ':' :: Decimal.digits n).filter
      (!isSkipped ·) = scheme.toList ++ ':' :: '/' :: '/' ::
        (kept cs ++ ':' :: Decimal.digits n) := by
    simp only [List.filter_append, hfilter, List.append_assoc]
    refine congrArg (fun back ↦ scheme.toList ++ ':' :: '/' :: '/' :: (kept cs ++ back)) ?_
    rw [List.filter_cons_of_pos (by decide), hfilterDigits]
  unfold parse
  simp only [String.toList_ofList, htrimmed, hkept, splitScheme_of_properScheme hproper]
  rw [if_pos hweb]
  rfl

/-- A host without marks and a port behind a scheme of the web are read as what they are. -/
theorem parse_eq_ok_iff [Spelling] (hproper : ProperScheme scheme)
    (hweb : isWebScheme scheme = true) (hfile : scheme ≠ "file")
    (hmarks : ∀ c ∈ cs, isMark c = false) (hn : n ≤ 65535) {url : Url} :
    parse (String.ofList (scheme.toList ++ "://".toList ++ cs ++ ':' :: Decimal.digits n)) =
        .ok url ↔
      ∃ host, readWebHost (kept cs) = .ok host ∧ place scheme host n = url := by
  have hkept : ∀ c ∈ kept cs, isMark c = false := fun c hc ↦ hmarks c (List.mem_filter.mp hc).1
  have hslashes : (kept cs ++ ':' :: Decimal.digits n).dropWhile (fun c ↦ c == '/' || c == '\\') =
      kept cs ++ ':' :: Decimal.digits n := by
    cases hcs : kept cs with
    | nil => rfl
    | cons c rest =>
      have hmark := hkept c (hcs ▸ List.mem_cons_self)
      refine List.dropWhile_cons_of_neg fun hslash ↦ ?_
      obtain hc | hc := Bool.or_eq_true_iff.mp hslash <;> rw [eq_of_beq hc] at hmark <;>
        exact absurd hmark (by decide)
  rw [parse_place hproper hweb hfile, hslashes, readHierarchical_eq_ok_iff hweb hkept hn]

end SearchClient.Url

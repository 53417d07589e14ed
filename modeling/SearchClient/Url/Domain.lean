import SearchClient.Text.Split

/-!
# Names of hosts

A name is spelled in ASCII before anything is made of it. How letters beyond ASCII are spelled, and
which names with such letters are refused, is settled by tables of Unicode (UTS 46) that are no part
of this library. So the spelling is an input: a `Spelling` is any function that refuses a name with
a delimiter in it and leaves a plain name as it is (`IsPlain`), as the standard does. Whatever reads
a locator takes a spelling, and what is stated of it holds for each of them.

`byPunycode` is the spelling that a client uses if it is given no other. It brings a name to lower
case and writes a label with letters beyond ASCII in ASCII: the letters of ASCII first, then, after
a hyphen, digits that say where the others belong (Punycode). It knows capital letters of the Latin,
Greek and Cyrillic scripts and the ideographic full stop, and leaves out the rest of the standard:
all other mappings, the characters that count for nothing, letters put together with their marks
(NFC), and the checks of labels, those that begin with `xn--` among them. On names of ASCII without
such labels it is the standard's.
-/

set_option autoImplicit false
set_option relaxedAutoImplicit false

namespace SearchClient.Url.Domain

/-- The characters that no name can hold. -/
def forbidden (c : Char) : Bool :=
  c.toNat ≤ 32 || c.toNat == 127 || "%#/:<>?@[\\]^|".toList.contains c

/-- The characters that stand in no name and have a meaning of their own around a host. -/
def delimiters : List Char := ['/', '\\', '?', '#', '@', ':', '[', ']']

/-! ### Spellings -/

/-- A name about which nothing is to be done: it has no capital letter, no letter beyond ASCII, and
no label that is marked as spelled. -/
structure IsPlain (name : List Char) : Prop where
  ascii : ∀ c ∈ name, c.toNat < 128
  small : ∀ c ∈ name, c.toLower = c
  allowed : ∀ c ∈ name, forbidden c = false
  unmarked : ∀ label ∈ Text.split '.' name, ¬ "xn--".toList <+: label

theorem isPlain_nil : IsPlain [] := ⟨nofun, nofun, nofun, by decide⟩

/-- A way to spell names in ASCII. It refuses a name that has no spelling. -/
class Spelling where
  toAscii : List Char → Option (List Char)
  toAscii_of_mem : ∀ {c : Char} {name : List Char}, c ∈ delimiters → c ∈ name → toAscii name = none
  toAscii_eq_self : ∀ {name : List Char}, IsPlain name → toAscii name = some name

/-! ### Small letters -/

/-- The small letter of a letter of the Latin, Greek and Cyrillic scripts; other characters stay. -/
def lower (c : Char) : Char :=
  let n := c.toNat
  if n < 128 then c.toLower
  else if (0xC0 ≤ n && n ≤ 0xDE && n != 0xD7) || (0x391 ≤ n && n ≤ 0x3A9) ||
      (0x410 ≤ n && n ≤ 0x42F) then Char.ofNat (n + 32)
  else if 0x400 ≤ n && n ≤ 0x40F then Char.ofNat (n + 80)
  else if 0x100 ≤ n && n ≤ 0x137 && n % 2 == 0 && n != 0x130 then Char.ofNat (n + 1)
  else c

/-! ### Punycode -/

/-- The digit of a number below thirty-six: letters, then figures. -/
def digit (n : Nat) : Char :=
  Char.ofNat (if n < 26 then 'a'.toNat + n else '0'.toNat + (n - 26))

/-- Thirty-five halvings bring any step within reach of one digit; each counts a place. -/
def adaptFrom (delta places : Nat) : (fuel : Nat) → Nat
  | 0 => places + 36 * delta / (delta + 38)
  | fuel + 1 =>
    if 455 < delta then adaptFrom (delta / 35) (places + 36) fuel
    else places + 36 * delta / (delta + 38)

/-- The next bias after a step. -/
def adapt (delta points : Nat) (first : Bool) : Nat :=
  let delta := if first then delta / 700 else delta / 2
  adaptFrom (delta + delta / points) 0 (delta + 1)

/-- A step in digits of growing weight, the last one below its threshold. -/
def stepDigits (q k bias : Nat) : (fuel : Nat) → List Char
  | 0 => []
  | fuel + 1 =>
    let t := if k ≤ bias then 1 else if bias + 26 ≤ k then 26 else k - bias
    if q < t then [digit q]
    else digit (t + (q - t) % (36 - t)) :: stepDigits ((q - t) / (36 - t)) (k + 36) bias fuel

/-- How far the writing of a label has come. -/
structure Progress where
  delta : Nat := 0
  bias : Nat := 72
  handled : Nat
  first : Bool := true
  out : List Char := []

/-- One character of the label is passed while all occurrences of a code point are written. -/
def pass (n : Nat) (p : Progress) (c : Char) : Progress :=
  if c.toNat < n then { p with delta := p.delta + 1 }
  else if c.toNat = n then
    { delta := 0
      bias := adapt p.delta (p.handled + 1) p.first
      handled := p.handled + 1
      first := false
      out := p.out ++ stepDigits p.delta 36 p.bias (p.delta + 2) }
  else p

/-- The code points beyond ASCII in rising order, each written at all its places. -/
def writePoints (label : List Char) (first : Nat) (p : Progress) : List Nat → Progress
  | [] => p
  | n :: points =>
    let p := { p with delta := p.delta + (n - first) * (p.handled + 1) }
    let p := label.foldl (pass n) p
    writePoints label (n + 1) { p with delta := p.delta + 1 } points

/-- A label as digits. -/
def punycode (label : List Char) : List Char :=
  let basic := label.filter (·.toNat < 128)
  let points := (label.filter (128 ≤ ·.toNat)).map Char.toNat
  let sorted := (points.mergeSort (· ≤ ·)).eraseDups
  let start := if basic = [] then [] else basic ++ ['-']
  (writePoints label 128 { handled := basic.length, out := start } sorted).out

/-- A label in ASCII. -/
def labelToAscii (label : List Char) : List Char :=
  if label.all (·.toNat < 128) then label else "xn--".toList ++ punycode label

/-! ### The spelling by Punycode -/

/-- A name in small letters, with the full stops of ASCII. -/
def normalise (name : List Char) : List Char :=
  (name.map lower).map fun c ↦ if c.toNat = 0x3002 then '.' else c

/-- A name with its labels in ASCII, if all of its characters can stand in one. -/
def byPunycode (name : List Char) : Option (List Char) :=
  if (normalise name).any fun c ↦ forbidden c || c.toNat == 0xFFFD then none
  else some (Text.join ['.'] ((Text.split '.' (normalise name)).map labelToAscii))

theorem byPunycode_of_mem {c : Char} {name : List Char} (h : c ∈ delimiters) (hc : c ∈ name) :
    byPunycode name = none := by
  have hall : delimiters.all (fun c ↦ lower c == c && c.toNat != 0x3002 && forbidden c) = true :=
    rfl
  have hmem := List.all_eq_true.mp hall c h
  simp only [Bool.and_eq_true, beq_iff_eq, bne_iff_ne] at hmem
  obtain ⟨⟨hlower, hstop⟩, hforbidden⟩ := hmem
  refine if_pos (List.any_eq_true.mpr ⟨c, ?_, by simp [hforbidden]⟩)
  rw [normalise, List.map_map]
  exact List.mem_map.mpr ⟨c, hc, by simp [hlower, hstop]⟩

namespace IsPlain

variable {name : List Char}

theorem normalise_eq_self (h : IsPlain name) : normalise name = name := by
  rw [normalise, List.map_map]
  refine (List.map_congr_left fun c hc ↦ ?_).trans (List.map_id' name)
  have hascii := h.ascii c hc
  have hlower : lower c = c := (if_pos hascii).trans (h.small c hc)
  rw [Function.comp_apply, hlower, if_neg (by omega)]

theorem byPunycode_eq_self (h : IsPlain name) : byPunycode name = some name := by
  have hnone : (name.any fun c ↦ forbidden c || c.toNat == 0xFFFD) = false := by
    rw [List.any_eq_false]
    intro c hc
    have hascii := h.ascii c hc
    simp only [h.allowed c hc, Bool.false_or, beq_iff_eq]
    omega
  have hlabels : (Text.split '.' name).map labelToAscii = Text.split '.' name := by
    refine (List.map_congr_left fun label hlabel ↦ ?_).trans (List.map_id' _)
    refine if_pos (List.all_eq_true.mpr fun c hc ↦ decide_eq_true (h.ascii c ?_))
    exact Text.mem_of_mem_split hlabel hc
  rw [byPunycode, h.normalise_eq_self, hnone, hlabels, Text.join_split]
  rfl

end IsPlain

instance : Spelling where
  toAscii := byPunycode
  toAscii_of_mem := byPunycode_of_mem
  toAscii_eq_self := IsPlain.byPunycode_eq_self

end SearchClient.Url.Domain

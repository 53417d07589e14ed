import SearchClient.Calendar.Moment
import SearchClient.Proofs.Number.Digits
import SearchClient.Proofs.Text.Blanks
import Mathlib.Algebra.Group.Nat.Defs
import Mathlib.Data.List.TakeWhile
import Mathlib.Tactic.SplitIfs

/-!
# Scanning moments

The fields of a moment are numbers of a fixed width with zeros in front. Scanning one gives the
number back and leaves what stands behind it (`Moment.scanDigits_padded`).

Of the dialects in which moments are read only the one with an offset knows the letter `Z`. The
others read their fields one after the other, and none of these has that letter in it
(`Moment.PassesNoZ`). So a text that ends in a `Z` is read with an offset or not at all
(`Moment.parse?_of_ends`).
-/

set_option autoImplicit false
set_option relaxedAutoImplicit false

namespace SearchClient

/-! ### Numbers of a fixed width -/

namespace Decimal

variable {width n : Nat} {cs : List Char}

theorem length_padded (hwidth : 0 < width) (h : n < 10 ^ width) :
    (padded width n).length = width := by
  have hlength : (digits n).length ≤ width :=
    (Nat.length_toDigits_le_iff (by decide) hwidth).mpr h
  rw [padded, List.length_append, List.length_replicate]
  omega

theorem isDigit_of_mem_padded {c : Char} (h : c ∈ padded width n) : isDigit c = true := by
  obtain h | h := List.mem_append.mp h
  · rw [List.eq_of_mem_replicate h]
    decide
  · exact isDigit_of_mem_digits h

theorem padded_ne_nil : padded width n ≠ [] := by
  simp [padded, digits_ne_nil]

theorem value_replicate_zero (count : Nat) : value (List.replicate count '0') = 0 := by
  induction count with
  | zero => rfl
  | succ count ih => exact ih

@[simp] theorem value_padded : value (padded width n) = n := by
  have hzeros := value_replicate_zero (width - (digits n).length)
  unfold value at hzeros
  rw [padded, value, List.foldl_append, hzeros]
  exact value_digits n

theorem digitValue_lt {c : Char} (h : isDigit c = true) : digitValue c < 10 := by
  simp only [isDigit, Bool.and_eq_true, decide_eq_true_eq] at h
  have hle : c.toNat ≤ 57 := h.2
  simp only [digitValue]
  have : '0'.toNat = 48 := rfl
  omega

theorem foldl_digits_lt (h : ∀ c ∈ cs, isDigit c = true) (first : Nat) :
    cs.foldl (fun n c ↦ 10 * n + digitValue c) first < (first + 1) * 10 ^ cs.length := by
  induction cs generalizing first with
  | nil => simp
  | cons c cs ih =>
    obtain ⟨hc, hcs⟩ := List.forall_mem_cons.mp h
    have hdigit := digitValue_lt hc
    calc cs.foldl (fun n c ↦ 10 * n + digitValue c) (10 * first + digitValue c)
        < (10 * first + digitValue c + 1) * 10 ^ cs.length := ih hcs _
      _ ≤ ((first + 1) * 10) * 10 ^ cs.length := Nat.mul_le_mul_right _ (by omega)
      _ = (first + 1) * 10 ^ (cs.length + 1) := by rw [Nat.pow_succ, Nat.mul_assoc, Nat.mul_comm 10]

/-- A row of digits names a number below the power of ten of its length. -/
theorem value_lt (h : ∀ c ∈ cs, isDigit c = true) : value cs < 10 ^ cs.length := by
  simpa [value] using foldl_digits_lt h 0

/-- A text with another character than a digit behind its first one names no integer. -/
theorem readInt?_eq_none {c d : Char} (hc : c ∈ cs) (hdigit : isDigit c = false) :
    readInt? (d :: cs) = none := by
  have hnot {cs : List Char} (hmem : c ∈ cs) : readNat? cs = none := by
    rw [readNat?, if_neg]
    rintro ⟨-, hall⟩
    rw [List.all_eq_true.mp hall c hmem] at hdigit
    cases hdigit
  unfold readInt?
  split
  · rename_i heq
    cases heq
    rw [hnot hc]
    rfl
  · rename_i heq
    cases heq
    rw [hnot hc]
    rfl
  · rw [hnot (List.mem_cons_of_mem _ hc)]
    rfl

end Decimal

namespace Moment

open Decimal

variable {cs rest : List Char}

/-! ### Fields that are there -/

theorem scanDigits_padded {least width n : Nat} (hleast : least ≤ width) (hwidth : 0 < width)
    (h : n < 10 ^ width) (rest : List Char) :
    scanDigits least width (padded width n ++ rest) = some (n, rest) := by
  have hlength := length_padded hwidth h
  have hdigits : ((padded width n ++ rest).takeWhile isDigit).take width = padded width n := by
    rw [List.takeWhile_append_of_pos fun c hc ↦ isDigit_of_mem_padded hc]
    exact List.take_left' hlength
  simp only [scanDigits, hdigits, hlength, Nat.not_lt.mpr hleast, if_false, value_padded,
    Option.some.injEq, Prod.mk.injEq, true_and]
  exact List.drop_left' hlength

/-- No field begins with another character than a digit. -/
theorem scanDigits_of_not_digit {least most : Nat} {c : Char} (hleast : 0 < least)
    (hc : isDigit c = false) : scanDigits least most (c :: cs) = none := by
  simp [scanDigits, hc, hleast]

@[simp] theorem scanChar_cons (c : Char) (cs : List Char) : scanChar c (c :: cs) = some cs := by
  simp [scanChar]

/-- Three digits of a fraction are milliseconds, if no digit follows them. -/
theorem scanFraction_padded {n : Nat} (h : n < 1000) (hrest : rest.takeWhile isDigit = []) :
    scanFraction ('.' :: (padded 3 n ++ rest)) = some (n * 1000000, rest) := by
  have hlength : (padded 3 n).length = 3 := length_padded (by decide) (by omega)
  have hall : ∀ c ∈ padded 3 n, isDigit c = true := fun c hc ↦ isDigit_of_mem_padded hc
  have hdigits : ((padded 3 n ++ rest).takeWhile isDigit).take 9 = padded 3 n := by
    rw [List.takeWhile_append_of_pos hall, hrest, List.append_nil]
    exact List.take_of_length_le (by omega)
  have hleft : (padded 3 n ++ rest).dropWhile isDigit = rest := by
    have hwhole := List.takeWhile_append_dropWhile (p := isDigit) (l := rest)
    rw [hrest, List.nil_append] at hwhole
    rw [List.dropWhile_append_of_pos hall, hwhole]
  simp only [scanFraction, hdigits, hleft]
  split
  · rename_i hnil
    exact absurd hnil padded_ne_nil
  · rw [value_padded, hlength]
    rfl

/-- A fraction of a second is less than one. -/
theorem scanFraction_lt {nanos : Nat} (h : scanFraction cs = some (nanos, rest)) :
    nanos < giga := by
  unfold scanFraction at h
  split at h
  · rename_i behind
    split at h
    · cases h
    · rename_i digits _ heq
      cases h
      have hlength : ((behind.takeWhile isDigit).take 9).length ≤ 9 := List.length_take_le ..
      have hvalue : value ((behind.takeWhile isDigit).take 9) <
          10 ^ ((behind.takeWhile isDigit).take 9).length :=
        value_lt fun c hc ↦ List.mem_takeWhile_imp (List.mem_of_mem_take hc)
      generalize (behind.takeWhile isDigit).take 9 = row at hlength hvalue
      calc value row * tenTo (9 - row.length)
          < 10 ^ row.length * 10 ^ (9 - row.length) :=
            Nat.mul_lt_mul_of_pos_right hvalue (Nat.pow_pos (by decide))
        _ = giga := by rw [← Nat.pow_add, Nat.add_sub_cancel' hlength]; rfl
  · cases h
    decide

/-! ### Fields without a letter -/

/-- What was passed on the way to a rest has no `Z` in it. -/
def PassesNoZ (cs rest : List Char) : Prop := ∃ passed, cs = passed ++ rest ∧ 'Z' ∉ passed

theorem PassesNoZ.refl (cs : List Char) : PassesNoZ cs cs := ⟨[], rfl, List.not_mem_nil⟩

theorem PassesNoZ.trans {later : List Char} (h : PassesNoZ cs rest) (h' : PassesNoZ rest later) :
    PassesNoZ cs later := by
  obtain ⟨passed, rfl, hpassed⟩ := h
  obtain ⟨passed', rfl, hpassed'⟩ := h'
  exact ⟨passed ++ passed', by rw [List.append_assoc], by simp [hpassed, hpassed']⟩

/-- Where nothing is left, there was no `Z`. -/
theorem PassesNoZ.not_mem (h : PassesNoZ cs []) : 'Z' ∉ cs := by
  obtain ⟨passed, rfl, hpassed⟩ := h
  rwa [List.append_nil]

theorem passesNoZ_cons {c : Char} (hc : c ≠ 'Z') (cs : List Char) : PassesNoZ (c :: cs) cs :=
  ⟨[c], rfl, by simpa using hc.symm⟩

theorem passesNoZ_dropWhile {p : Char → Bool} (hp : p 'Z' = false) (cs : List Char) :
    PassesNoZ cs (cs.dropWhile p) := by
  refine ⟨cs.takeWhile p, List.takeWhile_append_dropWhile.symm, fun hmem ↦ ?_⟩
  rw [List.mem_takeWhile_imp hmem] at hp
  cases hp

theorem passesNoZ_of_scanDigits {least most n : Nat}
    (h : scanDigits least most cs = some (n, rest)) : PassesNoZ cs rest := by
  simp only [scanDigits] at h
  split_ifs at h
  cases h
  have hfront : (cs.takeWhile isDigit).take most <+: cs :=
    (List.take_prefix ..).trans (List.takeWhile_prefix _)
  refine ⟨(cs.takeWhile isDigit).take most, ?_, fun hmem ↦ ?_⟩
  · exact (List.prefix_iff_eq_append.mp hfront).symm
  · have hdigit : isDigit 'Z' = true := List.mem_takeWhile_imp (List.mem_of_mem_take hmem)
    cases hdigit

theorem passesNoZ_of_scanChar {c : Char} (hc : c ≠ 'Z') (h : scanChar c cs = some rest) :
    PassesNoZ cs rest := by
  unfold scanChar at h
  split at h
  · split_ifs at h with heq
    cases h
    subst heq
    exact passesNoZ_cons hc _
  · cases h

theorem passesNoZ_of_scanFraction {nanos : Nat} (h : scanFraction cs = some (nanos, rest)) :
    PassesNoZ cs rest := by
  unfold scanFraction at h
  split at h
  · split at h
    · cases h
    · cases h
      exact (passesNoZ_cons (by decide) _).trans (passesNoZ_dropWhile (by decide) _)
  · cases h
    exact .refl _

theorem passesNoZ_of_scanField {n : Nat} (h : scanField cs = some (n, rest)) :
    PassesNoZ cs rest :=
  (passesNoZ_dropWhile (by decide) cs).trans (passesNoZ_of_scanDigits h)

theorem passesNoZ_of_scanYear {year : Int} (h : scanYear cs = some (year, rest)) :
    PassesNoZ cs rest := by
  refine (passesNoZ_dropWhile (p := Text.isBlank) (by decide) cs).trans ?_
  unfold scanYear at h
  split at h
  all_goals
    obtain ⟨⟨n, left⟩, hscan, heq⟩ := Option.map_eq_some_iff.mp h
    cases heq
  · rename_i hfront
    rw [hfront]
    exact (passesNoZ_cons (by decide) _).trans (passesNoZ_of_scanDigits hscan)
  · rename_i hfront
    rw [hfront]
    exact (passesNoZ_cons (by decide) _).trans (passesNoZ_of_scanDigits hscan)
  · exact passesNoZ_of_scanDigits hscan

theorem passesNoZ_of_scanDate {date : Calendar.Date} (h : scanDate cs = some (date, rest)) :
    PassesNoZ cs rest := by
  obtain ⟨⟨year, cs₁⟩, hyear, h⟩ := Option.bind_eq_some_iff.mp h
  obtain ⟨cs₂, hdash, h⟩ := Option.bind_eq_some_iff.mp h
  obtain ⟨⟨month, cs₃⟩, hmonth, h⟩ := Option.bind_eq_some_iff.mp h
  obtain ⟨cs₄, hdash', h⟩ := Option.bind_eq_some_iff.mp h
  obtain ⟨⟨day, cs₅⟩, hday, h⟩ := Option.bind_eq_some_iff.mp h
  cases h
  exact (passesNoZ_of_scanYear hyear).trans <| (passesNoZ_of_scanChar (by decide) hdash).trans <|
    (passesNoZ_of_scanField hmonth).trans <| (passesNoZ_of_scanChar (by decide) hdash').trans <|
    passesNoZ_of_scanField hday

theorem passesNoZ_of_blanks (h : some (cs.dropWhile Text.isBlank) = some rest) :
    PassesNoZ cs rest :=
  Option.some.inj h ▸ passesNoZ_dropWhile (by decide) cs

/-! ### Dialects -/

/-- A time without an offset has no `Z` in it, whatever separates it from its date, and is the
moment of what was read. -/
theorem parseLocal?_spec {separator : List Char → Option (List Char)} {m : Moment}
    (hseparator : ∀ cs rest, separator cs = some rest → PassesNoZ cs rest)
    (h : parseLocal? separator cs = some m) :
    'Z' ∉ cs ∧ ∃ r : Reading, r.nanos < giga ∧ r.moment? = some m := by
  obtain ⟨⟨date, cs₁⟩, hdate, h⟩ := Option.bind_eq_some_iff.mp h
  obtain ⟨cs₂, hbetween, h⟩ := Option.bind_eq_some_iff.mp h
  obtain ⟨⟨hour, cs₃⟩, hhour, h⟩ := Option.bind_eq_some_iff.mp h
  obtain ⟨cs₄, hcolon, h⟩ := Option.bind_eq_some_iff.mp h
  obtain ⟨⟨minute, cs₅⟩, hminute, h⟩ := Option.bind_eq_some_iff.mp h
  obtain ⟨cs₆, hcolon', h⟩ := Option.bind_eq_some_iff.mp h
  obtain ⟨⟨second, cs₇⟩, hsecond, h⟩ := Option.bind_eq_some_iff.mp h
  obtain ⟨⟨nanos, cs₈⟩, hnanos, h⟩ := Option.bind_eq_some_iff.mp h
  simp only at h
  split_ifs at h with hend
  subst hend
  refine ⟨PassesNoZ.not_mem ?_, _, scanFraction_lt hnanos, h⟩
  exact (passesNoZ_of_scanDate hdate).trans <|
    (hseparator _ _ hbetween).trans <| (passesNoZ_of_scanField hhour).trans <|
    (passesNoZ_of_scanChar (by decide) hcolon).trans <| (passesNoZ_of_scanField hminute).trans <|
    (passesNoZ_of_scanChar (by decide) hcolon').trans <| (passesNoZ_of_scanField hsecond).trans <|
    passesNoZ_of_scanFraction hnanos

/-- A date alone has no `Z` in it, and is the first moment of the day. -/
theorem parseDate?_spec {m : Moment} (h : parseDate? cs = some m) :
    'Z' ∉ cs ∧ ∃ r : Reading, r.nanos < giga ∧ r.moment? = some m := by
  obtain ⟨⟨date, cs₁⟩, hdate, h⟩ := Option.bind_eq_some_iff.mp h
  simp only at h
  split_ifs at h with hend
  subst hend
  exact ⟨(passesNoZ_of_scanDate hdate).not_mem, _, show 0 < giga by decide, h⟩

/-- Offsets are whole minutes, less than a day. -/
theorem scanOffset_spec {offset : Int} (h : scanOffset cs = some (offset, rest)) :
    offset % 60 = 0 ∧ offset < 86400 := by
  unfold scanOffset at h
  split at h
  · cases h
  · split_ifs at h
    · cases h
      decide
    all_goals
      obtain ⟨⟨hours, cs₁⟩, -, h⟩ := Option.bind_eq_some_iff.mp h
      obtain ⟨cs₂, -, h⟩ := Option.bind_eq_some_iff.mp h
      obtain ⟨⟨minutes, cs₃⟩, -, h⟩ := Option.bind_eq_some_iff.mp h
      simp only at h
      split_ifs at h
      cases h
      omega

/-- A time with an offset is the moment of what was read, less the offset, in a year that is not
negative. -/
theorem parseWithOffset?_spec {m : Moment} (h : parseWithOffset? cs = some m) :
    ∃ (r : Reading) (found : Moment) (offset : Int), r.nanos < giga ∧ 0 ≤ r.date.year ∧
      r.moment? = some found ∧ offset % 60 = 0 ∧ offset < 86400 ∧
      m = { found with seconds := found.seconds - offset } := by
  obtain ⟨⟨year, cs₁⟩, -, h⟩ := Option.bind_eq_some_iff.mp h
  obtain ⟨cs₂, -, h⟩ := Option.bind_eq_some_iff.mp h
  obtain ⟨⟨month, cs₃⟩, -, h⟩ := Option.bind_eq_some_iff.mp h
  obtain ⟨cs₄, -, h⟩ := Option.bind_eq_some_iff.mp h
  obtain ⟨⟨day, cs₅⟩, -, h⟩ := Option.bind_eq_some_iff.mp h
  obtain ⟨cs₆, -, h⟩ := Option.bind_eq_some_iff.mp h
  obtain ⟨⟨hour, cs₇⟩, -, h⟩ := Option.bind_eq_some_iff.mp h
  obtain ⟨cs₈, -, h⟩ := Option.bind_eq_some_iff.mp h
  obtain ⟨⟨minute, cs₉⟩, -, h⟩ := Option.bind_eq_some_iff.mp h
  obtain ⟨cs₁₀, -, h⟩ := Option.bind_eq_some_iff.mp h
  obtain ⟨⟨second, cs₁₁⟩, -, h⟩ := Option.bind_eq_some_iff.mp h
  obtain ⟨⟨nanos, cs₁₂⟩, hnanos, h⟩ := Option.bind_eq_some_iff.mp h
  obtain ⟨⟨offset, cs₁₃⟩, hoffset, h⟩ := Option.bind_eq_some_iff.mp h
  obtain ⟨found, hfound, h⟩ := Option.bind_eq_some_iff.mp h
  split_ifs at h
  cases h
  obtain ⟨hminutes, hbound⟩ := scanOffset_spec hoffset
  exact ⟨_, found, offset, scanFraction_lt hnanos, Int.natCast_nonneg _, hfound, hminutes, hbound,
    rfl⟩

/-- What is scanned first can be carried into what is scanned after it. -/
theorem bind_of_eq_some {α β : Type} {scanned : Option α} {a : α} {go : α → Option β}
    {b : Option β} (hscanned : scanned = some a) (hgo : go a = b) : scanned.bind go = b := by
  rw [hscanned, Option.bind_some, hgo]

/-- What cannot be scanned ends the scan. -/
theorem bind_of_eq_none {α β : Type} {scanned : Option α} {go : α → Option β}
    (hscanned : scanned = none) : scanned.bind go = none := by
  rw [hscanned, Option.bind_none]

/-- A text with fields of their full widths is read field by field. -/
theorem parseWithOffset?_padded {y mo d h mi s ms : Nat} (hy : y < 10000) (hmo : mo < 100)
    (hd : d < 100) (hh : h < 100) (hmi : mi < 100) (hs : s < 100) (hms : ms < 1000) {joint : Char}
    (hjoint : joint = 'T' ∨ joint = ' ') {zone : List Char} (hzone : zone.takeWhile isDigit = []) :
    parseWithOffset? (padded 4 y ++ '-' :: (padded 2 mo ++ '-' :: (padded 2 d ++ joint ::
      (padded 2 h ++ ':' :: (padded 2 mi ++ ':' :: (padded 2 s ++ '.' ::
      (padded 3 ms ++ zone))))))) =
      (scanOffset zone).bind fun (offset, left) ↦
        (Reading.moment? ⟨⟨y, mo, d⟩, h, mi, s, ms * 1000000⟩).bind fun m ↦
          if left = [] then some { m with seconds := m.seconds - offset } else none := by
  have hfour (cs : List Char) : scanDigits 4 4 (padded 4 y ++ cs) = some (y, cs) :=
    scanDigits_padded (Nat.le_refl _) (by decide) hy cs
  have htwo {n : Nat} (hn : n < 100) (cs : List Char) :
      scanDigits 2 2 (padded 2 n ++ cs) = some (n, cs) :=
    scanDigits_padded (Nat.le_refl _) (by decide) hn cs
  have hjoin (cs : List Char) : (scanChar 'T' (joint :: cs) <|> scanChar 't' (joint :: cs) <|>
      scanChar ' ' (joint :: cs)) = some cs := by
    obtain rfl | rfl := hjoint
    · rfl
    · rfl
  -- The steps are taken one by one: rewriting under the later binds would repeat them each time.
  refine bind_of_eq_some (hfour _) (bind_of_eq_some (scanChar_cons _ _) ?_)
  refine bind_of_eq_some (htwo hmo _) (bind_of_eq_some (scanChar_cons _ _) ?_)
  refine bind_of_eq_some (htwo hd _) (bind_of_eq_some (hjoin _) ?_)
  refine bind_of_eq_some (htwo hh _) (bind_of_eq_some (scanChar_cons _ _) ?_)
  refine bind_of_eq_some (htwo hmi _) (bind_of_eq_some (scanChar_cons _ _) ?_)
  exact bind_of_eq_some (htwo hs _) (bind_of_eq_some (scanFraction_padded hms hzone) rfl)

/-- A `Z` is the offset zero. -/
theorem bind_scanOffset_utc (found : Option Moment) :
    ((scanOffset ['Z']).bind fun (offset, left) ↦ found.bind fun m ↦
      if left = [] then some { m with seconds := m.seconds - offset } else none) = found := by
  have hzone : scanOffset ['Z'] = some (0, []) := rfl
  rw [hzone, Option.bind_some]
  simp only [if_true, Int.sub_zero]
  exact Option.bind_fun_some _

/-- Of a text that ends in a `Z`, no dialect without an offset makes a moment. -/
theorem parse?_of_ends {text : String} {c : Char} {cs : List Char}
    (htext : text.toList = c :: (cs ++ ['Z'])) (hblank : Text.isBlank c = false) :
    parse? text = parseWithOffset? (c :: (cs ++ ['Z'])) := by
  have hz : 'Z' ∈ c :: (cs ++ ['Z']) := by simp
  have htrim : Text.trim (c :: (cs ++ ['Z'])) = c :: (cs ++ ['Z']) :=
    Text.Solid.trim_eq_self ⟨c :: cs, 'Z', rfl, rfl⟩ hblank
  have hnumber : readInt? (c :: (cs ++ ['Z'])) = none :=
    readInt?_eq_none (List.mem_append_right _ List.mem_cons_self) (by decide)
  have hlocal {separator : List Char → Option (List Char)}
      (hseparator : ∀ cs rest, separator cs = some rest → PassesNoZ cs rest) :
      parseLocal? separator (c :: (cs ++ ['Z'])) = none :=
    Option.eq_none_iff_forall_ne_some.mpr fun m hm ↦ (parseLocal?_spec hseparator hm).1 hz
  have hjoined := hlocal fun _ _ ↦ passesNoZ_of_scanChar (show 'T' ≠ 'Z' by decide)
  have hblanks : parseLocal? (fun cs ↦ some (cs.dropWhile Text.isBlank)) (c :: (cs ++ ['Z'])) =
      none := hlocal fun _ _ ↦ passesNoZ_of_blanks
  have hdate : parseDate? (c :: (cs ++ ['Z'])) = none :=
    Option.eq_none_iff_forall_ne_some.mpr fun m hm ↦ (parseDate?_spec hm).1 hz
  simp only [parse?, htext, htrim, hnumber, hjoined, hblanks, hdate]
  cases parseWithOffset? (c :: (cs ++ ['Z'])) <;> rfl

end Moment

end SearchClient

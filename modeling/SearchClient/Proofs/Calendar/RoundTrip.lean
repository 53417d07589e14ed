import SearchClient.Proofs.Calendar.DayNumbers
import SearchClient.Proofs.Calendar.Scanning

/-!
# Moments that are written and read again

A moment that was read is written as a count of milliseconds or as a text, and what was written is
read again. What comes back has the same milliseconds, if anything comes back. `Form.Carries` tells
when it does: a count has to be one that a moment can have, which only a leap second at the end of
the last year has not, and a text needs a year of four digits. A year before the year zero or after
the year 9999 is written with a sign in front, and the dialect that reads a `Z` knows no signs.

`Moment.Kept` is what all moments have in common that were read. A leap second is kept in the last
second of a minute, so it is written as a second `60` and read as one.
-/

set_option autoImplicit false
set_option relaxedAutoImplicit false

namespace SearchClient.Moment

open Calendar Decimal

variable {m : Moment} {cs rest : List Char}

/-! ### Moments that were read -/

/-- A moment is not before the years that are kept, and only the last second of a minute may have a
leap second in it. -/
structure Kept (m : Moment) : Prop where
  least : leastMillis ≤ m.millis
  nanos_lt : m.nanos < 2 * giga
  leap : giga ≤ m.nanos → m.seconds % 60 = 59

theorem kept_of_ofMillis? {i : Int} (h : ofMillis? i = some m) : m.Kept := by
  unfold ofMillis? at h
  split_ifs at h with hrange
  cases h
  refine ⟨?_, ?_, ?_⟩
  all_goals
    simp only [millis, giga]
    omega

theorem millis_of_ofMillis? {i : Int} (h : ofMillis? i = some m) : m.millis = i := by
  unfold ofMillis? at h
  split_ifs at h
  cases h
  simp only [millis]
  omega

/-- What the moment of a date and time is, where the calendar has it. -/
theorem moment?_spec {r : Reading} (h : r.moment? = some m) : r.date.IsValid ∧ ∃ clock : Nat,
    clock < 86400 ∧ m.seconds = (r.date.dayNumber - epochDay) * 86400 + clock ∧
    (m.nanos = r.nanos ∨ m.nanos = r.nanos + giga ∧ clock % 60 = 59) := by
  unfold Reading.moment? at h
  split_ifs at h with hvalid hleap
  · cases h
    refine ⟨hvalid.1, _, ?_, rfl, .inr ⟨rfl, ?_⟩⟩
    · omega
    · omega
  · cases h
    refine ⟨hvalid.1, _, ?_, rfl, .inl rfl⟩
    omega

/-- The moment of a date and time, also when an offset was taken from it, is kept. Offsets are whole
minutes, so they do not move a leap second within its minute. -/
theorem kept_of_moment? {r : Reading} {offset : Int} (hnanos : r.nanos < giga)
    (hminutes : offset % 60 = 0) (hoffset : offset = 0 ∨ offset < 86400 ∧ 0 ≤ r.date.year)
    (h : r.moment? = some m) : Kept { m with seconds := m.seconds - offset } := by
  obtain ⟨hvalid, clock, hclock, hseconds, hnanosEq⟩ := moment?_spec h
  -- An offset moves a moment by less than a day, and only one of a year that is not negative.
  have hleast := hvalid.le_dayNumber
  have hfirst : daysBeforeYear leastYear = -95745764 := by decide
  have hday : offset < 86400 → 0 ≤ r.date.year → 0 ≤ r.date.dayNumber := by
    intro _ hyear
    have hzero : daysBeforeYear 0 = 0 := by decide
    have hmono := daysBeforeYear_mono hyear
    unfold Date.dayNumber
    omega
  refine ⟨?_, ?_, ?_⟩
  all_goals
    simp only [millis, leastMillis, epochDay, giga] at *
    omega

/-- Without an offset nothing is taken from the moment. -/
theorem kept_of_reading (h : ∃ r : Reading, r.nanos < giga ∧ r.moment? = some m) : m.Kept := by
  obtain ⟨r, hnanos, hr⟩ := h
  have hzero : m.seconds - 0 = m.seconds := Int.sub_zero _
  have hkept := kept_of_moment? hnanos (show (0 : Int) % 60 = 0 from rfl) (.inl rfl) hr
  rwa [hzero] at hkept

theorem eq_some_of_orElse {α : Type} {first second : Option α} {a : α}
    (h : (first <|> second) = some a) : first = some a ∨ second = some a := by
  cases first with
  | none => exact .inr h
  | some b => exact .inl h

theorem kept_of_parse? {text : String} (h : parse? text = some m) : m.Kept := by
  unfold parse? at h
  dsimp only at h
  split at h
  · split_ifs at h
    exact kept_of_ofMillis? h
  · obtain h | h := eq_some_of_orElse h
    · obtain ⟨r, found, offset, hnanos, hyear, hfound, hminutes, hoffset, rfl⟩ :=
        parseWithOffset?_spec h
      exact kept_of_moment? hnanos hminutes (.inr ⟨hoffset, hyear⟩) hfound
    obtain h | h := eq_some_of_orElse h
    · exact kept_of_reading
        (parseLocal?_spec (fun _ _ ↦ passesNoZ_of_scanChar (by decide)) h).2
    obtain h | h := eq_some_of_orElse h
    · exact kept_of_reading (parseLocal?_spec (fun _ _ ↦ passesNoZ_of_blanks) h).2
    · exact kept_of_reading (parseDate?_spec h).2

theorem kept_of_document {j : Json} (h : ofJson j = .ok m) : m.Kept := by
  unfold ofJson at h
  split at h
  · split at h
    · cases h
      exact kept_of_parse? ‹_›
    · cases h
  · split_ifs at h
    split at h
    · cases h
      exact kept_of_ofMillis? ‹_›
    · cases h
  · dsimp only at h
    split at h
    · cases h
      exact kept_of_ofMillis? ‹_›
    · cases h
  · cases h

/-! ### Texts that are read back -/

/-- The year of a moment in UTC. -/
def year (m : Moment) : Int := (Date.ofDayNumber (m.seconds / 86400 + epochDay)).year

/-- A year begins with a digit if it has four, and with a sign otherwise. -/
theorem yearText_eq_cons (year : Int) : ∃ c cs, yearText year = c :: cs ∧ Text.isBlank c = false ∧
    (isDigit c = true ↔ 0 ≤ year ∧ year ≤ 9999) := by
  unfold yearText
  split_ifs with hfour hnegative
  · obtain ⟨c, cs, hcs⟩ : ∃ c cs, padded 4 year.toNat = c :: cs :=
      List.exists_cons_of_ne_nil padded_ne_nil
    have hmem : c ∈ padded 4 year.toNat := hcs ▸ List.mem_cons_self
    have hdigit : isDigit c = true := isDigit_of_mem_padded hmem
    exact ⟨c, cs, hcs, Text.not_isBlank_of_isDigit hdigit, by simp [hdigit, hfour]⟩
  · exact ⟨'-', _, rfl, by decide, by simp [hfour, show isDigit '-' = false by decide]⟩
  · exact ⟨'+', _, rfl, by decide, by simp [hfour, show isDigit '+' = false by decide]⟩

/-- The text of a moment ends in a `Z`, and begins as its year does. -/
theorem chars_eq (m : Moment) : ∃ c cs, m.chars = c :: (cs ++ ['Z']) ∧ Text.isBlank c = false ∧
    (isDigit c = true ↔ 0 ≤ m.year ∧ m.year ≤ 9999) := by
  obtain ⟨c, cs, hcs, hblank, hdigit⟩ := yearText_eq_cons m.year
  unfold year at hcs
  let date := Date.ofDayNumber (m.seconds / 86400 + epochDay)
  refine ⟨c, cs ++ '-' :: (padded 2 date.month ++ '-' :: padded 2 date.day) ++ 'T' ::
    (m.clockChars ++ '.' :: padded 3 (m.nanos % giga / 1000000)), ?_, hblank, hdigit⟩
  simp [chars, dateChars, hcs, date]

/-- What a moment is written as, where its year has four digits. -/
theorem chars_of_year (hyear : 0 ≤ m.year ∧ m.year ≤ 9999) :
    let date := Date.ofDayNumber (m.seconds / 86400 + epochDay)
    let time := (m.seconds % 86400).toNat
    m.chars = padded 4 date.year.toNat ++ '-' :: (padded 2 date.month ++ '-' ::
      (padded 2 date.day ++ 'T' :: (padded 2 (time / 3600) ++ ':' :: (padded 2 (time / 60 % 60) ++
      ':' :: (padded 2 (time % 60 + m.nanos / giga) ++ '.' ::
      (padded 3 (m.nanos % giga / 1000000) ++ ['Z'])))))) := by
  intro date time
  have hfour : yearText date.year = padded 4 date.year.toNat := if_pos hyear
  simp [chars, dateChars, clockChars, date, time, ← hfour]

/-- The fields that a moment is written in have a moment, and it has the same milliseconds. -/
theorem exists_moment?_fields (h : m.Kept) (hyear : 0 ≤ m.year ∧ m.year ≤ 9999) :
    let date := Date.ofDayNumber (m.seconds / 86400 + epochDay)
    let time := (m.seconds % 86400).toNat
    ∃ back, Reading.moment? ⟨date, time / 3600, time / 60 % 60, time % 60 + m.nanos / giga,
      m.nanos % giga / 1000000 * 1000000⟩ = some back ∧ back.millis = m.millis := by
  intro date time
  have hvalid : date.IsValid := Date.isValid_ofDayNumber
    (Int.le_trans (by decide) hyear.1) (Int.le_trans hyear.2 (by decide))
  have hday : date.dayNumber = m.seconds / 86400 + epochDay := Date.dayNumber_ofDayNumber _
  have hnanos := h.nanos_lt
  have hleap := h.leap
  simp only [giga] at hnanos hleap ⊢
  have hclock : time / 3600 < 24 ∧ time / 60 % 60 < 60 ∧ time % 60 + m.nanos / 1000000000 ≤ 60 := by
    omega
  refine ⟨_, if_pos ⟨hvalid, hclock⟩, ?_⟩
  simp only [millis, hday, giga]
  split
  · omega
  · omega

/-- The text of a moment in a year of four digits is read back. -/
theorem exists_parse?_text (h : m.Kept) (hyear : 0 ≤ m.year ∧ m.year ≤ 9999) :
    ∃ back, parse? m.text = some back ∧ back.millis = m.millis := by
  obtain ⟨back, hback, hmillis⟩ := exists_moment?_fields h hyear
  obtain ⟨c, cs, hchars, hblank, -⟩ := m.chars_eq
  refine ⟨back, ?_, hmillis⟩
  obtain ⟨hvalid, -⟩ := moment?_spec hback
  have hday := hvalid.day_le
  obtain ⟨-, -, -, hmonth, -⟩ := hvalid
  dsimp only at hday hmonth
  have hyearNat : ((Date.ofDayNumber (m.seconds / 86400 + epochDay)).year.toNat : Int) =
      (Date.ofDayNumber (m.seconds / 86400 + epochDay)).year := Int.toNat_of_nonneg hyear.1
  have hsecond : m.nanos / giga ≤ 1 :=
    Nat.le_of_lt_succ (Nat.div_lt_of_lt_mul (by rw [Nat.mul_comm]; exact h.nanos_lt))
  have hmillisecond : m.nanos % giga / 1000000 < 1000 :=
    Nat.div_lt_of_lt_mul (Nat.mod_lt _ (by decide))
  rw [text, parse?_of_ends (by rw [String.toList_ofList, hchars]) hblank, ← hchars,
    chars_of_year hyear,
    parseWithOffset?_padded _ _ _ _ _ _ hmillisecond (.inl rfl) (by rfl), bind_scanOffset_utc,
    hyearNat]
  · exact hback
  · have hfour : m.year.toNat < 10000 := by omega
    exact hfour
  all_goals omega

/-- The text of a moment in another year is not. -/
theorem parse?_text_eq_none (hyear : ¬ (0 ≤ m.year ∧ m.year ≤ 9999)) : parse? m.text = none := by
  obtain ⟨c, cs, hchars, hblank, hdigit⟩ := m.chars_eq
  have hsign : isDigit c = false := by rwa [← hdigit, Bool.not_eq_true] at hyear
  rw [text, parse?_of_ends (by rw [String.toList_ofList, hchars]) hblank, parseWithOffset?,
    scanDigits_of_not_digit (by decide) hsign]
  rfl

/-! ### Documents that are read back -/

/-- What a form writes of a moment can be read: a count of milliseconds that a moment can have, or a
text with a year of four digits. -/
def Form.Carries (form : Form) (m : Moment) : Prop :=
  match form with
  | .epochMillis => m.millis ≤ greatestMillis
  | .text => 0 ≤ m.year ∧ m.year ≤ 9999

instance (form : Form) (m : Moment) : Decidable (form.Carries m) :=
  match form with
  | .epochMillis => inferInstanceAs (Decidable (m.millis ≤ greatestMillis))
  | .text => inferInstanceAs (Decidable (0 ≤ m.year ∧ m.year ≤ 9999))

theorem ofJson_integer {i : Int} (hleast : leastMillis ≤ i) (hgreatest : i ≤ greatestMillis) :
    ∃ back, ofJson (.integer i) = .ok back ∧ back.millis = i := by
  have hback : ofMillis? i = some ⟨i / 1000, (i % 1000).toNat * 1000000⟩ :=
    if_pos ⟨hleast, hgreatest⟩
  have hsigned : ¬ greatestSigned < i := by
    have hle : greatestMillis ≤ greatestSigned := by decide
    omega
  refine ⟨_, ?_, millis_of_ofMillis? hback⟩
  simp only [Json.integer, ofJson, if_neg hsigned, hback]

theorem ofJson_integer_of_late {i : Int} (hlate : greatestMillis < i) {back : Moment} :
    ofJson (.integer i) ≠ .ok back := by
  have hnone : ofMillis? i = none := if_neg (by omega)
  simp only [Json.integer, ofJson, hnone]
  split <;> exact nofun

/-- What was written of a moment that was read is read back as far as its form carries it. -/
theorem exists_ofJson_toJson (h : m.Kept) {form : Form} (hcarries : form.Carries m) :
    ∃ back, ofJson (m.toJson form) = .ok back ∧ back.millis = m.millis := by
  cases form with
  | epochMillis => exact ofJson_integer h.least hcarries
  | text =>
    obtain ⟨back, hback, hmillis⟩ := exists_parse?_text h hcarries
    exact ⟨back, by simp only [toJson, ofJson, hback], hmillis⟩

theorem carries_of_ofJson_toJson {form : Form} {back : Moment}
    (hback : ofJson (m.toJson form) = .ok back) : form.Carries m := by
  cases form with
  | epochMillis =>
    by_contra hlate
    exact ofJson_integer_of_late (Int.not_le.mp hlate) hback
  | text =>
    by_contra hyear
    simp only [toJson, ofJson, parse?_text_eq_none hyear] at hback
    cases hback

/-- How the moments of a field are read and written: in which form, and whether null stands for a
moment that is missing. -/
structure Helper where
  form : Form
  orNull : Bool

namespace Helper

/-- A helper reads a moment in any dialect. -/
def read (helper : Helper) (j : Json) : Except Misread (Option Moment) :=
  if helper.orNull then ofJsonOrNull j else (ofJson j).map some

/-- A helper writes a moment in its form. -/
def write (helper : Helper) (found : Option Moment) : Json := optionToJson helper.form found

theorem read_of_ne_null {helper : Helper} {j : Json} (hj : j ≠ .null) :
    helper.read j = (ofJson j).map some := by
  unfold read ofJsonOrNull
  split
  · split
    · exact absurd rfl hj
    · rfl
  · rfl

theorem read_write {reader writer : Helper} :
    reader.read (writer.write (some m)) = (ofJson (m.toJson writer.form)).map some := by
  refine read_of_ne_null ?_
  simp only [write, optionToJson]
  cases writer.form <;> exact nofun

theorem kept_of_read {helper : Helper} {j : Json} (h : helper.read j = .ok (some m)) : m.Kept := by
  have hread {found : Except Misread Moment} (hfound : found.map some = .ok (some m)) :
      found = .ok m := by
    cases found with
    | error => cases hfound
    | ok back =>
      cases hfound
      rfl
  unfold read ofJsonOrNull at h
  split at h
  · split at h
    · cases h
    · exact kept_of_document (hread h)
  · exact kept_of_document (hread h)

theorem eq_null_of_read {helper : Helper} {j : Json} (h : helper.read j = .ok none) :
    j = .null := by
  unfold read ofJsonOrNull at h
  split at h
  · split at h
    · rfl
    · cases hj : ofJson _ <;> rw [hj] at h <;> cases h
  · cases hj : ofJson j <;> rw [hj] at h <;> cases h

/-- What a helper has read of a document is written by another one and read by a third. Null stays
null. A moment is read back exactly if the form in which it was written carries it, and then it has
the same milliseconds as before. -/
theorem moments_are_read_back {first : Helper} {j : Json} {found : Option Moment}
    (hread : first.read j = .ok found) (writer reader : Helper) :
    (found = none → j = .null ∧ writer.write found = .null ∧
      (reader.orNull = true → reader.read (writer.write found) = .ok none)) ∧
    ∀ m, found = some m →
      ((∃ again, reader.read (writer.write found) = .ok again) ↔ writer.form.Carries m) ∧
      ∀ again, reader.read (writer.write found) = .ok again →
        ∃ back, again = some back ∧ back.millis = m.millis := by
  refine ⟨?_, ?_⟩
  · rintro rfl
    exact ⟨eq_null_of_read hread, rfl, fun hnull ↦ if_pos hnull⟩
  · rintro m rfl
    have hkept := kept_of_read hread
    have hcarries {again : Option Moment}
        (hagain : reader.read (writer.write (some m)) = .ok again) : writer.form.Carries m := by
      rw [read_write] at hagain
      cases hback : ofJson (m.toJson writer.form) with
      | error misread =>
        rw [hback] at hagain
        cases hagain
      | ok back => exact carries_of_ofJson_toJson hback
    have hback (h : writer.form.Carries m) : ∃ back,
        reader.read (writer.write (some m)) = .ok (some back) ∧ back.millis = m.millis := by
      obtain ⟨back, hback, hmillis⟩ := exists_ofJson_toJson hkept h
      exact ⟨back, by rw [read_write, hback]; rfl, hmillis⟩
    refine ⟨⟨fun ⟨again, hagain⟩ ↦ hcarries hagain, fun h ↦ ?_⟩, fun again hagain ↦ ?_⟩
    · obtain ⟨back, hread', -⟩ := hback h
      exact ⟨some back, hread'⟩
    · obtain ⟨back, hread', hmillis⟩ := hback (hcarries hagain)
      rw [hread', Except.ok.injEq] at hagain
      exact ⟨back, hagain.symm, hmillis⟩

/-- The four helpers. -/
def epochMillis : Helper := ⟨.epochMillis, false⟩

def epochMillisOrNull : Helper := ⟨.epochMillis, true⟩

def flexible : Helper := ⟨.text, false⟩

def flexibleOrNull : Helper := ⟨.text, true⟩

/-- A quarter of a second into the leap second at the end of 2016. -/
def leapMoment : Moment := ⟨1483228799, 1250000000⟩

/-- A moment in a leap second is read back from a text and from a count, and null from null. -/
theorem moments_are_read_back_of_leap :
    flexible.read (.string "2016-12-31T23:59:60.250Z") = .ok (some leapMoment) ∧
    flexible.write (some leapMoment) = .string "2016-12-31T23:59:60.250Z" ∧
    (∃ back, epochMillisOrNull.read (flexible.write (some leapMoment)) = .ok (some back) ∧
      back.millis = 1483228800250) ∧
    (∃ back, flexibleOrNull.read (epochMillis.write (some leapMoment)) = .ok (some back) ∧
      back.millis = 1483228800250) ∧
    flexibleOrNull.read .null = .ok none ∧
    flexibleOrNull.read (epochMillisOrNull.write none) = .ok none := by
  have hleap : flexible.read (.string "2016-12-31T23:59:60.250Z") = .ok (some leapMoment) := by rfl
  have hnull : flexibleOrNull.read .null = .ok none := rfl
  have hback (writer reader : Helper) (hcarries : writer.form.Carries leapMoment) :
      ∃ back, reader.read (writer.write (some leapMoment)) = .ok (some back) ∧
        back.millis = leapMoment.millis := by
    obtain ⟨hsome, hsame⟩ := (moments_are_read_back hleap writer reader).2 leapMoment rfl
    obtain ⟨again, hagain⟩ := hsome.mpr hcarries
    obtain ⟨back, rfl, hmillis⟩ := hsame again hagain
    exact ⟨back, hagain, hmillis⟩
  exact ⟨hleap, by rfl, hback flexible epochMillisOrNull (by decide),
    hback epochMillis flexibleOrNull (by decide), hnull,
    ((moments_are_read_back hnull epochMillisOrNull flexibleOrNull).1 rfl).2.2 rfl⟩

/-- The first moment of the year 10000 is read from a count, and is not read back from its text. -/
theorem late_year_is_not_read_back :
    flexible.read (.integer 253402300800000) = .ok (some ⟨253402300800, 0⟩) ∧
    flexible.write (some ⟨253402300800, 0⟩) = .string "+10000-01-01T00:00:00.000Z" ∧
    ¬ ∃ again, flexible.read (flexible.write (some ⟨253402300800, 0⟩)) = .ok again := by
  refine ⟨by rfl, by rfl, ?_⟩
  rintro ⟨again, hagain⟩
  cases hagain

end Helper

end SearchClient.Moment

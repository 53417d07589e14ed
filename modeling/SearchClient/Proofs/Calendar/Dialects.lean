import SearchClient.Proofs.Calendar.RoundTrip
import Mathlib.Algebra.BigOperators.Group.List.Basic
import Mathlib.Algebra.GroupWithZero.Nat

/-!
# All dialects name the same moment

A date with a time of day is written in several dialects: with a `T` or a blank between the two,
with a `Z`, with an offset, as a count of milliseconds, and at midnight as the date alone. Whichever
is chosen, and whatever blanks stand around it, the moment that is read is the one that many
milliseconds after the beginning of 1970 as the days, hours, minutes and seconds add up to
(`Stamp.dialects_agree`). A text of one of these shapes whose month, day, hour or minute is out of
range names no moment.

Each dialect is read by one reader of the chain only, and the readers before it refuse the text: a
count has no hyphen inside, an offset is missing or something follows, the joint is another one.
`Stamp.parse?_joined`, `Stamp.parse?_zoned` and `Stamp.parse?_date` say so for all values of the
fields.
-/

set_option autoImplicit false
set_option relaxedAutoImplicit false

namespace SearchClient

open Calendar Decimal

/-! ### Counting days -/

namespace Calendar

/-- The days before a year are those of the years before it, counted one by one. -/
theorem daysBeforeYear_eq_sum (year : Nat) : daysBeforeYear year =
    (((List.range year).map fun y : Nat ↦ yearLength (isLeap y)).sum : Nat) := by
  induction year with
  | zero => decide
  | succ year ih =>
    rw [Int.natCast_succ, daysBeforeYear_succ, ih, List.range_succ, List.map_append,
      List.sum_append, List.map_singleton, List.sum_singleton, Int.natCast_add]

end Calendar

/-- A date with a time of day, as it is written down. -/
structure Stamp where
  year : Nat
  month : Nat
  day : Nat
  hour : Nat
  minute : Nat
  second : Nat
  milli : Nat
  deriving DecidableEq, Repr

namespace Stamp

variable {c : Stamp}

/-- The days from the first of January of the year zero, those of whole years and months first. -/
def days (c : Stamp) : Nat :=
  ((List.range c.year).map fun y : Nat ↦ yearLength (isLeap y)).sum +
    ((monthLengths (isLeap c.year)).take (c.month - 1)).sum + (c.day - 1)

/-- The first moment of 1970. -/
def epoch : Stamp := ⟨1970, 1, 1, 0, 0, 0, 0⟩

/-- The milliseconds from the beginning of 1970, in UTC. -/
def millis (c : Stamp) : Int :=
  ((((c.days : Int) - epoch.days) * 24 + c.hour) * 60 + c.minute) * 60000 +
    (c.second * 1000 + c.milli : Nat)

/-- The calendar has the day. -/
structure HasDay (c : Stamp) : Prop where
  month_pos : 1 ≤ c.month
  month_le : c.month ≤ 12
  day_pos : 1 ≤ c.day
  day_le : c.day ≤ (monthLengths (isLeap c.year))[c.month - 1]?.getD 0

/-- The day and the clock have the minute. -/
structure HasMinute (c : Stamp) : Prop extends HasDay c where
  hour_lt : c.hour < 24
  minute_lt : c.minute < 60

/-- Every field fits into its place: four digits for the year, three for the milliseconds, two for
the others. -/
structure Fits (c : Stamp) : Prop where
  year_lt : c.year < 10000
  month_lt : c.month < 100
  day_lt : c.day < 100
  hour_lt : c.hour < 100
  minute_lt : c.minute < 100
  second_lt : c.second < 100
  milli_lt : c.milli < 1000

/-! ### Writing -/

/-- The date, and what follows it. -/
def dateChars (c : Stamp) (rest : List Char) : List Char :=
  padded 4 c.year ++ '-' :: (padded 2 c.month ++ '-' :: (padded 2 c.day ++ rest))

/-- The time of day, and what follows it. -/
def clockChars (c : Stamp) (rest : List Char) : List Char :=
  padded 2 c.hour ++ ':' :: (padded 2 c.minute ++ ':' :: (padded 2 c.second ++ '.' ::
    (padded 3 c.milli ++ rest)))

/-- The date and the time with a joint between them, and what follows them. -/
def chars (c : Stamp) (joint : Char) (zone : List Char) : List Char :=
  c.dateChars (joint :: c.clockChars zone)

/-- An offset from UTC: a sign, hours and minutes. -/
def zoneChars (ahead : Bool) (hours minutes : Nat) : List Char :=
  (if ahead then '+' else '-') :: (padded 2 hours ++ ':' :: padded 2 minutes)

/-! ### Moments -/

/-- The fields as a reader finds them. -/
def reading (c : Stamp) : Moment.Reading :=
  ⟨⟨c.year, c.month, c.day⟩, c.hour, c.minute, c.second, c.milli * 1000000⟩

theorem days_eq (c : Stamp) : (c.days : Int) = (⟨c.year, c.month, c.day⟩ : Date).dayNumber := by
  rw [days, Date.dayNumber, daysBeforeYear_eq_sum, daysBeforeMonth, Int.natCast_add,
    Int.natCast_add]
  rfl

theorem days_epoch : (epoch.days : Int) = epochDay := by
  rw [days_eq]
  decide

/-- What is read of the fields is the moment, or nothing where the calendar or the clock has no such
minute. -/
theorem moment?_reading (hyear : c.year < 10000) (hminute : c.HasMinute) (hsecond : c.second < 60)
    (hmilli : c.milli < 1000) : c.reading.moment? =
      some ⟨c.millis / 1000, (c.millis % 1000).toNat * 1000000⟩ := by
  have hvalid : c.reading.date.IsValid := by
    have hleast : leastYear ≤ (c.year : Int) := Int.le_trans (by decide) (Int.natCast_nonneg _)
    have hgreatest : (c.year : Int) ≤ greatestYear := by
      unfold greatestYear
      omega
    exact ⟨hleast, hgreatest, hminute.month_pos, hminute.month_le, hminute.day_pos, hminute.day_le⟩
  have hclock : c.reading.hour < 24 ∧ c.reading.minute < 60 ∧ c.reading.second ≤ 60 :=
    ⟨hminute.hour_lt, hminute.minute_lt, Nat.le_of_lt hsecond⟩
  have hleap : ¬ c.reading.second = 60 := Nat.ne_of_lt hsecond
  have hday : c.reading.date.dayNumber = c.days := (days_eq c).symm
  rw [Moment.Reading.moment?, if_pos ⟨hvalid, hclock⟩]
  simp only [if_neg hleap, Nat.add_zero, hday, millis, days_epoch]
  simp only [reading, Option.some.injEq, Moment.mk.injEq]
  omega

theorem moment?_reading_eq_none (h : ¬ c.HasMinute) : c.reading.moment? = none := by
  rw [Moment.Reading.moment?, if_neg]
  rintro ⟨⟨-, -, hmonth, hmonth', hday, hday'⟩, hhour, hminute, -⟩
  exact h ⟨⟨hmonth, hmonth', hday, hday'⟩, hhour, hminute⟩

/-! ### Reading -/

/-- A number with leading zeros begins with a digit. -/
theorem exists_digit_padded (width n : Nat) (rest : List Char) :
    ∃ d cs, padded width n ++ rest = d :: cs ∧ isDigit d = true := by
  obtain ⟨d, cs, hcs⟩ : ∃ d cs, padded width n = d :: cs :=
    List.exists_cons_of_ne_nil padded_ne_nil
  have hd : d ∈ padded width n := hcs ▸ List.mem_cons_self
  exact ⟨d, cs ++ rest, by rw [hcs, List.cons_append], isDigit_of_mem_padded hd⟩

theorem dropWhile_isBlank_padded (width n : Nat) (rest : List Char) :
    (padded width n ++ rest).dropWhile Text.isBlank = padded width n ++ rest := by
  obtain ⟨d, cs, hcs, hd⟩ := exists_digit_padded width n rest
  rw [hcs, List.dropWhile_cons_of_neg (by simp [Text.not_isBlank_of_isDigit hd])]

theorem scanField_padded {n : Nat} (h : n < 100) (rest : List Char) :
    Moment.scanField (padded 2 n ++ rest) = some (n, rest) := by
  rw [Moment.scanField, dropWhile_isBlank_padded]
  exact Moment.scanDigits_padded (by decide) (by decide) h rest

theorem scanYear_padded {n : Nat} (h : n < 10000) (rest : List Char) :
    Moment.scanYear (padded 4 n ++ rest) = some ((n : Int), rest) := by
  obtain ⟨d, cs, hcs, hd⟩ := exists_digit_padded 4 n rest
  unfold Moment.scanYear
  rw [dropWhile_isBlank_padded]
  split
  · rename_i heq
    rw [hcs, List.cons.injEq] at heq
    rw [heq.1] at hd
    cases hd
  · rename_i heq
    rw [hcs, List.cons.injEq] at heq
    rw [heq.1] at hd
    cases hd
  · rw [Moment.scanDigits_padded (by decide) (by decide) h rest, Option.map_some]

theorem scanDate_dateChars (h : c.Fits) (rest : List Char) :
    Moment.scanDate (c.dateChars rest) = some (⟨c.year, c.month, c.day⟩, rest) := by
  refine Moment.bind_of_eq_some (scanYear_padded h.year_lt _) ?_
  refine Moment.bind_of_eq_some (Moment.scanChar_cons _ _) ?_
  refine Moment.bind_of_eq_some (scanField_padded h.month_lt _) ?_
  refine Moment.bind_of_eq_some (Moment.scanChar_cons _ _) ?_
  exact Moment.bind_of_eq_some (scanField_padded h.day_lt _) rfl

variable {separator : List Char → Option (List Char)} {joint : Char} {zone rest : List Char}

/-- A date and a time are read where the joint between them is the one that is looked for and
nothing follows. -/
theorem parseLocal?_chars (h : c.Fits) (hzone : zone.takeWhile isDigit = [])
    (hjoint : separator (joint :: c.clockChars zone) = some (c.clockChars zone)) :
    Moment.parseLocal? separator (c.chars joint zone) =
      if zone = [] then c.reading.moment? else none := by
  refine Moment.bind_of_eq_some (scanDate_dateChars h _) ?_
  refine Moment.bind_of_eq_some hjoint ?_
  refine Moment.bind_of_eq_some (scanField_padded h.hour_lt _) ?_
  refine Moment.bind_of_eq_some (Moment.scanChar_cons _ _) ?_
  refine Moment.bind_of_eq_some (scanField_padded h.minute_lt _) ?_
  refine Moment.bind_of_eq_some (Moment.scanChar_cons _ _) ?_
  refine Moment.bind_of_eq_some (scanField_padded h.second_lt _) ?_
  exact Moment.bind_of_eq_some (Moment.scanFraction_padded h.milli_lt hzone) rfl

/-- Where no hour follows the joint, no time is read. -/
theorem parseLocal?_dateChars_eq_none (h : c.Fits)
    (hrest : (separator rest).bind Moment.scanField = none) :
    Moment.parseLocal? separator (c.dateChars rest) = none := by
  refine Moment.bind_of_eq_some (scanDate_dateChars h _) ?_
  cases hseparator : separator rest with
  | none => exact Moment.bind_of_eq_none hseparator
  | some cs =>
    rw [hseparator, Option.bind_some] at hrest
    exact Moment.bind_of_eq_some hseparator (Moment.bind_of_eq_none hrest)

/-- The date of a stamp at midnight. -/
def midnight (c : Stamp) : Stamp := ⟨c.year, c.month, c.day, 0, 0, 0, 0⟩

theorem parseDate?_dateChars (h : c.Fits) (rest : List Char) :
    Moment.parseDate? (c.dateChars rest) =
      if rest = [] then c.midnight.reading.moment? else none := by
  have hmidnight : c.midnight.reading = ⟨⟨c.year, c.month, c.day⟩, 0, 0, 0, 0⟩ := by
    simp [midnight, reading]
  rw [hmidnight]
  exact Moment.bind_of_eq_some (scanDate_dateChars h _) rfl

/-! ### The chain of readers -/

variable {front back : List Char}

/-- A text with blanks around it. -/
def surrounded (front back cs : List Char) : String := String.ofList (front ++ cs ++ back)

/-- A date is no count of milliseconds, so the readers of dates are tried, one after the other. -/
theorem parse?_dateChars (hfront : ∀ c ∈ front, Text.isBlank c = true)
    (hback : ∀ c ∈ back, Text.isBlank c = true) (hsolid : Text.Solid (c.dateChars rest)) :
    Moment.parse? (surrounded front back (c.dateChars rest)) =
      (Moment.parseWithOffset? (c.dateChars rest) <|>
        Moment.parseLocal? (Moment.scanChar 'T') (c.dateChars rest) <|>
        Moment.parseLocal? (fun cs ↦ some (cs.dropWhile Text.isBlank)) (c.dateChars rest) <|>
        Moment.parseDate? (c.dateChars rest)) := by
  obtain ⟨d, cs, hcs, hd⟩ := exists_digit_padded 4 c.year
    ('-' :: (padded 2 c.month ++ '-' :: (padded 2 c.day ++ rest)))
  have htrim : Text.trim (c.dateChars rest) = c.dateChars rest := by
    rw [dateChars, hcs] at hsolid ⊢
    exact hsolid.trim_eq_self (Text.not_isBlank_of_isDigit hd)
  have hnumber : readInt? (c.dateChars rest) = none := by
    have hdash : '-' ∈ d :: cs := by simp [← hcs]
    rw [dateChars, hcs]
    obtain rfl | hdash := List.mem_cons.mp hdash
    · cases hd
    · exact readInt?_eq_none hdash rfl
  rw [Moment.parse?, surrounded, String.toList_ofList, Text.trim_surrounded hfront hback, htrim]
  simp only [hnumber]

theorem solid_clockChars (h : Text.Solid zone ∨ zone = []) : Text.Solid (c.clockChars zone) := by
  have hmilli : Text.Solid (padded 3 c.milli ++ zone) := by
    obtain h | rfl := h
    · exact h.append _
    · rw [List.append_nil]
      exact Text.solid_of_isDigit padded_ne_nil fun _ hc ↦ isDigit_of_mem_padded hc
  exact (((((hmilli.cons _).append _).cons _).append _).cons _).append _

theorem solid_chars (h : Text.Solid zone ∨ zone = []) : Text.Solid (c.chars joint zone) :=
  ((((((solid_clockChars h).cons joint).append _).cons _).append _).cons _).append _

theorem dropWhile_isBlank_clockChars :
    (c.clockChars zone).dropWhile Text.isBlank = c.clockChars zone :=
  dropWhile_isBlank_padded _ _ _

/-- The reader of times with an offset finds the fields and leaves the offset. -/
theorem parseWithOffset?_chars (h : c.Fits) (hjoint : joint = 'T' ∨ joint = ' ')
    (hzone : zone.takeWhile isDigit = []) : Moment.parseWithOffset? (c.chars joint zone) =
      (Moment.scanOffset zone).bind fun (offset, left) ↦ c.reading.moment?.bind fun m ↦
        if left = [] then some { m with seconds := m.seconds - offset } else none :=
  Moment.parseWithOffset?_padded h.year_lt h.month_lt h.day_lt h.hour_lt h.minute_lt h.second_lt
    h.milli_lt hjoint hzone

/-- No date alone has a joint behind it. -/
theorem parseDate?_chars (h : c.Fits) : Moment.parseDate? (c.chars joint zone) = none :=
  (parseDate?_dateChars h _).trans (if_neg (List.cons_ne_nil _ _))

theorem orElse_none {α : Type} (found : Option α) : (found <|> none) = found := by
  cases found <;> rfl

/-- A date and a time without an offset are read as they stand, whether a `T` or a blank joins
them. -/
theorem parse?_joined (h : c.Fits) (hfront : ∀ c ∈ front, Text.isBlank c = true)
    (hback : ∀ c ∈ back, Text.isBlank c = true) (hjoint : joint = 'T' ∨ joint = ' ') :
    Moment.parse? (surrounded front back (c.chars joint [])) = c.reading.moment? := by
  have hoffset : Moment.parseWithOffset? (c.chars joint []) = none :=
    parseWithOffset?_chars h hjoint rfl
  have hsolid : Text.Solid (c.chars joint []) := solid_chars (.inr rfl)
  have hchain := parse?_dateChars hfront hback hsolid
  rw [← chars, hoffset, parseDate?_chars h] at hchain
  obtain rfl | rfl := hjoint
  · have hlocal : Moment.parseLocal? (Moment.scanChar 'T') (c.chars 'T' []) = c.reading.moment? :=
      (parseLocal?_chars h rfl (Moment.scanChar_cons 'T' _)).trans (if_pos rfl)
    have hblank : Moment.parseLocal? (fun cs ↦ some (cs.dropWhile Text.isBlank))
        (c.chars 'T' []) = none := parseLocal?_dateChars_eq_none h rfl
    rw [hchain, hlocal, hblank]
    exact orElse_none _
  · have hlocal : Moment.parseLocal? (Moment.scanChar 'T') (c.chars ' ' []) = none :=
      parseLocal?_dateChars_eq_none h rfl
    have hskipped : some ((' ' :: c.clockChars []).dropWhile Text.isBlank) =
        some (c.clockChars []) := by
      rw [List.dropWhile_cons_of_pos rfl, dropWhile_isBlank_clockChars]
    have hblank : Moment.parseLocal? (fun cs ↦ some (cs.dropWhile Text.isBlank))
        (c.chars ' ' []) = c.reading.moment? :=
      (parseLocal?_chars h rfl hskipped).trans (if_pos rfl)
    rw [hchain, hlocal, hblank]
    exact orElse_none _

/-- A date and a time with an offset are read with their offset or not at all. -/
theorem parse?_zoned (h : c.Fits) (hfront : ∀ c ∈ front, Text.isBlank c = true)
    (hback : ∀ c ∈ back, Text.isBlank c = true) (hsolid : Text.Solid zone)
    (hzone : zone.takeWhile isDigit = []) :
    Moment.parse? (surrounded front back (c.chars 'T' zone)) =
      (Moment.scanOffset zone).bind fun (offset, left) ↦ c.reading.moment?.bind fun m ↦
        if left = [] then some { m with seconds := m.seconds - offset } else none := by
  have hne : zone ≠ [] := by
    rintro rfl
    obtain ⟨inner, last, heq, -⟩ := hsolid
    simp at heq
  have hlocal : Moment.parseLocal? (Moment.scanChar 'T') (c.chars 'T' zone) = none :=
    (parseLocal?_chars h hzone (Moment.scanChar_cons 'T' _)).trans (if_neg hne)
  have hblank : Moment.parseLocal? (fun cs ↦ some (cs.dropWhile Text.isBlank))
      (c.chars 'T' zone) = none := parseLocal?_dateChars_eq_none h rfl
  have hwhole : Text.Solid (c.chars 'T' zone) := solid_chars (.inl hsolid)
  have hchain := parse?_dateChars hfront hback hwhole
  rw [← chars, hlocal, hblank, parseDate?_chars h] at hchain
  rw [hchain, ← parseWithOffset?_chars h (.inl rfl) hzone]
  exact orElse_none _

theorem parse?_utc (h : c.Fits) (hfront : ∀ c ∈ front, Text.isBlank c = true)
    (hback : ∀ c ∈ back, Text.isBlank c = true) :
    Moment.parse? (surrounded front back (c.chars 'T' ['Z'])) = c.reading.moment? := by
  have hsolid : Text.Solid ['Z'] := ⟨[], 'Z', rfl, rfl⟩
  rw [parse?_zoned h hfront hback hsolid rfl, Moment.bind_scanOffset_utc]

/-- An offset is so many minutes ahead of UTC, or behind it. -/
def offsetMinutes (ahead : Bool) (hours minutes : Nat) : Int :=
  if ahead then (hours * 60 + minutes : Nat) else -(hours * 60 + minutes : Nat)

theorem scanOffset_zoneChars (ahead : Bool) {hours minutes : Nat} (hhours : hours < 100)
    (hminutes : minutes < 100) : Moment.scanOffset (zoneChars ahead hours minutes) =
      if hours < 24 ∧ minutes < 60 then some (offsetMinutes ahead hours minutes * 60, [])
      else none := by
  have hhoursRead : Moment.scanDigits 2 2 (padded 2 hours ++ ':' :: padded 2 minutes) =
      some (hours, ':' :: padded 2 minutes) :=
    Moment.scanDigits_padded (Nat.le_refl _) (by decide) hhours _
  have hminutesRead : Moment.scanDigits 2 2 (padded 2 minutes) = some (minutes, []) := by
    have hread := Moment.scanDigits_padded (Nat.le_refl 2) (by decide) hminutes []
    rwa [List.append_nil] at hread
  cases ahead with
  | false =>
    refine Moment.bind_of_eq_some hhoursRead (Moment.bind_of_eq_some (Moment.scanChar_cons _ _) ?_)
    refine Moment.bind_of_eq_some hminutesRead (if_congr Iff.rfl ?_ rfl)
    refine congrArg some (Prod.ext ?_ rfl)
    show -((hours * 3600 + minutes * 60 : Nat) : Int) = -((hours * 60 + minutes : Nat) : Int) * 60
    omega
  | true =>
    refine Moment.bind_of_eq_some hhoursRead (Moment.bind_of_eq_some (Moment.scanChar_cons _ _) ?_)
    refine Moment.bind_of_eq_some hminutesRead (if_congr Iff.rfl ?_ rfl)
    refine congrArg some (Prod.ext ?_ rfl)
    show ((hours * 3600 + minutes * 60 : Nat) : Int) = ((hours * 60 + minutes : Nat) : Int) * 60
    omega

theorem takeWhile_zoneChars (ahead : Bool) (hours minutes : Nat) :
    (zoneChars ahead hours minutes).takeWhile isDigit = [] := by
  cases ahead <;> rfl

theorem solid_zoneChars (ahead : Bool) (hours minutes : Nat) :
    Text.Solid (zoneChars ahead hours minutes) :=
  (((Text.solid_of_isDigit padded_ne_nil fun _ hc ↦ isDigit_of_mem_padded hc).cons _).append
    _).cons _

/-- A date and a time with an offset are read as so many minutes earlier in UTC, if the offset is
less than a day and its minutes less than an hour. -/
theorem parse?_offset (h : c.Fits) (hfront : ∀ c ∈ front, Text.isBlank c = true)
    (hback : ∀ c ∈ back, Text.isBlank c = true) (ahead : Bool) {hours minutes : Nat}
    (hhours : hours < 100) (hminutes : minutes < 100) :
    Moment.parse? (surrounded front back (c.chars 'T' (zoneChars ahead hours minutes))) =
      if hours < 24 ∧ minutes < 60 then c.reading.moment?.map fun m ↦
        { m with seconds := m.seconds - offsetMinutes ahead hours minutes * 60 }
      else none := by
  rw [parse?_zoned h hfront hback (solid_zoneChars ..) (takeWhile_zoneChars ..),
    scanOffset_zoneChars ahead hhours hminutes]
  split_ifs
  · simp only [Option.bind_some, if_true]
    exact Option.map_eq_bind.symm
  · rfl

/-- A date alone is read as its midnight. -/
theorem parse?_date (h : c.Fits) (hfront : ∀ c ∈ front, Text.isBlank c = true)
    (hback : ∀ c ∈ back, Text.isBlank c = true) :
    Moment.parse? (surrounded front back (c.dateChars [])) = c.midnight.reading.moment? := by
  have hsolid : Text.Solid (c.dateChars []) := by
    have hday : Text.Solid (padded 2 c.day ++ []) := by
      rw [List.append_nil]
      exact Text.solid_of_isDigit padded_ne_nil fun _ hc ↦ isDigit_of_mem_padded hc
    exact (((hday.cons _).append _).cons _).append _
  have hlocal : Moment.parseLocal? (Moment.scanChar 'T') (c.dateChars []) = none :=
    parseLocal?_dateChars_eq_none h rfl
  have hblank : Moment.parseLocal? (fun cs ↦ some (cs.dropWhile Text.isBlank)) (c.dateChars []) =
      none := parseLocal?_dateChars_eq_none h rfl
  have hoffset : Moment.parseWithOffset? (c.dateChars []) = none := by
    refine Moment.bind_of_eq_some
      (Moment.scanDigits_padded (Nat.le_refl _) (by decide) h.year_lt _) ?_
    refine Moment.bind_of_eq_some (Moment.scanChar_cons _ _) ?_
    refine Moment.bind_of_eq_some
      (Moment.scanDigits_padded (Nat.le_refl _) (by decide) h.month_lt _) ?_
    refine Moment.bind_of_eq_some (Moment.scanChar_cons _ _) ?_
    exact Moment.bind_of_eq_some
      (Moment.scanDigits_padded (Nat.le_refl _) (by decide) h.day_lt _) rfl
  rw [parse?_dateChars hfront hback hsolid, hoffset, hlocal, hblank, parseDate?_dateChars h,
    if_pos rfl]
  rfl

end Stamp

/-! ### Counts of milliseconds -/

namespace Decimal

theorem writeInt_solid (i : Int) :
    Text.Solid (writeInt i) ∧ ∃ c cs, writeInt i = c :: cs ∧ Text.isBlank c = false := by
  have hsolid : Text.Solid (digits i.natAbs) :=
    Text.solid_of_isDigit (digits_ne_nil _) fun _ hc ↦ isDigit_of_mem_digits hc
  unfold writeInt
  split_ifs
  · exact ⟨hsolid.cons '-', '-', _, rfl, rfl⟩
  · obtain ⟨d, ds, hds⟩ := List.exists_cons_of_ne_nil (digits_ne_nil i.natAbs)
    have hd : isDigit d = true := isDigit_of_mem_digits (hds ▸ List.mem_cons_self)
    exact ⟨hsolid, d, ds, hds, Text.not_isBlank_of_isDigit hd⟩

end Decimal

namespace Stamp

variable {c : Stamp} {front back : List Char}

/-- A count of milliseconds is read as that many milliseconds. -/
theorem parse?_count {i : Int} (hleast : leastSigned ≤ i) (hgreatest : i ≤ greatestSigned)
    (hfront : ∀ c ∈ front, Text.isBlank c = true) (hback : ∀ c ∈ back, Text.isBlank c = true) :
    Moment.parse? (surrounded front back (writeInt i)) = Moment.ofMillis? i := by
  obtain ⟨hsolid, d, ds, hds, hblank⟩ := writeInt_solid i
  have htrim : Text.trim (writeInt i) = writeInt i := by
    rw [hds] at hsolid ⊢
    exact hsolid.trim_eq_self hblank
  rw [Moment.parse?, surrounded, String.toList_ofList, Text.trim_surrounded hfront hback, htrim]
  simp only [readInt?_writeInt, hleast, hgreatest, and_self, if_true]

/-- Years of four digits lie within the years that are kept. -/
theorem millis_bounds (hyear : c.year < 10000) (hminute : c.HasMinute) (hsecond : c.second < 60)
    (hmilli : c.milli < 1000) :
    Moment.leastMillis ≤ c.millis ∧ c.millis ≤ Moment.greatestMillis := by
  have hmonths : ((monthLengths (isLeap c.year)).take (c.month - 1)).sum ≤ 366 := by
    have hall : ∀ leap, ∀ n < 12, ((monthLengths leap).take n).sum ≤ 366 := by decide
    have hmonth := hminute.month_le
    exact hall _ _ (by omega)
  have hyears : daysBeforeYear c.year ≤ daysBeforeYear 9999 := daysBeforeYear_mono (by omega)
  have hlast : daysBeforeYear 9999 = 3652060 := by decide
  have hday := Nat.le_trans hminute.day_le (Date.monthLength_le ..)
  have hhour := hminute.hour_lt
  have hclock := hminute.minute_lt
  have hdays : c.days ≤ 3652060 + 366 + 31 := by
    rw [daysBeforeYear_eq_sum] at hyears
    unfold days
    omega
  simp only [millis, days_epoch, Moment.leastMillis, Moment.greatestMillis, epochDay]
  omega

/-- Whatever the dialect and the blanks around it, a date and time of day is read as the moment
that lies as many milliseconds after the beginning of 1970 as its fields add up to, less the
offset. Where the calendar or the clock has no such day or minute, nothing is read. -/
theorem dialects_agree (h : c.Fits) (hfront : ∀ c ∈ front, Text.isBlank c = true)
    (hback : ∀ c ∈ back, Text.isBlank c = true) :
    (c.HasMinute → c.second < 60 → ∃ m : Moment,
      m = ⟨c.millis / 1000, (c.millis % 1000).toNat * 1000000⟩ ∧
      Moment.parse? (surrounded front back (c.chars 'T' [])) = some m ∧
      Moment.parse? (surrounded front back (c.chars ' ' [])) = some m ∧
      Moment.parse? (surrounded front back (c.chars 'T' ['Z'])) = some m ∧
      (∀ there : Stamp, there.Fits → there.HasMinute → there.second < 60 →
        ∀ ahead hours minutes, hours < 24 → minutes < 60 →
          there.millis - offsetMinutes ahead hours minutes * 60000 = c.millis →
          Moment.parse? (surrounded front back
            (there.chars 'T' (zoneChars ahead hours minutes))) = some m) ∧
      Moment.parse? (surrounded front back (writeInt c.millis)) = some m ∧
      (c = c.midnight → Moment.parse? (surrounded front back (c.dateChars [])) = some m)) ∧
    (¬ c.HasMinute →
      Moment.parse? (surrounded front back (c.chars 'T' [])) = none ∧
      Moment.parse? (surrounded front back (c.chars ' ' [])) = none ∧
      Moment.parse? (surrounded front back (c.chars 'T' ['Z'])) = none) ∧
    (¬ c.HasDay → Moment.parse? (surrounded front back (c.dateChars [])) = none) ∧
    ∀ ahead hours minutes, hours < 100 → minutes < 100 →
      (¬ c.HasMinute ∨ ¬ (hours < 24 ∧ minutes < 60)) →
      Moment.parse? (surrounded front back
        (c.chars 'T' (zoneChars ahead hours minutes))) = none := by
  refine ⟨fun hminute hsecond ↦ ?_, fun hminute ↦ ?_, fun hday ↦ ?_, ?_⟩
  · have hmoment := moment?_reading h.year_lt hminute hsecond h.milli_lt
    refine ⟨_, rfl, ?_, ?_, ?_, ?_, ?_, ?_⟩
    · rw [parse?_joined h hfront hback (.inl rfl), hmoment]
    · rw [parse?_joined h hfront hback (.inr rfl), hmoment]
    · rw [parse?_utc h hfront hback, hmoment]
    · intro there hfits hthere hsecond' ahead hours minutes hhours hminutes hsame
      rw [parse?_offset hfits hfront hback ahead (by omega) (by omega),
        if_pos ⟨hhours, hminutes⟩, moment?_reading hfits.year_lt hthere hsecond' hfits.milli_lt,
        Option.map_some, Option.some.injEq, Moment.mk.injEq]
      dsimp only
      omega
    · obtain ⟨hleast, hgreatest⟩ := millis_bounds h.year_lt hminute hsecond h.milli_lt
      rw [parse?_count (Int.le_trans (by decide) hleast) (Int.le_trans hgreatest (by decide))
        hfront hback]
      exact if_pos ⟨hleast, hgreatest⟩
    · intro hmidnight
      rw [parse?_date h hfront hback, ← hmidnight, hmoment]
  · have hmoment := moment?_reading_eq_none hminute
    exact ⟨by rw [parse?_joined h hfront hback (.inl rfl), hmoment],
      by rw [parse?_joined h hfront hback (.inr rfl), hmoment],
      by rw [parse?_utc h hfront hback, hmoment]⟩
  · rw [parse?_date h hfront hback]
    refine moment?_reading_eq_none fun hminute ↦ hday ?_
    exact ⟨hminute.month_pos, hminute.month_le, hminute.day_pos, hminute.day_le⟩
  · intro ahead hours minutes hhours hminutes hout
    rw [parse?_offset h hfront hback ahead hhours hminutes]
    split_ifs with hoffset
    · have hminute := hout.resolve_right (not_not_intro hoffset)
      rw [moment?_reading_eq_none hminute, Option.map_none]
    · rfl

/-- The midnight that ends a leap day. -/
def marchFirst : Stamp := ⟨2000, 3, 1, 0, 0, 0, 0⟩

/-- The same moment on a clock that is five and a half hours behind. -/
def leapEvening : Stamp := ⟨2000, 2, 29, 18, 30, 0, 0⟩

theorem millis_marchFirst : marchFirst.millis = 951868800000 := by
  rw [millis, days_eq, days_epoch]
  decide

/-- The leap day of the year 2000 ends with the same moment in six dialects, and the year after it
has no such day. -/
theorem dialects_agree_of_marchFirst : marchFirst.Fits ∧ marchFirst.HasMinute ∧
    (∃ m : Moment, m = ⟨951868800, 0⟩ ∧
      Moment.parse? " \t2000-03-01T00:00:00.000\u3000" = some m ∧
      Moment.parse? " \t2000-03-01 00:00:00.000\u3000" = some m ∧
      Moment.parse? " \t2000-03-01T00:00:00.000Z\u3000" = some m ∧
      Moment.parse? " \t2000-02-29T18:30:00.000-05:30\u3000" = some m ∧
      Moment.parse? " \t951868800000\u3000" = some m ∧
      Moment.parse? " \t2000-03-01\u3000" = some m) ∧
    Moment.parse? " \t2001-02-29T00:00:00.000Z\u3000" = none := by
  have hfits : marchFirst.Fits := by constructor <;> decide
  have hfits' : leapEvening.Fits := by constructor <;> decide
  have hminute : marchFirst.HasMinute :=
    ⟨⟨by decide, by decide, by decide, by decide⟩, by decide, by decide⟩
  have hminute' : leapEvening.HasMinute :=
    ⟨⟨by decide, by decide, by decide, by decide⟩, by decide, by decide⟩
  have hsame : leapEvening.millis - offsetMinutes false 5 30 * 60000 = marchFirst.millis := by
    rw [millis_marchFirst, millis, days_eq, days_epoch]
    decide
  have hfront : ∀ c ∈ [' ', '\t'], Text.isBlank c = true := List.all_eq_true.mp (by decide)
  have hback : ∀ c ∈ ['\u3000'], Text.isBlank c = true := List.all_eq_true.mp (by decide)
  refine ⟨hfits, hminute, ?_, ?_⟩
  · obtain ⟨m, hm, hjoined, hblank, hutc, hzoned, hcount, hdate⟩ :=
      (dialects_agree hfits hfront hback).1 hminute (by decide)
    rw [millis_marchFirst] at hm hcount
    exact ⟨m, hm, hjoined, hblank, hutc,
      hzoned leapEvening hfits' hminute' (by decide) false 5 30 (by decide) (by decide) hsame,
      hcount, hdate rfl⟩
  · have hfitsNone : Fits ⟨2001, 2, 29, 0, 0, 0, 0⟩ := by constructor <;> decide
    have hnone : ¬ HasMinute ⟨2001, 2, 29, 0, 0, 0, 0⟩ := fun hminute ↦
      absurd hminute.day_le (by decide)
    exact ((dialects_agree hfitsNone hfront hback).2.1 hnone).2.2

end Stamp

end SearchClient

import HostDrive.Calendar
import Mathlib.Tactic.IntervalCases

/-!
# The Gregorian Calendar

Which years are leap years and how long the months are settles everything else: how many days lie
before a date, and so which date a number of days means. The arithmetic that finds the date of a
day is shown to invert that count.

## Architecture

- `IsLeap` and `monthLength` are the rules; `daysBeforeYear_succ` says that the closed formula for
  the days before a year follows them.
- `CivilDate.number` counts the days from the first of January 1970 to a date. It orders the valid
  dates as a calendar does (`number_lt_number_iff`), so no two of them have the same number.
- `OfEra` places a day of an era: its century, its group of four years, its year and the rest.
- `number_civilOfDay`: the date that is found for a day is valid, and its number is that day.
- `CivilTime.moment` counts seconds; `existsUnique_civilTime` gives every count its civil time.
-/

namespace HostDrive.Calendar

/-! ## Section 1: Years and months -/

/-- **Leap years**: every fourth year, but of the years that end a century only every fourth. -/
def IsLeap (year : Int) : Prop := 4 ∣ year ∧ (100 ∣ year → 400 ∣ year)

instance (year : Int) : Decidable (IsLeap year) := inferInstanceAs (Decidable (_ ∧ _))

def yearLength (year : Int) : Nat := if IsLeap year then 366 else 365

def monthLength (year : Int) : Nat → Nat
  | 2 => if IsLeap year then 29 else 28
  | 4 | 6 | 9 | 11 => 30
  | _ => 31

theorem monthLength_le (year : Int) (month : Nat) : monthLength year month ≤ 31 := by
  unfold monthLength
  split
  · split <;> decide
  all_goals decide

/-- Days from the start of a year to the first of a month. -/
def daysBeforeMonth (year : Int) : Nat → Nat
  | 0 | 1 => 0
  | month + 2 => daysBeforeMonth year (month + 1) + monthLength year (month + 1)

/-- Days from the start of year 1 to the start of a year; negative for earlier years. -/
def daysBeforeYear (year : Int) : Int :=
  365 * (year - 1) + (year - 1) / 4 - (year - 1) / 100 + (year - 1) / 400

/-- Every year adds its length. -/
theorem daysBeforeYear_succ (year : Int) :
    daysBeforeYear (year + 1) = daysBeforeYear year + yearLength year := by
  unfold daysBeforeYear yearLength
  by_cases hleap : IsLeap year
  · rw [if_pos hleap]
    unfold IsLeap at hleap
    omega
  · rw [if_neg hleap]
    unfold IsLeap at hleap
    omega

/-- All eras are alike. -/
theorem daysBeforeYear_era (year era : Int) :
    daysBeforeYear (year + 400 * era) = daysBeforeYear year + eraDays * era := by
  unfold daysBeforeYear eraDays
  omega

theorem yearLength_era (year era : Int) : yearLength (year + 400 * era) = yearLength year := by
  have hleap : IsLeap (year + 400 * era) ↔ IsLeap year := by
    unfold IsLeap
    omega
  simp only [yearLength, hleap]

theorem daysBeforeYear_mono {year later : Int} (h : year ≤ later) :
    daysBeforeYear year ≤ daysBeforeYear later := by
  unfold daysBeforeYear
  omega

/-- The months before a later month include this one. -/
theorem daysBeforeMonth_add_le (year : Int) {month later : Nat} (hmonth : 1 ≤ month)
    (h : month < later) :
    daysBeforeMonth year month + monthLength year month ≤ daysBeforeMonth year later := by
  induction later, h using Nat.le_induction with
  | base =>
    obtain ⟨before, rfl⟩ := Nat.exists_eq_add_of_le' hmonth
    exact Nat.le_refl _
  | succ later hle ih =>
    obtain ⟨before, rfl⟩ := Nat.exists_eq_add_of_le' (Nat.le_trans hmonth (Nat.le_of_succ_le hle))
    exact Nat.le_trans ih (Nat.le_add_right _ _)

/-- Twelve months make a year. -/
theorem daysBeforeMonth_thirteen (year : Int) : daysBeforeMonth year 13 = yearLength year := by
  by_cases hleap : IsLeap year <;> simp [daysBeforeMonth, monthLength, yearLength, hleap]

/-! ## Section 2: Dates by number -/

namespace CivilDate

/-- A date that the calendar has. -/
structure IsValid (d : CivilDate) : Prop where
  one_le_month : 1 ≤ d.month
  month_le : d.month ≤ 12
  one_le_day : 1 ≤ d.day
  day_le : d.day ≤ monthLength d.year d.month

instance (d : CivilDate) : Decidable d.IsValid :=
  decidable_of_iff (1 ≤ d.month ∧ d.month ≤ 12 ∧ 1 ≤ d.day ∧ d.day ≤ monthLength d.year d.month)
    ⟨fun ⟨a, b, c, e⟩ => ⟨a, b, c, e⟩, fun ⟨a, b, c, e⟩ => ⟨a, b, c, e⟩⟩

/-- **The number of a date**: how many days it lies after the first of January 1970. -/
def number (d : CivilDate) : Int :=
  daysBeforeYear d.year + daysBeforeMonth d.year d.month + (d.day - 1) - daysBeforeYear 1970

/-- The order of a calendar: by year, then by month, then by day. -/
def Before (d e : CivilDate) : Prop :=
  d.year < e.year ∨ d.year = e.year ∧ (d.month < e.month ∨ d.month = e.month ∧ d.day < e.day)

/-- A valid date lies within its year. -/
theorem IsValid.number_bounds {d : CivilDate} (h : d.IsValid) :
    daysBeforeYear d.year - daysBeforeYear 1970 ≤ d.number ∧
      d.number < daysBeforeYear (d.year + 1) - daysBeforeYear 1970 := by
  have hday := h.one_le_day
  have hlength := h.day_le
  have hmonth := daysBeforeMonth_add_le d.year h.one_le_month (Nat.lt_succ_of_le h.month_le)
  rw [daysBeforeMonth_thirteen] at hmonth
  rw [number, daysBeforeYear_succ]
  omega

theorem number_lt_number_of_before {d e : CivilDate} (hd : d.IsValid) (he : e.IsValid)
    (h : d.Before e) : d.number < e.number := by
  rcases h with hyear | ⟨hyear, hmonth | ⟨hmonth, hday⟩⟩
  · -- the whole year lies before the later date
    have hle := daysBeforeYear_mono (Int.add_one_le_of_lt hyear)
    have hlast := hd.number_bounds.2
    have hfirst := he.number_bounds.1
    omega
  · have hle := daysBeforeMonth_add_le d.year hd.one_le_month hmonth
    have hlength := hd.day_le
    have hone := he.one_le_day
    rw [number, number, ← hyear]
    omega
  · rw [number, number, ← hyear, ← hmonth]
    omega

theorem before_or_eq_or_before (d e : CivilDate) : d.Before e ∨ d = e ∨ e.Before d := by
  obtain ⟨year, month, day⟩ := d
  obtain ⟨year', month', day'⟩ := e
  simp only [Before, CivilDate.mk.injEq]
  omega

/-- **Numbers order the dates.** -/
theorem number_lt_number_iff {d e : CivilDate} (hd : d.IsValid) (he : e.IsValid) :
    d.number < e.number ↔ d.Before e := by
  refine ⟨fun hlt => ?_, number_lt_number_of_before hd he⟩
  rcases before_or_eq_or_before d e with h | rfl | h
  · exact h
  · exact absurd hlt (Int.lt_irrefl _)
  · exact absurd (number_lt_number_of_before he hd h) (Int.lt_asymm hlt)

theorem eq_of_number_eq {d e : CivilDate} (hd : d.IsValid) (he : e.IsValid)
    (h : d.number = e.number) : d = e := by
  rcases before_or_eq_or_before d e with hbefore | heq | hbefore
  · exact absurd h (Int.ne_of_lt (number_lt_number_of_before hd he hbefore))
  · exact heq
  · exact absurd h.symm (Int.ne_of_lt (number_lt_number_of_before he hd hbefore))

end CivilDate

/-! ## Section 3: The days of an era -/

/-- **A day of an era**: its century, the group of four years in that, the year in the group, and
    the day of that year, which starts in March. The day with the number 365 is a leap day. -/
structure OfEra (day century group year rest : Nat) : Prop where
  century_lt : century < 4
  group_lt : group < 25
  year_lt : year < 4
  rest_lt : rest < 366
  eq : day = 36524 * century + 1461 * group + 365 * year + rest
  leap : rest = 365 → year = 3 ∧ (group = 24 → century = 3)

/-- Centuries, groups and years are counted off one after the other. Only the last century has one
    day more than the others, and only the last year of a group. -/
theorem exists_ofEra {day : Nat} (h : day < 146097) :
    ∃ century group year rest, OfEra day century group year rest := by
  let century := min (day / 36524) 3
  let inCentury := day - 36524 * century
  let group := inCentury / 1461
  let inGroup := inCentury % 1461
  let year := min (inGroup / 365) 3
  have hcentury : 36524 * century + inCentury = day ∧ century < 4 ∧
      (inCentury < 36524 ∨ century = 3 ∧ inCentury = 36524) := by omega
  have hgroup : 1461 * group + inGroup = inCentury := Nat.div_add_mod _ _
  have hyear : 365 * year ≤ inGroup ∧ year < 4 ∧ (inGroup < 365 * (year + 1) ∨ year = 3) := by omega
  have hlt : inGroup < 1461 := Nat.mod_lt _ (by decide)
  exact ⟨century, group, year, inGroup - 365 * year, by omega, by omega, by omega, by omega,
    by omega, by omega⟩

namespace OfEra

variable {day century group year rest : Nat}

/-- The formula for the year takes away the leap days that were. -/
theorem yearOfEra (h : OfEra day century group year rest) :
    (day - day / 1460 + day / 36524 - day / 146096) / 365 = 100 * century + 4 * group + year := by
  obtain ⟨hcentury, hgroup, hyear, hrest, heq, hleap⟩ := h
  have hcenturies : day / 36524 = century + day / 146096 := by
    rcases Nat.lt_or_eq_of_le (show day ≤ 146096 by omega) with hlt | rfl
    · rw [Nat.div_eq_of_lt hlt, Nat.add_zero, Nat.div_eq_iff (by decide)]
      omega
    · -- the last day of the era is counted as a century too many
      omega
  have hdays : day / 1460 = 25 * century + group ∨
      day / 1460 = 25 * century + group + 1 ∧ year = 3 ∧ 365 ≤ 24 * century + group + rest := by
    omega
  have hleapDay : rest = 365 → day / 1460 = 25 * century + group + 1 := by omega
  rw [hcenturies]
  generalize day / 146096 = last at *
  omega

/-- The years before this one have as many days as they should, and the rest fits this one. -/
theorem day_eq (h : OfEra day century group year rest) :
    (day : Int) = daysBeforeYear ((100 * century + 4 * group + year : Nat) + 1) + rest ∧
      rest < yearLength ((100 * century + 4 * group + year : Nat) + 1) := by
  obtain ⟨hcentury, hgroup, hyear, hrest, heq, hleap⟩ := h
  constructor
  · unfold daysBeforeYear
    omega
  · unfold yearLength
    split
    · exact hrest
    · rename_i hnot
      unfold IsLeap at hnot
      omega

end OfEra

/-! ## Section 4: Months from March -/

/-- The months lie in the year at distances of thirty days and a bit more than a half. -/
theorem marchMonth_bounds {dayOfYear : Nat} (h : dayOfYear < 366) :
    (5 * dayOfYear + 2) / 153 < 12 ∧
      (153 * ((5 * dayOfYear + 2) / 153) + 2) / 5 ≤ dayOfYear ∧
      dayOfYear < (153 * ((5 * dayOfYear + 2) / 153 + 1) + 2) / 5 := by
  omega

/-- From March on, the months that the formula counts are those of the calendar. -/
theorem daysBeforeMonth_spring (year : Int) {month : Nat} (h : month < 10) :
    daysBeforeMonth year (month + 3) + 306 = (153 * month + 2) / 5 + yearLength year ∧
      monthLength year (month + 3) = (153 * (month + 1) + 2) / 5 - (153 * month + 2) / 5 := by
  by_cases hleap : IsLeap year <;> interval_cases month <;>
    simp [daysBeforeMonth, monthLength, yearLength, hleap]

/-- January and February come at the end of the year before. -/
theorem daysBeforeMonth_winter (year : Int) :
    daysBeforeMonth year 1 = 0 ∧ daysBeforeMonth year 2 = 31 ∧ monthLength year 1 = 31 ∧
      monthLength year 2 + 337 = yearLength year := by
  by_cases hleap : IsLeap year <;> simp [daysBeforeMonth, monthLength, yearLength, hleap]

/-! ## Section 5: The date of a day -/

/-- The date of a day of the year that starts in March of this year. -/
def fromMarch (year : Int) (dayOfYear : Nat) : CivilDate :=
  let marchMonth := (5 * dayOfYear + 2) / 153
  let month := if marchMonth < 10 then marchMonth + 3 else marchMonth - 9
  { year := year + (if month ≤ 2 then 1 else 0)
    month := month
    day := dayOfYear - (153 * marchMonth + 2) / 5 + 1 }

/-- Such a year is as long as the one whose February it has. The first of January lies in it 306
    days from its start. -/
theorem number_fromMarch (year : Int) {dayOfYear : Nat} (h : dayOfYear < yearLength (year + 1)) :
    (fromMarch year dayOfYear).IsValid ∧ (fromMarch year dayOfYear).number =
      daysBeforeYear (year + 1) + dayOfYear - 306 - daysBeforeYear 1970 := by
  have hlong : yearLength (year + 1) ≤ 366 := by
    unfold yearLength
    split <;> decide
  obtain ⟨hmonth, hfirst, hnext⟩ := marchMonth_bounds (Nat.lt_of_lt_of_le h hlong)
  unfold fromMarch
  generalize (5 * dayOfYear + 2) / 153 = month at *
  by_cases hspring : month < 10
  · -- March to December, in the year itself
    obtain ⟨hbefore, hlength⟩ := daysBeforeMonth_spring year hspring
    have hyear := daysBeforeYear_succ year
    simp only [hspring, if_true, show ¬ month + 3 ≤ 2 by omega, if_false, Int.add_zero]
    refine ⟨⟨?_, ?_, ?_, ?_⟩, ?_⟩ <;> dsimp only [CivilDate.number] <;> omega
  · -- January and February, in the year after it
    obtain ⟨hjanuary, hfebruary, hlong, hshort⟩ := daysBeforeMonth_winter (year + 1)
    simp only [hspring, if_false, show month - 9 ≤ 2 by omega, if_true]
    obtain rfl | rfl : month = 10 ∨ month = 11 := by omega
    · refine ⟨⟨?_, ?_, ?_, ?_⟩, ?_⟩ <;> dsimp only [CivilDate.number, Nat.reduceSub] <;> omega
    · refine ⟨⟨?_, ?_, ?_, ?_⟩, ?_⟩ <;> dsimp only [CivilDate.number, Nat.reduceSub] <;> omega

/-- The formulas find the year of a day of an era, and what is left of that day in this year. -/
theorem civilOfDay_eq (days : Int) {century group year rest : Nat}
    (h : OfEra ((days + epochDay).fmod eraDays).toNat century group year rest) :
    civilOfDay days = fromMarch
      ((100 * century + 4 * group + year : Nat) + (days + epochDay).fdiv eraDays * 400) rest := by
  have hday := h.day_eq.1
  have hleft : ((days + epochDay).fmod eraDays).toNat - (365 * (100 * century + 4 * group + year) +
      (100 * century + 4 * group + year) / 4 - (100 * century + 4 * group + year) / 100) = rest := by
    have hcount : 100 * century + 4 * group + year < 400 := by
      have := h.century_lt
      have := h.group_lt
      have := h.year_lt
      omega
    generalize 100 * century + 4 * group + year = count at *
    generalize ((days + epochDay).fmod eraDays).toNat = dayOfEra at *
    rw [daysBeforeYear, Int.add_sub_cancel] at hday
    omega
  rw [← hleft, ← h.yearOfEra]
  rfl

/-- **The date of a day** is valid, and has the number of that day. -/
theorem number_civilOfDay (days : Int) :
    (civilOfDay days).IsValid ∧ (civilOfDay days).number = days := by
  have hpos : (0 : Int) < eraDays := by decide
  have hnonneg := Int.fmod_nonneg_of_pos (days + epochDay) hpos
  have hlt : ((days + epochDay).fmod eraDays).toNat < 146097 :=
    (Int.toNat_lt hnonneg).mpr (Int.fmod_lt_of_pos _ hpos)
  have hsum := Int.mul_fdiv_add_fmod (days + epochDay) eraDays
  rw [← Int.toNat_of_nonneg hnonneg] at hsum
  obtain ⟨century, group, year, rest, hplace⟩ := exists_ofEra hlt
  obtain ⟨hday, hrest⟩ := hplace.day_eq
  rw [civilOfDay_eq days hplace]
  generalize 100 * century + 4 * group + year = count at *
  generalize (days + epochDay).fdiv eraDays = era at *
  have hera : (count : Int) + era * 400 + 1 = (count : Int) + 1 + 400 * era := by omega
  obtain ⟨hvalid, hnumber⟩ := number_fromMarch ((count : Int) + era * 400)
    (by rwa [hera, yearLength_era])
  refine ⟨hvalid, ?_⟩
  rw [hnumber, hera, daysBeforeYear_era]
  have hepoch : epochDay = daysBeforeYear 1970 + 306 := by decide
  omega

/-! ## Section 6: Civil times -/

namespace CivilTime

/-- A time that the calendar and the clock have. -/
structure IsValid (t : CivilTime) : Prop where
  date : t.date.IsValid
  hour_lt : t.hour < 24
  minute_lt : t.minute < 60
  second_lt : t.second < 60

instance (t : CivilTime) : Decidable t.IsValid :=
  decidable_of_iff (t.date.IsValid ∧ t.hour < 24 ∧ t.minute < 60 ∧ t.second < 60)
    ⟨fun ⟨a, b, c, e⟩ => ⟨a, b, c, e⟩, fun ⟨a, b, c, e⟩ => ⟨a, b, c, e⟩⟩

/-- Seconds since midnight. -/
def clock (t : CivilTime) : Nat := 3600 * t.hour + 60 * t.minute + t.second

/-- **The moment of a civil time** in UTC: how many seconds it lies after the start of 1970. -/
def moment (t : CivilTime) : Int := 86400 * t.date.number + t.clock

theorem IsValid.clock_lt {t : CivilTime} (h : t.IsValid) : t.clock < 86400 := by
  obtain ⟨-, hhour, hminute, hsecond⟩ := h
  unfold clock
  omega

/-- A moment belongs to one civil time only. -/
theorem eq_of_moment_eq {t u : CivilTime} (ht : t.IsValid) (hu : u.IsValid)
    (h : t.moment = u.moment) : t = u := by
  have htlt := ht.clock_lt
  have hult := hu.clock_lt
  -- the time of day fills no whole day
  have hnumber : t.date.number = u.date.number := by
    unfold moment at h
    omega
  have hclock : t.clock = u.clock := by
    unfold moment at h
    omega
  have hdate := CivilDate.eq_of_number_eq ht.date hu.date hnumber
  obtain ⟨-, hhour, hminute, hsecond⟩ := ht
  obtain ⟨-, hhour', hminute', hsecond'⟩ := hu
  obtain ⟨date, hour, minute, second⟩ := t
  obtain ⟨date', hour', minute', second'⟩ := u
  simp only [clock] at hclock hhour hminute hsecond hhour' hminute' hsecond'
  simp only [CivilTime.mk.injEq]
  exact ⟨hdate, by omega, by omega, by omega⟩

theorem moment_ofMoment (moment : Int) :
    (ofMoment moment).IsValid ∧ (ofMoment moment).moment = moment := by
  have hpos : (0 : Int) < 86400 := by decide
  have hsum := Int.mul_fdiv_add_fmod moment 86400
  have hclock := Int.toNat_of_nonneg (Int.fmod_nonneg_of_pos moment hpos)
  have hlt : (moment.fmod 86400).toNat < 86400 :=
    (Int.toNat_lt (Int.fmod_nonneg_of_pos moment hpos)).mpr (Int.fmod_lt_of_pos moment hpos)
  obtain ⟨hvalid, hnumber⟩ := number_civilOfDay (moment.fdiv 86400)
  unfold ofMoment
  generalize (moment.fmod 86400).toNat = clock at *
  have hhour : clock / 3600 < 24 := by omega
  refine ⟨⟨hvalid, hhour, Nat.mod_lt _ (by decide), Nat.mod_lt _ (by decide)⟩, ?_⟩
  simp only [CivilTime.moment, CivilTime.clock, hnumber]
  omega

end CivilTime

/-- **Every moment has exactly one civil time**, `CivilTime.ofMoment`. -/
theorem existsUnique_civilTime (moment : Int) :
    ∃! t : CivilTime, t.IsValid ∧ t.moment = moment := by
  obtain ⟨hvalid, hmoment⟩ := CivilTime.moment_ofMoment moment
  refine ⟨CivilTime.ofMoment moment, ⟨hvalid, hmoment⟩, fun u ⟨huvalid, hu⟩ => ?_⟩
  exact CivilTime.eq_of_moment_eq huvalid hvalid (hu.trans hmoment.symm)

end HostDrive.Calendar

namespace HostDrive

open Calendar

/-- The civil time that the fields of a stamp spell, whether the calendar has it or not. -/
def Timestamp.civil (t : Timestamp) : CivilTime where
  date := ⟨t.year.toNat, t.month.toNat, t.day.toNat⟩
  hour := t.hour.toNat
  minute := t.minute.toNat
  second := t.second.toNat

end HostDrive

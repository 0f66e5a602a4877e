import HostDrive.Timestamp

/-!
# Civil Dates

Host files carry their time of last modification as seconds since the start of 1970. This module
turns such a count into a civil date of the Gregorian calendar, extended over all years, and a
time of day in UTC.

Years are counted in eras of 400 years, which all have the same number of days. Inside an era the
year starts in March, so that the leap day comes last and month lengths follow one formula.
-/

namespace HostDrive.Calendar

/-- A date of the Gregorian calendar. -/
structure CivilDate where
  year : Int
  month : Nat
  day : Nat
  deriving DecidableEq, Repr

/-- Days in an era of 400 years. -/
def eraDays : Int := 146097

/-- Days from the first of March of year 0 to the first of January 1970. -/
def epochDay : Int := 719468

/-- The civil date that lies this many days after the first of January 1970. -/
def civilOfDay (days : Int) : CivilDate :=
  let shifted := days + epochDay
  let era := shifted.fdiv eraDays
  let dayOfEra := (shifted.fmod eraDays).toNat
  let yearOfEra := (dayOfEra - dayOfEra / 1460 + dayOfEra / 36524 - dayOfEra / 146096) / 365
  let dayOfYear := dayOfEra - (365 * yearOfEra + yearOfEra / 4 - yearOfEra / 100)
  let marchMonth := (5 * dayOfYear + 2) / 153
  let month := if marchMonth < 10 then marchMonth + 3 else marchMonth - 9
  { year := (yearOfEra : Int) + era * 400 + (if month ≤ 2 then 1 else 0)
    month := month
    day := dayOfYear - (153 * marchMonth + 2) / 5 + 1 }

/-- A date with a time of day. -/
structure CivilTime where
  date : CivilDate
  hour : Nat
  minute : Nat
  second : Nat
  deriving DecidableEq, Repr

/-- The civil time of a moment: its day, and what is left of it in hours, minutes and seconds. -/
def CivilTime.ofMoment (moment : Int) : CivilTime :=
  let clock := (moment.fmod 86400).toNat
  { date := civilOfDay (moment.fdiv 86400)
    hour := clock / 3600
    minute := clock / 60 % 60
    second := clock % 60 }

/-! ## Stamps -/

/-- A year as a time stamp stores it: 0 for a year that needs more than sixteen bits. -/
def stampYear (year : Int) : UInt16 :=
  if 0 ≤ year ∧ year < 65536 then UInt16.ofNat year.toNat else 0

/-- The stamp of a civil time, field by field. -/
def CivilTime.stamp (t : CivilTime) : Timestamp where
  year := stampYear t.date.year
  month := UInt8.ofNat t.date.month
  day := UInt8.ofNat t.date.day
  hour := UInt8.ofNat t.hour
  minute := UInt8.ofNat t.minute
  second := UInt8.ofNat t.second

/-- The wall-clock time in UTC, this many seconds after the start of 1970. -/
def ofUnixSeconds (seconds : Int) : Timestamp := (CivilTime.ofMoment seconds).stamp

end HostDrive.Calendar

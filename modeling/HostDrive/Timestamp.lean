import HostDrive.Bytes

/-!
# Time Stamps

A time stamp is a wall-clock time whose fields are taken as they are. The guest stores it packed
into two words:

- **time**: `hhhhhmmm mmmsssss`, with the seconds halved;
- **date**: `yyyyyyym mmmddddd`, with the year counted from 1980.

A field that is too wide loses its high bits; only the year is clamped instead.
-/

namespace HostDrive

/-- A wall-clock time, fields not validated. -/
structure Timestamp where
  year : UInt16 := 0
  month : UInt8 := 0
  day : UInt8 := 0
  hour : UInt8 := 0
  minute : UInt8 := 0
  second : UInt8 := 0
  deriving DecidableEq, Repr, Inhabited

/-- A time stamp in the guest's two words. -/
structure PackedStamp where
  time : UInt16
  date : UInt16
  deriving DecidableEq, Repr

/-- First year that a packed date can hold. -/
def epochYear : Nat := 1980

/-- Last year that a packed date can hold. -/
def lastYear : Nat := 2107

/-- The nearest year that a packed date can hold. -/
def clampYear (year : Nat) : Nat := max epochYear (min lastYear year)

namespace Timestamp

/-- The two words for a time stamp. -/
def pack (t : Timestamp) : PackedStamp where
  time := UInt16.ofNat
    (t.hour.toNat % 32 * 2048 + t.minute.toNat % 64 * 32 + t.second.toNat / 2 % 32)
  date := UInt16.ofNat
    ((clampYear t.year.toNat - epochYear) * 512 + t.month.toNat % 16 * 32 + t.day.toNat % 32)

end Timestamp

namespace PackedStamp

/-- The time stamp that two words mean. -/
def unpack (p : PackedStamp) : Timestamp where
  year := UInt16.ofNat (epochYear + p.date.toNat / 512)
  month := UInt8.ofNat (p.date.toNat / 32 % 16)
  day := UInt8.ofNat (p.date.toNat % 32)
  hour := UInt8.ofNat (p.time.toNat / 2048)
  minute := UInt8.ofNat (p.time.toNat / 32 % 64)
  second := UInt8.ofNat (p.time.toNat % 32 * 2)

/-- The four bytes of the two words, time first, each word low byte first. -/
def bytes (p : PackedStamp) : List UInt8 :=
  [Bytes.low p.time, Bytes.high p.time, Bytes.low p.date, Bytes.high p.date]

/-- The two words in four bytes; bytes that are missing count as zero. -/
def ofBytes (b : List UInt8) : PackedStamp where
  time := Bytes.word (b.getD 0 0) (b.getD 1 0)
  date := Bytes.word (b.getD 2 0) (b.getD 3 0)

end PackedStamp

end HostDrive

import HostDrive.Proofs.Calendar
import HostDrive.Proofs.Timestamp

/-!
# The Order of Packed Stamps

A program that sorts files by age compares the two words of their stamps as numbers and never looks
at a calendar. For the times that a stamp can hold this is right up to its resolution of two
seconds.

## Architecture

- `Timestamp.IsStorable` are the times that a stamp can hold; `IsStorable.normalised_eq` says what
  it keeps of them.
- `PackedStamp.Before` compares the words, the date first.
- `date_lt_iff` and `time_lt_iff` take the words one by one, `before_iff` puts them together.
-/

namespace HostDrive

open Calendar

/-! ## Section 1: Times that a stamp can hold -/

/-- A time that the calendar has, in a year that a packed date can hold. -/
structure Timestamp.IsStorable (t : Timestamp) : Prop where
  valid : t.civil.IsValid
  first : epochYear ≤ t.year.toNat
  last : t.year.toNat ≤ lastYear

instance (t : Timestamp) : Decidable t.IsStorable :=
  decidable_of_iff (t.civil.IsValid ∧ epochYear ≤ t.year.toNat ∧ t.year.toNat ≤ lastYear)
    ⟨fun ⟨a, b, c⟩ => ⟨a, b, c⟩, fun ⟨a, b, c⟩ => ⟨a, b, c⟩⟩

namespace Timestamp.IsStorable

variable {t u : Timestamp}

/-- The fields of such a time, as numbers. -/
theorem bounds (h : t.IsStorable) :
    (1 ≤ t.month.toNat ∧ t.month.toNat ≤ 12) ∧ (1 ≤ t.day.toNat ∧ t.day.toNat ≤ 31) ∧
      t.hour.toNat < 24 ∧ t.minute.toNat < 60 ∧ t.second.toNat < 60 :=
  have hday := h.valid.date.day_le
  ⟨⟨h.valid.date.one_le_month, h.valid.date.month_le⟩,
    ⟨h.valid.date.one_le_day, Nat.le_trans hday (monthLength_le _ _)⟩,
    h.valid.hour_lt, h.valid.minute_lt, h.valid.second_lt⟩

theorem clampYear_eq (h : t.IsStorable) : clampYear t.year.toNat = t.year.toNat := by
  rw [clampYear, Nat.min_eq_right h.last, Nat.max_eq_right h.first]

/-- **A stamp keeps such a time** up to an odd second. -/
theorem normalised_eq (h : t.IsStorable) :
    t.normalised = { t with second := t.second / 2 * 2 } := by
  obtain ⟨⟨-, hmonth⟩, ⟨-, hday⟩, hhour, hminute, hsecond⟩ := h.bounds
  have heven : t.second.toNat / 2 % 32 * 2 = (t.second / 2 * 2).toNat := by
    simp only [UInt8.toNat_mul, UInt8.toNat_div, UInt8.reduceToNat]
    omega
  rw [normalised, h.clampYear_eq, Nat.mod_eq_of_lt (by omega), Nat.mod_eq_of_lt (by omega),
    Nat.mod_eq_of_lt (by omega), Nat.mod_eq_of_lt (by omega), heven]
  simp only [UInt16.ofNat_toNat, UInt8.ofNat_toNat]

/-! ## Section 2: The words of such a time -/

theorem toNat_time (h : t.IsStorable) :
    t.pack.time.toNat = t.hour.toNat * 2048 + t.minute.toNat * 32 + t.second.toNat / 2 := by
  obtain ⟨-, -, hhour, hminute, hsecond⟩ := h.bounds
  rw [toNat_pack_time]
  omega

theorem toNat_date (h : t.IsStorable) :
    t.pack.date.toNat = (t.year.toNat - 1980) * 512 + t.month.toNat * 32 + t.day.toNat := by
  obtain ⟨⟨-, hmonth⟩, ⟨-, hday⟩, -⟩ := h.bounds
  rw [toNat_pack_date, h.clampYear_eq]
  omega

/-- The time words are ordered as the pairs of seconds since midnight are. -/
theorem time_lt_iff (ht : t.IsStorable) (hu : u.IsStorable) :
    t.pack.time < u.pack.time ↔ t.civil.clock / 2 < u.civil.clock / 2 := by
  obtain ⟨-, -, -, hminute, hsecond⟩ := ht.bounds
  obtain ⟨-, -, -, hminute', hsecond'⟩ := hu.bounds
  have hclock : t.civil.clock / 2 =
      1800 * t.hour.toNat + 30 * t.minute.toNat + t.second.toNat / 2 := by
    simp only [CivilTime.clock, civil]
    omega
  have hclock' : u.civil.clock / 2 =
      1800 * u.hour.toNat + 30 * u.minute.toNat + u.second.toNat / 2 := by
    simp only [CivilTime.clock, civil]
    omega
  rw [UInt16.lt_iff_toNat_lt, ht.toNat_time, hu.toNat_time, hclock, hclock']
  omega

/-- The date words are ordered as the calendar orders the dates. -/
theorem date_lt_iff (ht : t.IsStorable) (hu : u.IsStorable) :
    t.pack.date < u.pack.date ↔ t.civil.date.number < u.civil.date.number := by
  obtain ⟨⟨-, hmonth⟩, ⟨-, hday⟩, -⟩ := ht.bounds
  obtain ⟨⟨-, hmonth'⟩, ⟨-, hday'⟩, -⟩ := hu.bounds
  have hfirst := ht.first
  have hfirst' := hu.first
  rw [CivilDate.number_lt_number_iff ht.valid.date hu.valid.date, UInt16.lt_iff_toNat_lt,
    ht.toNat_date, hu.toNat_date]
  simp only [CivilDate.Before, civil, epochYear] at *
  omega

theorem date_eq_iff (ht : t.IsStorable) (hu : u.IsStorable) :
    t.pack.date = u.pack.date ↔ t.civil.date.number = u.civil.date.number := by
  have hlt := ht.date_lt_iff hu
  have hgt := hu.date_lt_iff ht
  rw [UInt16.lt_iff_toNat_lt] at hlt hgt
  rw [← UInt16.toNat_inj]
  omega

end Timestamp.IsStorable

/-! ## Section 3: The order -/

/-- The order of the two words, the date word first. -/
def PackedStamp.Before (p q : PackedStamp) : Prop :=
  p.date < q.date ∨ p.date = q.date ∧ p.time < q.time

/-- One stamp comes before another if it is at least one step of two seconds earlier. -/
theorem Timestamp.IsStorable.before_iff {t u : Timestamp} (ht : t.IsStorable)
    (hu : u.IsStorable) :
    t.pack.Before u.pack ↔ t.civil.moment / 2 < u.civil.moment / 2 := by
  have htclock := ht.valid.clock_lt
  have huclock := hu.valid.clock_lt
  rw [PackedStamp.Before, ht.date_lt_iff hu, ht.date_eq_iff hu, ht.time_lt_iff hu]
  -- a day has an even number of seconds, so each step belongs to one day
  simp only [CivilTime.moment]
  omega

/-- **Packed stamps.** No four bytes are lost by reading them as a time, no time is changed by
    packing beyond what `Timestamp.normalised` says, and for the times that a stamp can hold only an
    odd second changes and the words are ordered chronologically. -/
theorem packed_stamps_faithful :
    (∀ b₀ b₁ b₂ b₃,
      (PackedStamp.ofBytes [b₀, b₁, b₂, b₃]).unpack.pack.bytes = [b₀, b₁, b₂, b₃]) ∧
    (∀ t : Timestamp, (PackedStamp.ofBytes t.pack.bytes).unpack = t.normalised) ∧
    (∀ t : Timestamp, t.IsStorable →
      (PackedStamp.ofBytes t.pack.bytes).unpack = { t with second := t.second / 2 * 2 }) ∧
    ∀ t u : Timestamp, t.IsStorable → u.IsStorable →
      (t.pack.Before u.pack ↔ t.civil.moment / 2 < u.civil.moment / 2) := by
  have hread : ∀ t : Timestamp, (PackedStamp.ofBytes t.pack.bytes).unpack = t.normalised :=
    fun t => by rw [PackedStamp.ofBytes_bytes, Timestamp.unpack_pack]
  refine ⟨fun b₀ b₁ b₂ b₃ => ?_, hread, fun t ht => ?_, fun t u => Timestamp.IsStorable.before_iff⟩
  · rw [PackedStamp.pack_unpack, PackedStamp.bytes_ofBytes]
  · rw [hread, ht.normalised_eq]

/-- The last second of a leap day, and the first of the day after it. -/
theorem packed_stamps_faithful_leap_day :
    let leapDay : Timestamp := ⟨2024, 2, 29, 23, 59, 59⟩
    let nextDay : Timestamp := ⟨2024, 3, 1, 0, 0, 0⟩
    leapDay.IsStorable ∧ nextDay.IsStorable ∧
    (PackedStamp.ofBytes leapDay.pack.bytes).unpack = { leapDay with second := 58 } ∧
    leapDay.pack.Before nextDay.pack := by
  intro leapDay nextDay
  obtain ⟨-, -, hkept, horder⟩ := packed_stamps_faithful
  have hleap : leapDay.IsStorable := by decide
  have hnext : nextDay.IsStorable := by decide
  have hearlier : leapDay.civil.moment / 2 < nextDay.civil.moment / 2 := by decide
  exact ⟨hleap, hnext, (hkept leapDay hleap).trans (by decide),
    (horder leapDay nextDay hleap hnext).mpr hearlier⟩

end HostDrive

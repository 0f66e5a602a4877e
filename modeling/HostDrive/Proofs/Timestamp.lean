import HostDrive.Proofs.Bytes
import HostDrive.Timestamp

/-!
# Packed Time Stamps Read Back

A packed stamp has room for some times only. `Timestamp.normalised` is the time that is left of any
other, said field by field and without the two words. `Timestamp.bytes_pack` says which fields share
a byte.
-/

namespace HostDrive

/-- What a packed stamp keeps of a time: the nearest year that it can hold, the low bits of the
    other fields, and an even second. -/
def Timestamp.normalised (t : Timestamp) : Timestamp where
  year := UInt16.ofNat (clampYear t.year.toNat)
  month := UInt8.ofNat (t.month.toNat % 16)
  day := UInt8.ofNat (t.day.toNat % 32)
  hour := UInt8.ofNat (t.hour.toNat % 32)
  minute := UInt8.ofNat (t.minute.toNat % 64)
  second := UInt8.ofNat (t.second.toNat / 2 % 32 * 2)

theorem clampYear_bounds (year : Nat) : epochYear ≤ clampYear year ∧ clampYear year ≤ lastYear := by
  simp only [clampYear, epochYear, lastYear]
  omega

namespace Timestamp

theorem toNat_pack_time (t : Timestamp) :
    t.pack.time.toNat =
      t.hour.toNat % 32 * 2048 + t.minute.toNat % 64 * 32 + t.second.toNat / 2 % 32 := by
  simp only [pack, UInt16.toNat_ofNat']
  omega

/-- The bounds of the year keep it in the seven bits that it has. -/
theorem toNat_pack_date (t : Timestamp) :
    t.pack.date.toNat =
      (clampYear t.year.toNat - 1980) * 512 + t.month.toNat % 16 * 32 + t.day.toNat % 32 := by
  obtain ⟨hfirst, hlast⟩ := clampYear_bounds t.year.toNat
  simp only [epochYear, lastYear] at hfirst hlast
  simp only [pack, epochYear, UInt16.toNat_ofNat']
  omega

/-- **The four bytes of a stamp**, each put together from the fields that share it. -/
theorem bytes_pack (t : Timestamp) :
    let year := UInt8.ofNat (clampYear t.year.toNat - epochYear)
    let month := t.month &&& 0x0F
    let day := t.day &&& 0x1F
    let hour := t.hour &&& 0x1F
    let minute := t.minute &&& 0x3F
    let seconds := (t.second / 2) &&& 0x1F
    t.pack.bytes =
      [(minute &&& 0x07) <<< 5 ||| seconds, hour <<< 3 ||| minute >>> 3,
        (month &&& 0x07) <<< 5 ||| day, year <<< 1 ||| month >>> 3] := by
  intro year month day hour minute seconds
  obtain ⟨hfirst, hlast⟩ := clampYear_bounds t.year.toNat
  have hyear : year.toNat = clampYear t.year.toNat - 1980 := by
    simp only [year, epochYear, lastYear, UInt8.toNat_ofNat'] at *
    omega
  have hmonth : month.toNat = t.month.toNat % 16 := Nat.and_two_pow_sub_one_eq_mod _ 4
  have hday : day.toNat = t.day.toNat % 32 := Nat.and_two_pow_sub_one_eq_mod _ 5
  have hhour : hour.toNat = t.hour.toNat % 32 := Nat.and_two_pow_sub_one_eq_mod _ 5
  have hminute : minute.toNat = t.minute.toNat % 64 := Nat.and_two_pow_sub_one_eq_mod _ 6
  have hseconds : seconds.toNat = t.second.toNat / 2 % 32 := Nat.and_two_pow_sub_one_eq_mod _ 5
  -- the fields that are split between two bytes
  have hlow : ∀ b : UInt8, (b &&& 0x07).toNat = b.toNat % 8 :=
    fun b => Nat.and_two_pow_sub_one_eq_mod _ 3
  have hhigh : ∀ b : UInt8, (b >>> 3).toNat = b.toNat / 8 :=
    fun b => Nat.shiftRight_eq_div_pow _ 3
  have htime := t.toNat_pack_time
  have hdate := t.toNat_pack_date
  refine congrArg₂ _ (Bytes.eq_shiftLeft_or (k := 5) (by decide) (by omega) ?_)
    (congrArg₂ _ (Bytes.eq_shiftLeft_or (k := 3) (by decide) ?_ ?_)
      (congrArg₂ _ (Bytes.eq_shiftLeft_or (k := 5) (by decide) (by omega) ?_)
        (congrArg₂ _ (Bytes.eq_shiftLeft_or (k := 1) (by decide) ?_ ?_) rfl)))
  all_goals
    simp only [Bytes.low, Bytes.high, UInt8.toNat_ofNat', hlow, hhigh]
    omega

/-- **Packing normalises.** A time that was packed reads back as the normalised time. -/
theorem unpack_pack (t : Timestamp) : t.pack.unpack = t.normalised := by
  have hfirst := (clampYear_bounds t.year.toNat).1
  simp only [epochYear] at hfirst
  simp only [PackedStamp.unpack, normalised, toNat_pack_time, toNat_pack_date, epochYear,
    Timestamp.mk.injEq]
  refine ⟨congrArg UInt16.ofNat ?_, congrArg UInt8.ofNat ?_, congrArg UInt8.ofNat ?_,
    congrArg UInt8.ofNat ?_, congrArg UInt8.ofNat ?_, congrArg UInt8.ofNat ?_⟩ <;> omega

end Timestamp

namespace PackedStamp

@[simp] theorem ofBytes_bytes (p : PackedStamp) : ofBytes p.bytes = p := by
  simp [ofBytes, bytes]

/-- Any four bytes are the bytes of a stamp. -/
theorem bytes_ofBytes (b₀ b₁ b₂ b₃ : UInt8) :
    (ofBytes [b₀, b₁, b₂, b₃]).bytes = [b₀, b₁, b₂, b₃] := by
  simp [ofBytes, bytes]

/-- **Stamps lose nothing.** The words use all their bits, and the time they mean has room for each
    field. -/
theorem pack_unpack (p : PackedStamp) : p.unpack.pack = p := by
  have htime := p.time.toNat_lt
  have hdate := p.date.toNat_lt
  obtain ⟨time, date⟩ := p
  simp only [Timestamp.pack, unpack, epochYear, lastYear, clampYear, UInt16.toNat_ofNat',
    UInt8.toNat_ofNat', PackedStamp.mk.injEq, ← UInt16.toNat_inj] at htime hdate ⊢
  constructor <;> omega

end PackedStamp

end HostDrive

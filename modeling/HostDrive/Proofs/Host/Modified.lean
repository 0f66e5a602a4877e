import HostDrive.Host.FileTree
import HostDrive.Proofs.Calendar
import HostDrive.Proofs.InfoBlock

/-!
# Times of Last Modification

A file tree keeps its times as seconds, a guest reads years. On the way the year is first cut to
sixteen bits and only then clamped to what a packed date can hold. The cut takes a year that does
not fit for year 0, so the clamp raises it to 1980, be it from long before or from long after.

## Architecture

- `CivilTime.keptIn` is what a guest sees of a civil time, in a year that is left open.
- `clampYear_stampYear` settles that year; `civil_normalised_stamp` settles the other fields.
-/

namespace HostDrive

namespace Calendar

/-! ## Section 1: Stamps of civil times -/

/-- A time as a guest sees it if it sees this year: month, day, hour and minute as they are, and an
    even second. -/
def CivilTime.keptIn (year : Int) (t : CivilTime) : CivilTime where
  date := { t.date with year := year }
  hour := t.hour
  minute := t.minute
  second := t.second / 2 * 2

/-! ## Section 2: The year -/

/-- **The cut year, clamped**, is the clamped year only below 65536. -/
theorem clampYear_stampYear (year : Int) :
    (clampYear (stampYear year).toNat : Int) =
      if year < 65536 then max 1980 (min 2107 year) else 1980 := by
  unfold stampYear clampYear epochYear lastYear
  by_cases hneg : year < 0
  · -- year 0 stands for every earlier year, and both are clamped to the first
    rw [if_neg (by omega), if_pos (by omega), UInt16.toNat_zero]
    omega
  by_cases hlarge : year < 65536
  · rw [if_pos ⟨by omega, hlarge⟩, if_pos hlarge, UInt16.toNat_ofNat']
    omega
  · rw [if_neg (by omega), if_neg hlarge, UInt16.toNat_zero]
    omega

/-! ## Section 3: The other fields -/

/-- A packed stamp shows the fields of a valid time, apart from its year and an odd second. -/
theorem civil_normalised_stamp {t : CivilTime} (h : t.IsValid) :
    t.stamp.normalised.civil = t.keptIn (clampYear (stampYear t.date.year).toNat) := by
  obtain ⟨hdate, hhour, hminute, hsecond⟩ := h
  have hmonth := hdate.month_le
  have hday := Nat.le_trans hdate.day_le (monthLength_le _ _)
  have hyear := (clampYear_bounds (stampYear t.date.year).toNat).2
  simp only [lastYear] at hyear
  simp only [Timestamp.civil, Timestamp.normalised, CivilTime.stamp, CivilTime.keptIn,
    UInt16.toNat_ofNat', UInt8.toNat_ofNat', CivilTime.mk.injEq, CivilDate.mk.injEq]
  refine ⟨⟨?_, ?_, ?_⟩, ?_, ?_, ?_⟩ <;> omega

end Calendar

open Calendar

/-! ## Section 4: Files of a tree -/

theorem Metadata.modified_entry (metadata : Metadata) (name : String) (modified : Timestamp) :
    (metadata.entry name modified).modified = modified := by
  unfold Metadata.entry
  simp only
  split <;> split <;> rfl

/-- The entry of a file or a directory carries the stamp of its time. -/
theorem FileTree.modified_entryOf? {name : String} {node : FileNode} {e : Entry}
    (he : FileTree.entryOf? name node = some e) : e.modified = ofUnixSeconds node.modified := by
  obtain ⟨metadata, hmetadata, hentry⟩ := Option.bind_eq_some_iff.mp he
  have hmodified : metadata.modified? = some node.modified := by
    unfold FileTree.metadataOf? at hmetadata
    split at hmetadata
    case h_1 | h_2 =>
      obtain rfl := Option.some.inj hmetadata
      rfl
    case h_3 => exact nomatch hmetadata
  rw [Metadata.entry?, hmodified] at hentry
  obtain rfl := Option.some.inj hentry
  exact metadata.modified_entry name _

/-- **Shown times.** Every time of last modification is one civil time, and a guest that reads the
    entry out of a block sees its month, day, hour and minute and its second rounded down to an even
    one. It sees the year clamped to what a stamp can hold if the year is below 65536, and 1980
    for every later year. -/
theorem modified_shown {b : InfoBlock} (hfull : b.IsFull) {name : String} {node : FileNode}
    {e : Entry} (he : FileTree.entryOf? name node = some e) :
    (∃! t : CivilTime, t.IsValid ∧ t.moment = node.modified) ∧
    ∀ t : CivilTime, t.IsValid → t.moment = node.modified →
      (t.date.year < 65536 →
        (b.fill e.record).modified.civil = t.keptIn (max 1980 (min 2107 t.date.year))) ∧
      (65536 ≤ t.date.year → (b.fill e.record).modified.civil = t.keptIn 1980) := by
  refine ⟨existsUnique_civilTime node.modified, fun t hvalid hmoment => ?_⟩
  obtain ⟨hfound, hback⟩ := CivilTime.moment_ofMoment node.modified
  have htime : CivilTime.ofMoment node.modified = t :=
    CivilTime.eq_of_moment_eq hfound hvalid (hback.trans hmoment.symm)
  have hshown : (b.fill e.record).modified.civil =
      t.keptIn (if t.date.year < 65536 then max 1980 (min 2107 t.date.year) else 1980) := by
    rw [InfoBlock.modified_fill hfull, Entry.record, FileTree.modified_entryOf? he,
      ofUnixSeconds, htime, civil_normalised_stamp hvalid, clampYear_stampYear]
  rw [hshown]
  exact ⟨fun hlt => by rw [if_pos hlt], fun hge => by rw [if_neg (by omega)]⟩

/-- The last odd second before 1970, in an empty file. -/
theorem modified_shown_before_epoch :
    let b : InfoBlock := ⟨List.replicate 64 0⟩
    let node : FileNode := { kind := .file (.zeros 0), modified := -1 }
    let t : CivilTime := ⟨⟨1969, 12, 31⟩, 23, 59, 59⟩
    let e : Entry := .file "OLD.TXT" 0 (ofUnixSeconds (-1))
    b.IsFull ∧ FileTree.entryOf? "OLD.TXT" node = some e ∧
    t.IsValid ∧ t.moment = node.modified ∧ t.date.year < 65536 ∧
    (b.fill e.record).modified.civil = ⟨⟨1980, 12, 31⟩, 23, 59, 58⟩ := by
  intro b node t e
  have hfull : b.IsFull := (by decide : 64 ≤ 64)
  have hentry : FileTree.entryOf? "OLD.TXT" node = some e := by decide
  have hvalid : t.IsValid := by decide
  have hmoment : t.moment = node.modified := by decide
  have hyear : t.date.year < 65536 := by decide
  obtain ⟨-, hshown⟩ := modified_shown hfull hentry
  exact ⟨hfull, hentry, hvalid, hmoment, hyear,
    ((hshown t hvalid hmoment).1 hyear).trans (by decide)⟩

/-- The first second of the year 65536 is after 2107, but a guest sees 1980 and not 2107. -/
theorem modified_shown_far_future :
    let b : InfoBlock := ⟨List.replicate 64 0⟩
    let node : FileNode := { kind := .file (.zeros 1), modified := 2005949145600 }
    let t : CivilTime := ⟨⟨65536, 1, 1⟩, 0, 0, 0⟩
    let e : Entry := .file "Y65536.TXT" 1 (ofUnixSeconds 2005949145600)
    b.IsFull ∧ FileTree.entryOf? "Y65536.TXT" node = some e ∧
    t.IsValid ∧ t.moment = node.modified ∧
    (b.fill e.record).modified.civil = t.keptIn 1980 ∧
    (b.fill e.record).modified.civil ≠ t.keptIn (max 1980 (min 2107 t.date.year)) := by
  intro b node t e
  have hfull : b.IsFull := (by decide : 64 ≤ 64)
  refine ⟨hfull, by decide, by decide, by decide, ?_⟩
  rw [InfoBlock.modified_fill hfull]
  decide

end HostDrive

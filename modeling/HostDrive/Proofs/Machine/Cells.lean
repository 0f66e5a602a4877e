import HostDrive.Proofs.Machine.Memory

/-!
# Cells of RAM

Two addresses can show the same byte of RAM, as pages can select the same segment. So what a write
does is a matter of the cell that shows at its address: the byte shows at every other address of
that cell, and nothing else changes.

## Architecture

- `MemoryMap.cell?` is the cell that shows at an address; `MemoryMap.getElem?_ram` finds its byte in
  the whole of RAM, which is within bounds.
- `MemoryMap.read_write` is the law of a write, and `MemoryMap.getElem?_segments_write` its frame.
-/

namespace HostDrive

namespace MemoryMap

/-! ## Section 1: Cells -/

/-- **A cell of RAM**: a segment, and a place in it. -/
@[ext]
structure Cell where
  segment : Nat
  offset : Nat
  deriving DecidableEq, Repr

/-- The cell that shows at an address. There is none where page 1 shows another slot than the
    mapper's. -/
def cell? (m : MemoryMap) (a : UInt16) : Option Cell :=
  if a.toNat / 0x4000 = 1 ∧ (m.slotSelect >>> 2) &&& 3 ≠ 3 then none
  else some ⟨m.selected[pageOf a].toNat % m.segments.size, a.toNat % 0x4000⟩

/-- All of RAM, one segment behind the other. -/
def ram (m : MemoryMap) : Vector UInt8 (m.segments.size * 0x4000) :=
  Vector.flatten (Vector.mk m.segments rfl)

variable {m : MemoryMap} {a : UInt16} {c : Cell}

/-- Where a cell shows, the page shows the mapper, and its selected segment. -/
theorem cell?_eq_some : m.cell? a = some c ↔ m.showsMapper (pageOf a) = true ∧
    c.segment = (m.segmentOf (pageOf a)).val ∧ c.offset = (offsetOf a).val := by
  have hshows : m.showsMapper (pageOf a) = true ↔
      ¬ (a.toNat / 0x4000 = 1 ∧ (m.slotSelect >>> 2) &&& 3 ≠ 3) := by
    simp only [showsMapper, Bool.or_eq_true, bne_iff_ne, beq_iff_eq, Decidable.not_and_iff_or_not,
      ne_eq, Decidable.not_not]
    exact Iff.rfl
  unfold cell?
  by_cases hrom : a.toNat / 0x4000 = 1 ∧ (m.slotSelect >>> 2) &&& 3 ≠ 3
  · rw [if_pos hrom]
    exact ⟨fun hnone => absurd hnone (Option.some_ne_none c).symm,
      fun h => absurd hrom (hshows.mp h.1)⟩
  · rw [if_neg hrom, Option.some.injEq]
    constructor
    · rintro rfl
      exact ⟨hshows.mpr hrom, rfl, rfl⟩
    · rintro ⟨-, hsegment, hoffset⟩
      exact Cell.ext hsegment.symm hoffset.symm

theorem cell?_eq_none : m.cell? a = none ↔ m.showsMapper (pageOf a) = false := by
  rw [Option.eq_none_iff_forall_ne_some, ← Bool.not_eq_true]
  constructor
  · intro h hshows
    exact h ⟨_, _⟩ (cell?_eq_some.mpr ⟨hshows, rfl, rfl⟩)
  · intro h c hcell
    exact h (cell?_eq_some.mp hcell).1

/-- What shows where depends on the layout alone. -/
theorem SameLayout.cell? {m' : MemoryMap} (h : SameLayout m m') (a : UInt16) :
    m'.cell? a = m.cell? a := by
  unfold MemoryMap.cell?
  rw [h.slotSelect, h.selected, h.size]

/-- Where no cell shows, what shows does not depend on RAM. -/
theorem SameLayout.read_of_no_cell {m' : MemoryMap} (h : SameLayout m m') (hnone : m.cell? a = none) :
    m'.read a = m.read a := by
  have hrom : m'.shownRom? = m.shownRom? := by
    simp only [shownRom?, h.page1Slot, h.roms]
  unfold read
  simp only [h.showsMapper, cell?_eq_none.mp hnone, hrom, Bool.false_eq_true, if_false]

/-- **A cell is within the bounds** of RAM. -/
theorem lt_of_cell? (h : m.cell? a = some c) : c.segment < m.segments.size ∧ c.offset < pageSize := by
  obtain ⟨-, hsegment, hoffset⟩ := cell?_eq_some.mp h
  rw [hsegment, hoffset]
  exact ⟨(m.segmentOf _).isLt, (offsetOf a).isLt⟩

/-- The byte that shows is that of the cell in its segment. -/
theorem getElem?_segment {segment : Segment} (h : m.cell? a = some c)
    (hsegment : m.segments[c.segment]? = some segment) :
    segment[c.offset]? = some (m.read a) := by
  obtain ⟨hshows, hn, hoffset⟩ := cell?_eq_some.mp h
  rw [hn] at hsegment
  rw [hoffset, read_eq hshows hsegment]
  exact Vector.getElem?_eq_getElem (offsetOf a).isLt

/-- The same cell of the same segments shows the same byte, whatever is selected. -/
theorem read_eq_of_cell? {m' : MemoryMap} {x : UInt16} (hsegments : m'.segments = m.segments)
    (h : m.cell? a = some c) (h' : m'.cell? x = some c) : m'.read x = m.read a := by
  obtain ⟨segment, hsegment⟩ : ∃ segment, m.segments[c.segment]? = some segment :=
    ⟨_, Array.getElem?_eq_getElem (lt_of_cell? h).1⟩
  have hbyte := getElem?_segment h hsegment
  have hbyte' := getElem?_segment h' (hsegments ▸ hsegment)
  exact Option.some.inj (hbyte'.symm.trans hbyte)

/-- **The byte in RAM** that shows at an address. -/
theorem getElem?_ram (h : m.cell? a = some c) :
    m.ram[c.segment * 0x4000 + c.offset]? = some (m.read a) := by
  obtain ⟨hsegment, hoffset⟩ := lt_of_cell? h
  have hbyte := getElem?_segment h (Array.getElem?_eq_getElem hsegment)
  rw [Vector.getElem?_eq_getElem hoffset] at hbyte
  -- segment and offset are quotient and remainder of the place in RAM
  have hlt : c.offset < 0x4000 := hoffset
  have hplace : c.segment * 0x4000 + c.offset < m.segments.size * 0x4000 := by omega
  have hdiv : (c.segment * 0x4000 + c.offset) / 0x4000 = c.segment := by omega
  have hmod : (c.segment * 0x4000 + c.offset) % 0x4000 = c.offset := by omega
  rw [Vector.getElem?_eq_getElem hplace, ← hbyte]
  unfold ram
  rw [Vector.getElem_flatten]
  simp only [hdiv, hmod]
  rfl

/-! ## Section 2: Writes -/

/-- A write replaces one byte of one segment. -/
theorem write_of_cell? (h : m.cell? a = some c) (v : UInt8) :
    m.write a v = m.modifySegment c.segment fun s => s.set c.offset v (lt_of_cell? h).2 := by
  obtain ⟨hshows, hsegment, hoffset⟩ := cell?_eq_some.mp h
  unfold write
  simp only [hshows, if_true, hsegment, hoffset]

/-- **Nothing to write to**: read-only memory and empty slots ignore a write. -/
theorem write_eq_self (h : m.cell? a = none) (v : UInt8) : m.write a v = m := by
  unfold write
  simp only [cell?_eq_none.mp h, Bool.false_eq_true, if_false]

/-- **The law of a write**: the byte shows at every address of the cell, and no other address shows
    anything else than before. -/
theorem read_write (h : m.cell? a = some c) (v : UInt8) (x : UInt16) :
    (m.write a v).read x = if m.cell? x = some c then v else m.read x := by
  by_cases hshows : m.showsMapper (pageOf x) = true
  · have hsegment : m.segments[(m.segmentOf (pageOf x)).val]? =
        some m.segments[(m.segmentOf (pageOf x)).val] :=
      Array.getElem?_eq_getElem (m.segmentOf (pageOf x)).isLt
    rw [write_of_cell? h, read_modifySegment _ _ hshows hsegment]
    simp only [cell?_eq_some, hshows, true_and]
    by_cases hn : c.segment = (m.segmentOf (pageOf x)).val
    · -- the same segment, so the offsets decide
      rw [if_pos hn]
      show (Vector.set _ c.offset v _)[(offsetOf x).val] = _
      rw [Vector.getElem_set, read_eq hshows hsegment]
      simp only [hn, true_and]
      rfl
    · rw [if_neg hn, if_neg fun hsame => hn hsame.1]
  · have hnone := cell?_eq_none.mpr (Bool.not_eq_true _ ▸ hshows)
    rw [(SameLayout.write m a v).read_of_no_cell hnone, hnone,
      if_neg (Option.some_ne_none c).symm]

/-- **The frame of a write**: no other segment changes. -/
theorem getElem?_segments_write {n : Nat} (h : (m.cell? a).map Cell.segment ≠ some n) (v : UInt8) :
    (m.write a v).segments[n]? = m.segments[n]? := by
  cases hcell : m.cell? a with
  | none => rw [write_eq_self hcell]
  | some c =>
    rw [hcell] at h
    have hne : ¬ c.segment = n := fun heq => h (congrArg some heq)
    rw [write_of_cell? hcell, getElem?_segments_modifySegment, if_neg hne]

/-- Selecting leaves the segments as they are. -/
theorem segments_output (m : MemoryMap) (address : UInt16) (b : UInt8) :
    (m.output address b).segments = m.segments := by
  unfold output
  simp only
  split
  · rfl
  · split <;> rfl

end MemoryMap

end HostDrive

import HostDrive.Proofs.Machine.Layout

/-!
# Filled Memory

What the loaders put into a segment, byte by byte, and where the pages show it.

## Main statements

- `Machine.getElem_fillSegment`, `Machine.getElem_withDriver`: the bytes of a filled segment
- `MemoryMap.getElem?_segments_modifySegment`: which segment changes
- `MemoryMap.read_eq`: a page that shows the mapper shows the segment that it selects
- `Board.signed_of_withDriver`: an installed driver module shows its signature
-/

namespace HostDrive

/-! ## Section 1: Segments -/

namespace Machine

/-- Filling replaces the bytes from the offset on, as far as the data goes. -/
theorem getElem_fillSegment (segment : Segment) (offset : Nat) (data : List UInt8) (i : Nat)
    (hi : i < pageSize) :
    (fillSegment segment offset data)[i] =
      if offset ≤ i then (data[i - offset]?).getD segment[i] else segment[i] := by
  -- on the data: the first byte goes to the offset, the others behind it
  induction data generalizing segment offset with
  | nil => simp [fillSegment]
  | cons b data ih =>
    simp only [fillSegment]
    rw [ih, Vector.getElem_setIfInBounds]
    by_cases hlt : offset + 1 ≤ i
    · have hne : ¬ offset = i := by omega
      have hsub : i - offset = i - (offset + 1) + 1 := by omega
      rw [if_pos hlt, if_pos (Nat.le_of_succ_le hlt), if_neg hne, hsub, List.getElem?_cons_succ]
    · rw [if_neg hlt]
      by_cases heq : offset = i
      · subst heq
        simp
      · have hle : ¬ offset ≤ i := by omega
        rw [if_neg hle, if_neg heq]

/-- The driver module starts with the signature. -/
theorem getElem_withDriver (segment : Segment) (i : Nat) (hi : i < signature.length)
    (hi' : i < pageSize) : (withDriver segment)[i] = signature[i] := by
  have hsignature : signature.length = 14 := rfl
  have hfilled : (fillSegment segment (driverOffset signatureAddress) signature)[i] =
      signature[i] := by
    have hoffset : driverOffset signatureAddress = 0 := rfl
    rw [getElem_fillSegment, hoffset, if_pos (Nat.zero_le _), Nat.sub_zero,
      List.getElem?_eq_getElem hi]
    rfl
  -- the entry points lie behind the signature
  have hbehind : ∀ entry : EntryPoint, ¬ driverOffset entry.address = i := by
    intro entry
    have h32 : 32 ≤ driverOffset entry.address := by cases entry <;> decide
    omega
  simp only [withDriver, EntryPoint.all, List.foldl_cons, List.foldl_nil,
    Vector.getElem_setIfInBounds, hbehind, if_false, hfilled]

end Machine

/-! ## Section 2: Pages -/

namespace MemoryMap

theorem getElem?_segments_modifySegment (m : MemoryMap) (n k : Nat) (f : Segment → Segment) :
    (m.modifySegment n f).segments[k]? =
      if n = k then m.segments[k]?.map f else m.segments[k]? :=
  Array.getElem?_modify

/-- A page that shows the mapper shows the segment that it selects. -/
theorem read_eq {m : MemoryMap} {a : UInt16} {segment : Segment}
    (hshows : m.showsMapper (pageOf a) = true)
    (hsegment : m.segments[(m.segmentOf (pageOf a)).val]? = some segment) :
    m.read a = segment.get (offsetOf a) := by
  obtain ⟨_, hget⟩ := Array.getElem?_eq_some_iff.mp hsegment
  unfold read
  simp only [hshows, if_true]
  exact congrArg (·.get (offsetOf a)) hget

/-- A segment that was replaced shows in the pages that select it. -/
theorem read_modifySegment {m : MemoryMap} {a : UInt16} {segment : Segment} (n : Nat)
    (f : Segment → Segment) (hshows : m.showsMapper (pageOf a) = true)
    (hsegment : m.segments[(m.segmentOf (pageOf a)).val]? = some segment) :
    (m.modifySegment n f).read a =
      if n = (m.segmentOf (pageOf a)).val then (f segment).get (offsetOf a) else m.read a := by
  have hlayout := SameLayout.modifySegment m n f
  have hshows' : (m.modifySegment n f).showsMapper (pageOf a) = true :=
    (hlayout.showsMapper _).trans hshows
  by_cases hn : n = (m.segmentOf (pageOf a)).val
  · rw [if_pos hn]
    apply read_eq hshows'
    rw [hlayout.segmentOf, getElem?_segments_modifySegment, if_pos hn, hsegment]
    rfl
  · rw [if_neg hn, read_eq hshows hsegment]
    apply read_eq hshows'
    rw [hlayout.segmentOf, getElem?_segments_modifySegment, if_neg hn, hsegment]

theorem showsMapper_new (segments : Nat) {mapper : DeviceId} (page : Page) :
    (new segments mapper).showsMapper page = true := by
  have hslot : (new segments mapper).page1Slot = mapperSlot := by
    show ((0xFF : UInt8) >>> 2) &&& 0x03 = 3
    decide
  simp only [showsMapper, hslot, beq_self_eq_true, Bool.or_true]

theorem segments_new (segments : Nat) {mapper : DeviceId} (page : Page) :
    (new segments mapper).segments[((new segments mapper).segmentOf page).val]? =
      some (Vector.replicate pageSize 0) := by
  have hsegments : (new segments mapper).segments =
      Array.replicate (max 4 (min segments 256)) (Vector.replicate pageSize 0) := rfl
  rw [Array.getElem?_eq_getElem ((new segments mapper).segmentOf page).isLt]
  simp only [hsegments, Array.getElem_replicate]

/-- A new map shows zero bytes everywhere. -/
theorem read_new (segments : Nat) {mapper : DeviceId} (a : UInt16) :
    (new segments mapper).read a = 0 := by
  rw [read_eq (showsMapper_new segments _) (segments_new segments _)]
  exact Vector.getElem_replicate (offsetOf a).isLt

/-- The addresses of the driver's page, from its start on. -/
theorem pageOf_driverPage {i : Nat} (hi : i < pageSize) :
    pageOf (0x4000 + UInt16.ofNat i) = 1 ∧ (offsetOf (0x4000 + UInt16.ofNat i)).val = i := by
  have htoNat : (0x4000 + UInt16.ofNat i).toNat = pageSize + i := by
    rw [UInt16.toNat_add, UInt16.toNat_ofNat']
    simp only [pageSize, UInt16.reduceToNat] at *
    omega
  constructor
  · apply Fin.ext
    show (0x4000 + UInt16.ofNat i).toNat / pageSize = 1
    rw [htoNat]
    simp only [pageSize] at *
    omega
  · show (0x4000 + UInt16.ofNat i).toNat % pageSize = i
    rw [htoNat, Nat.add_mod_left, Nat.mod_eq_of_lt hi]

end MemoryMap

/-! ## Section 3: The driver module -/

/-- Where the segment with the driver module shows in its page, the signature shows. -/
theorem Board.signed_of_withDriver {b : Board} {m : MemoryMap} {n : Nat} {segment : Segment}
    (hbus : b.bus = m.modifySegment n Machine.withDriver) (hshows : m.showsMapper 1 = true)
    (hselected : n = (m.segmentOf 1).val) (hsegment : m.segments[n]? = some segment) :
    Signed b := by
  have hsize : 14 ≤ pageSize := by decide
  apply List.ext_getElem (by simp)
  intro i hi hi'
  have hlt : i < 14 := by simpa using hi
  obtain ⟨hpage, hoffset⟩ := MemoryMap.pageOf_driverPage (Nat.lt_of_lt_of_le hlt hsize)
  have hshown : n = (m.segmentOf (MemoryMap.pageOf (0x4000 + UInt16.ofNat i))).val := by
    rw [hpage]
    exact hselected
  rw [Guest.getElem_readBlock]
  show b.bus.read (0x4000 + UInt16.ofNat i) = _
  rw [hbus, MemoryMap.read_modifySegment n _ (hpage ▸ hshows) (hshown ▸ hsegment), if_pos hshown]
  show (Machine.withDriver segment)[(MemoryMap.offsetOf (0x4000 + UInt16.ofNat i)).val] = _
  simp only [hoffset]
  exact Machine.getElem_withDriver _ i hlt (Nat.lt_of_lt_of_le hlt hsize)

end HostDrive

import HostDrive.Proofs.Machine.MappedMemory
import Mathlib.Data.Nat.Prime.Basic

/-!
# Saving and Restoring a Segment Register

Programs read the register of a page, select another segment for a while, and write back what they
read. The byte that they read is the number of the segment with the bits set that numbers of
segments never use, and what they write is taken modulo the number of segments.

The two are inverse to each other only if the number of segments divides 256. With other numbers of
segments the bits that are set are no high bits, and the page comes back with another segment.

## Main statements

- `MemoryMap.toNat_input`, `MemoryMap.segmentOf_output`: what is read, and what a write selects
- `Machine.restored_shows_segment`: what comes back, for every number of segments
- `Machine.restored_shows_other_of_five`: five segments, where another segment comes back
-/

namespace HostDrive

/-! ## Section 1: Unused bits -/

/-- Setting the unused bits keeps the number of the segment, if there are none but high ones. -/
theorem lor_unused_mod {count n : Nat} (hdvd : count ∣ 256) (hn : n < count) :
    (n ||| (256 - count)) % count = n := by
  obtain ⟨k, -, rfl⟩ := (Nat.dvd_prime_pow Nat.prime_two).mp (show count ∣ 2 ^ 8 from hdvd)
  -- the unused bits are a multiple of a power of two, and the number is below it
  obtain ⟨high, hhigh⟩ : 2 ^ k ∣ 256 - 2 ^ k := Nat.dvd_sub hdvd (Nat.dvd_refl _)
  calc (n ||| (256 - 2 ^ k)) % 2 ^ k
      = (2 ^ k * high ||| n) % 2 ^ k := by rw [hhigh, Nat.or_comm]
    _ = (2 ^ k * high + n) % 2 ^ k := by rw [Nat.two_pow_add_eq_or_of_lt hn]
    _ = n % 2 ^ k := Nat.mul_add_mod _ _ _
    _ = n := Nat.mod_eq_of_lt hn

/-- Otherwise segment zero becomes another one. -/
theorem lor_unused_mod_ne_zero {count : Nat} (hdvd : ¬ count ∣ 256) (hle : count ≤ 256) :
    (0 ||| (256 - count)) % count ≠ 0 := by
  rw [Nat.zero_or]
  intro hmod
  have hrest : count ∣ 256 - count := Nat.dvd_of_mod_eq_zero hmod
  have hsum : count ∣ 256 - count + count := Nat.dvd_add hrest (Nat.dvd_refl _)
  rw [Nat.sub_add_cancel hle] at hsum
  exact hdvd hsum

namespace MemoryMap

variable {map : MemoryMap} {page : Page} {port : UInt16}

/-! ## Section 2: One register -/

/-- **An address of the register of a page**: its lower half counts. -/
def Addresses (port : UInt16) (page : Page) : Prop := (Bytes.low port).toNat = 0xFC + page.val

/-- The registers of the segments lie behind that of the slots. -/
theorem Addresses.ne_slotRegister (h : Addresses port page) :
    (Bytes.low port == slotRegister) = false := by
  rw [beq_eq_false_iff_ne]
  intro heq
  unfold Addresses at h
  rw [heq] at h
  have hslot : slotRegister.toNat = 0xA8 := rfl
  omega

theorem Addresses.pageOfRegister? (h : Addresses port page) :
    pageOfRegister? (Bytes.low port) = some page := by
  have hlow : segmentRegister ≤ Bytes.low port := by
    rw [UInt8.le_iff_toNat_le, h]
    exact Nat.le_add_right _ _
  have hpage : (Bytes.low port - segmentRegister).toNat = page.val := by
    rw [UInt8.toNat_sub_of_le _ _ hlow, h]
    exact Nat.add_sub_cancel_left _ _
  unfold MemoryMap.pageOfRegister?
  rw [dif_pos hlow]
  exact congrArg some (Fin.ext hpage)

theorem toNat_unusedBits (map : MemoryMap) : map.unusedBits.toNat = 256 - map.segments.size := by
  have hfour := map.four_le
  have hmax := map.le_max
  unfold unusedBits
  rw [UInt8.toNat_not, UInt8.toNat_ofNat', Nat.mod_eq_of_lt (by omega)]
  simp only [UInt8.size]
  omega

/-- **What is read** from the register of a page. -/
theorem toNat_input (h : Addresses port page) :
    (map.input port).toNat = (map.segmentOf page).val ||| (256 - map.segments.size) := by
  unfold input
  simp only [h.ne_slotRegister, h.pageOfRegister?, Bool.false_eq_true, if_false]
  rw [UInt8.toNat_or, toNat_segmentOf, toNat_unusedBits]

/-- **What a write selects.** -/
theorem segmentOf_output (h : Addresses port page) (b : UInt8) :
    ((map.output port b).segmentOf page).val = b.toNat % map.segments.size := by
  have houtput : map.output port b = map.selectSegment page b := by
    unfold output
    simp only [h.ne_slotRegister, h.pageOfRegister?, Bool.false_eq_true, if_false]
  rw [houtput]
  show (map.selected.set page.val b page.isLt)[page.val].toNat % map.segments.size = _
  rw [Vector.getElem_set_self]

/-- **A page shows a segment**: it is the one that the page selects, and wherever the page shows RAM,
    each byte reads as it does in that segment. -/
structure ShowsSegment (map : MemoryMap) (page : Page) (n : Nat) : Prop where
  selected : (map.segmentOf page).val = n
  bytes : ∀ a c, pageOf a = page → map.cell? a = some c →
    c.segment = n ∧ map.ram[n * 0x4000 + a.toNat % 0x4000]? = some (map.read a)

/-- A page shows the segment that it selects, and no other. -/
theorem showsSegment_iff {n : Nat} :
    map.ShowsSegment page n ↔ (map.segmentOf page).val = n := by
  constructor
  · exact ShowsSegment.selected
  · rintro rfl
    refine ⟨rfl, ?_⟩
    rintro a c rfl hcell
    -- the cells of a page are those of its segment, each at the offset of its address
    have hbyte := getElem?_ram hcell
    obtain ⟨-, hsegment, hoffset⟩ := cell?_eq_some.mp hcell
    rw [hsegment, hoffset] at hbyte
    exact ⟨hsegment, hbyte⟩

/-! ## Section 3: Saving and restoring -/

/-- An access that changes the map. -/
inductive Access where
  | write (address : UInt16) (b : UInt8)
  | output (address : UInt16) (b : UInt8)
  deriving DecidableEq, Repr

/-- **The map after some accesses**, one after the other. -/
def after (map : MemoryMap) : List Access → MemoryMap
  | [] => map
  | .write address b :: rest => (map.write address b).after rest
  | .output address b :: rest => (map.output address b).after rest

/-- What both kinds of access keep, any number of them keeps. -/
theorem after_keeps {P : MemoryMap → Prop} (hP : Z80.Bus.Keeps P) (h : P map)
    (accesses : List Access) : P (map.after accesses) := by
  induction accesses generalizing map with
  | nil => exact h
  | cons first rest ih =>
    cases first with
    | write address b => exact ih (hP.write map address b h)
    | output address b => exact ih (hP.output map address b h)

/-- The map after the register of a page was saved, some accesses followed, and it was restored. -/
def restored (map : MemoryMap) (saving : UInt16) (accesses : List Access) (restoring : UInt16) :
    MemoryMap :=
  Z80.Bus.output (map.after accesses) restoring (Z80.Bus.input map saving)

/-- **The segment that comes back**, whatever was accessed in between. -/
theorem segmentOf_restored {saving restoring : UInt16} (hsaving : Addresses saving page)
    (hrestoring : Addresses restoring page) (accesses : List Access) :
    ((map.restored saving accesses restoring).segmentOf page).val =
      ((map.segmentOf page).val ||| (256 - map.segments.size)) % map.segments.size := by
  have hparts : map.SameParts (map.after accesses) :=
    after_keeps map.keeps_sameParts (.refl map) accesses
  have hsaved : (Z80.Bus.input map saving).toNat =
      (map.segmentOf page).val ||| (256 - map.segments.size) := toNat_input hsaving
  refine (segmentOf_output hrestoring _).trans ?_
  rw [hsaved, hparts.size]

end MemoryMap

namespace Machine

open MemoryMap (Addresses)

/-- **When a saved register can be restored.** Wherever a run of a machine comes by, a program saves
    the register of a page, accesses whatever it likes, and restores the register. Which segment the
    page then shows is known for every number of segments. If that number divides 256, it is the
    segment that showed before. Otherwise segment 0 does not come back. -/
theorem restored_shows_segment {segments : Nat} {m : Machine} (hm : m.InUse segments) {host : Host}
    {address : UInt16} {run : Run} (hrun : Run.Reaches host m.limit (m.start address) run)
    {page : Page} {saving restoring : UInt16} (hsaving : Addresses saving page)
    (hrestoring : Addresses restoring page) (accesses : List MemoryMap.Access) :
    let count := max 4 (min segments 256)
    let shown := (run.board.bus.segmentOf page).val
    let back := run.board.bus.restored saving accesses restoring
    back.ShowsSegment page ((shown ||| (256 - count)) % count) ∧
    (count ∣ 256 → back.ShowsSegment page shown) ∧
    (¬ count ∣ 256 → shown = 0 → ¬ back.ShowsSegment page shown) := by
  intro count shown back
  have hsize : run.board.bus.segments.size = count := hm.size_of_reaches hrun
  have hback : (back.segmentOf page).val = (shown ||| (256 - count)) % count := by
    rw [← hsize]
    exact MemoryMap.segmentOf_restored hsaving hrestoring accesses
  have hshown : shown < count := hsize ▸ (run.board.bus.segmentOf page).isLt
  have hcount : count ≤ 256 := hsize ▸ run.board.bus.le_max
  refine ⟨MemoryMap.showsSegment_iff.mpr hback, ?same, ?other⟩
  case same =>
    intro hdvd
    rw [MemoryMap.showsSegment_iff, hback]
    exact lor_unused_mod hdvd hshown
  case other =>
    intro hdvd hzero
    rw [MemoryMap.showsSegment_iff, hback, hzero]
    exact lor_unused_mod_ne_zero hdvd hcount

/-- Of eight segments, page 0 selects number 19, which is segment 3. The register reads 0xFB, and
    writing that back selects segment 3 again, whatever was selected in between. -/
theorem restored_shows_segment_of_eight :
    let map := ((Machine.new 8).selectSegment 0 19).board.bus
    Z80.Bus.input map 0x00FC = 0xFB ∧
      ∀ accesses, (map.restored 0x00FC accesses 0x12FC).ShowsSegment 0 3 := by
  intro map
  let m := (Machine.new 8).selectSegment 0 19
  have hm : m.InUse 8 := .operate (.new _) (.selectSegment _ 0 19)
  have hrun : Run.Reaches ⟨fun _ => false, fun _ => .ok []⟩ m.limit (m.start 0) (m.start 0) :=
    .here _
  have hsaving : Addresses 0x00FC 0 := rfl
  have hrestoring : Addresses 0x12FC 0 := rfl
  have hshown : (map.segmentOf 0).val = 3 := by decide
  refine ⟨by decide, fun accesses => ?_⟩
  obtain ⟨-, hsame, -⟩ := restored_shows_segment hm hrun hsaving hrestoring accesses
  exact MemoryMap.showsSegment_iff.mpr ((hsame (by decide)).selected.trans hshown)

/-- **Five segments, where another one comes back.** Page 3 shows segment 0. Its register reads
    0xFB, and that is the number of segment 1. So after another segment was selected for a while and
    the register restored, the page shows the bytes of page 2. -/
theorem restored_shows_other_of_five :
    let m := ((Machine.new 5).poke 0xD000 0xAA).poke 0x9000 0xBB
    let back := m.board.bus.restored 0x00FF [.output 0x00FF 2] 0x00FF
    m.InUse 5 ∧ (m.board.bus.segmentOf 3).val = 0 ∧ (back.segmentOf 3).val = 1 ∧
      m.peek 0xD000 = 0xAA ∧ back.read 0xD000 = 0xBB := by
  intro m back
  have hm : m.InUse 5 := .operate (.operate (.new _) (.poke _ _ _)) (.poke _ _ _)
  let first := (MemoryMap.new 5).write 0xD000 0xAA
  have hlayout : (MemoryMap.new 5).SameLayout first := .write _ _ _
  have hbus : m.board.bus = first.write 0x9000 0xBB := rfl
  have hlayout' : (MemoryMap.new 5).SameLayout m.board.bus :=
    hbus ▸ hlayout.trans (.write first 0x9000 0xBB)
  have hshown : (m.board.bus.segmentOf 3).val = 0 := (hlayout'.segmentOf 3).trans (by decide)
  -- what page 3 shows before, and what page 2 shows
  have hpage3 : (MemoryMap.new 5).cell? 0xD000 = some ⟨0, 0x1000⟩ := by decide
  have hpage2 : (MemoryMap.new 5).cell? 0x9000 = some ⟨1, 0x1000⟩ := by decide
  have hcell : first.cell? 0x9000 = some ⟨1, 0x1000⟩ := (hlayout.cell? _).trans hpage2
  have hother : first.cell? 0xD000 ≠ some ⟨1, 0x1000⟩ := by
    rw [hlayout.cell?, hpage3]
    decide
  have hread3 : m.peek 0xD000 = 0xAA := by
    have hsecond : m.peek 0xD000 = first.read 0xD000 :=
      (MemoryMap.read_write hcell 0xBB 0xD000).trans (if_neg hother)
    rw [hsecond]
    exact (MemoryMap.read_write hpage3 0xAA 0xD000).trans (if_pos hpage3)
  have hread2 : m.board.bus.read 0x9000 = 0xBB :=
    (MemoryMap.read_write hcell 0xBB 0x9000).trans (if_pos hcell)
  -- what page 3 shows afterwards is the cell of page 2
  have hback : (back.segmentOf 3).val = 1 := by
    have haddress : Addresses 0x00FF 3 := rfl
    refine (MemoryMap.segmentOf_restored haddress haddress _).trans ?_
    rw [hshown, hlayout'.size]
    decide
  have hcell3 : back.cell? 0xD000 = some ⟨1, 0x1000⟩ :=
    MemoryMap.cell?_eq_some.mpr ⟨rfl, hback.symm, rfl⟩
  have hcell2 : m.board.bus.cell? 0x9000 = some ⟨1, 0x1000⟩ := (hlayout'.cell? _).trans hpage2
  have hsegments : back.segments = m.board.bus.segments :=
    (MemoryMap.segments_output _ _ _).trans (m.board.bus.segments_output 0x00FF 2)
  exact ⟨hm, hshown, hback, hread3, (MemoryMap.read_eq_of_cell? hsegments hcell2 hcell3).trans hread2⟩

end Machine

end HostDrive

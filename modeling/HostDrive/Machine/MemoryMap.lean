import HostDrive.Guest.Basic
import HostDrive.SetupError
import HostDrive.Z80.Step

/-!
# The Memory Map

What the guest sees of the machine's memory, in four pages of 16K.

- Pages 0, 2 and 3 always show the **mapper**: RAM in segments, of which each page selects one.
- Page 1 shows one of four **slots**. Slot 3 is the mapper; the others can hold read-only memory.
- Registers at I/O addresses select: one the slot of page 1, four the segments of the pages.

The selected number of a segment is taken modulo the number of segments, so every access finds a
segment.
-/

namespace HostDrive

/-! ## Parts -/

/-- Size of a page and of a segment. -/
def pageSize : Nat := 0x4000

abbrev Segment := Vector UInt8 pageSize

/-- Read-only memory in a slot. It may end before the page does. -/
structure Rom where
  device : DeviceId
  image : Array UInt8

def mapperSlot : UInt8 := 3

/-- The slots that can hold read-only memory. -/
def romSlots : Nat := 3

/-- The first device of all. The numbers start here. -/
def firstDevice : DeviceId := ⟨1⟩

/-- I/O address of the register that selects the slots. -/
def slotRegister : UInt8 := 0xA8

/-- I/O address of the register that selects the segment of page 0. Those of the other pages
follow. -/
def segmentRegister : UInt8 := 0xFC

def openBus : UInt8 := 0xFF

/-- Slots, segments and what is selected of them. -/
structure MemoryMap where
  /-- Identity of the mapper, which holds the segments. -/
  mapper : DeviceId
  segments : Array Segment
  four_le : 4 ≤ segments.size
  le_max : segments.size ≤ 256
  /-- Selected segment of each page. -/
  selected : Vector UInt8 4 := #v[3, 2, 1, 0]
  /-- Selected slots, two bits for each page. -/
  slotSelect : UInt8 := 0xFF
  roms : Vector (Option Rom) romSlots := Vector.replicate romSlots none

namespace MemoryMap

/-- An empty map with this many segments, or with the nearest number that is possible. -/
def new (segments : Nat) (mapper : DeviceId := firstDevice) : MemoryMap where
  mapper := mapper
  segments := Array.replicate (max 4 (min segments 256)) (Vector.replicate pageSize 0)
  four_le := by simp only [Array.size_replicate]; omega
  le_max := by simp only [Array.size_replicate]; omega

/-! ## What a page shows -/

def pageOf (address : UInt16) : Page :=
  ⟨address.toNat / pageSize, by
    have := address.toNat_lt
    simp only [pageSize]
    omega⟩

/-- The place of an address inside its page. -/
def offsetOf (address : UInt16) : Fin pageSize :=
  ⟨address.toNat % pageSize, Nat.mod_lt _ (by decide)⟩

def page1Slot (m : MemoryMap) : UInt8 := (m.slotSelect >>> 2) &&& 0x03

def segmentOf (m : MemoryMap) (page : Page) : Fin m.segments.size :=
  ⟨m.selected[page].toNat % m.segments.size, Nat.mod_lt _ (by have := m.four_le; omega)⟩

def showsMapper (m : MemoryMap) (page : Page) : Bool := page.val != 1 || m.page1Slot == mapperSlot

/-- The read-only memory in the slot that page 1 shows. -/
def shownRom? (m : MemoryMap) : Option Rom :=
  match m.roms[m.page1Slot.toNat]? with
  | some rom => rom
  | none => none

/-! ## Access -/

/-- The byte that shows at an address. -/
def read (m : MemoryMap) (address : UInt16) : UInt8 :=
  let page := pageOf address
  if m.showsMapper page then m.segments[m.segmentOf page][offsetOf address]
  else match m.shownRom? with
    | some rom => rom.image.getD (offsetOf address) openBus
    | none => openBus

/-- Replaces one segment by a function of it. -/
def modifySegment (m : MemoryMap) (n : Nat) (f : Segment → Segment) : MemoryMap :=
  let { mapper, segments, four_le, le_max, selected, slotSelect, roms } := m
  { mapper
    segments := segments.modify n f
    four_le := by simpa only [Array.size_modify] using four_le
    le_max := by simpa only [Array.size_modify] using le_max
    selected, slotSelect, roms }

/-- Writes a byte. Read-only memory and empty slots ignore it. -/
def write (m : MemoryMap) (address : UInt16) (b : UInt8) : MemoryMap :=
  let page := pageOf address
  if m.showsMapper page then
    let n := m.segmentOf page
    m.modifySegment n.val fun segment =>
      segment.set (offsetOf address).val b (offsetOf address).isLt
  else m

/-! ## Selecting -/

/-- Selects the segment that a page shows. -/
def selectSegment (m : MemoryMap) (page : Page) (n : UInt8) : MemoryMap :=
  { m with selected := m.selected.set page.val n page.isLt }

/-- The bits of the slot register that belong to the other pages. -/
def otherSlotBits : UInt8 := 0xF3

/-- Selects the slot that page 1 shows, and leaves the other pages alone. -/
def selectPage1Slot (m : MemoryMap) (slot : UInt8) : MemoryMap :=
  let bits : UInt8 := (slot &&& 0x03) <<< 2
  { m with slotSelect := (m.slotSelect &&& otherSlotBits) ||| bits }

/-! ## Input and output -/

/-- The page whose segment the register at an I/O address selects. -/
def pageOfRegister? (low : UInt8) : Option Page :=
  if h : segmentRegister ≤ low then
    some ⟨(low - segmentRegister).toNat, by
      have := low.toNat_lt
      rw [UInt8.toNat_sub_of_le _ _ h]
      simp only [segmentRegister, UInt8.reduceToNat]
      omega⟩
  else none

/-- The bits that the number of a segment never uses, set. -/
def unusedBits (m : MemoryMap) : UInt8 := ~~~UInt8.ofNat (m.segments.size - 1)

/-- The byte that is read from an I/O address, of which only the lower half counts. -/
def input (m : MemoryMap) (address : UInt16) : UInt8 :=
  let low := Bytes.low address
  if low == slotRegister then m.slotSelect
  else match pageOfRegister? low with
    | some page => UInt8.ofNat (m.segmentOf page).val ||| m.unusedBits
    | none => openBus

/-- The map after a byte was written to an I/O address. -/
def output (m : MemoryMap) (address : UInt16) (b : UInt8) : MemoryMap :=
  let low := Bytes.low address
  if low == slotRegister then { m with slotSelect := b }
  else match pageOfRegister? low with
    | some page => m.selectSegment page b
    | none => m

instance : Z80.Bus MemoryMap where
  read := read
  write := write
  input := input
  output := output

/-! ## Devices -/

def deviceInPage (m : MemoryMap) (page : Page) : Option DeviceId :=
  if m.showsMapper page then some m.mapper else m.shownRom?.map Rom.device

/-- The segment that a page selects, if the device is the mapper. -/
def blockInPage (m : MemoryMap) (device : DeviceId) (page : Page) : Option UInt8 :=
  if device = m.mapper then some (UInt8.ofNat (m.segmentOf page).val) else none

end MemoryMap

end HostDrive

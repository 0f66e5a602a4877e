import HostDrive.Machine.Basic
import HostDrive.Proofs.Drive.Guard
import HostDrive.Proofs.Z80.Bus

/-!
# What Answered Calls Leave Alone

A call of the drive can write RAM, but it cannot switch slots or segments. So the driver module that
shows when a call comes still shows when it is over, whatever the call wrote.

## Main statements

- `MemoryMap.SameLayout`: two maps differ in the contents of their segments only
- `Board.fetch_keeps`: what a write keeps, a fetch keeps
- `Board.sameLayout_fetch`: so a fetch keeps the layout
- `Guard.shows_fetch`: and so keeps what shows in the driver's page
-/

namespace HostDrive

/-! ## Section 1: Layouts -/

namespace MemoryMap

/-- **Same layout**: the maps may differ in what their segments hold, and in nothing else. -/
structure SameLayout (m m' : MemoryMap) : Prop where
  mapper : m'.mapper = m.mapper
  size : m'.segments.size = m.segments.size
  selected : m'.selected = m.selected
  slotSelect : m'.slotSelect = m.slotSelect
  roms : m'.roms = m.roms

namespace SameLayout

theorem refl (m : MemoryMap) : SameLayout m m := ⟨rfl, rfl, rfl, rfl, rfl⟩

theorem trans {m m' m'' : MemoryMap} (h : SameLayout m m') (h' : SameLayout m' m'') :
    SameLayout m m'' where
  mapper := h'.mapper.trans h.mapper
  size := h'.size.trans h.size
  selected := h'.selected.trans h.selected
  slotSelect := h'.slotSelect.trans h.slotSelect
  roms := h'.roms.trans h.roms

theorem modifySegment (m : MemoryMap) (n : Nat) (f : Segment → Segment) :
    SameLayout m (m.modifySegment n f) where
  mapper := rfl
  size := Array.size_modify
  selected := rfl
  slotSelect := rfl
  roms := rfl

theorem write (m : MemoryMap) (a : UInt16) (b : UInt8) : SameLayout m (m.write a b) := by
  unfold MemoryMap.write
  simp only
  split
  · exact modifySegment _ _ _
  · exact refl m

/-- Writing keeps the layout that there was at the start. -/
theorem keepsWrites (m : MemoryMap) : Z80.Bus.KeepsWrites (SameLayout m) :=
  fun map a b h => h.trans (write map a b)

theorem page1Slot {m m' : MemoryMap} (h : SameLayout m m') : m'.page1Slot = m.page1Slot := by
  simp only [MemoryMap.page1Slot, h.slotSelect]

theorem showsMapper {m m' : MemoryMap} (h : SameLayout m m') (page : Page) :
    m'.showsMapper page = m.showsMapper page := by
  simp only [MemoryMap.showsMapper, h.page1Slot]

theorem segmentOf {m m' : MemoryMap} (h : SameLayout m m') (page : Page) :
    (m'.segmentOf page).val = (m.segmentOf page).val := by
  simp only [MemoryMap.segmentOf, h.selected, h.size]

/-- What pages show depends on the layout alone. -/
theorem deviceInPage {m m' : MemoryMap} (h : SameLayout m m') (page : Page) :
    m'.deviceInPage page = m.deviceInPage page := by
  have hrom : m'.shownRom? = m.shownRom? := by
    simp only [shownRom?, h.page1Slot, h.roms]
  unfold MemoryMap.deviceInPage
  rw [h.showsMapper, hrom, h.mapper]

theorem blockInPage {m m' : MemoryMap} (h : SameLayout m m') (device : DeviceId) (page : Page) :
    m'.blockInPage device page = m.blockInPage device page := by
  simp only [MemoryMap.blockInPage, h.segmentOf, h.mapper]

end SameLayout

end MemoryMap

/-! ## Section 2: Calls on a board -/

namespace Board

section Keeps

variable {P : MemoryMap → Prop} {b : Board}

/-- What a write keeps, storing any number of bytes keeps. -/
theorem store_keeps (hP : Z80.Bus.KeepsWrites P) (h : P b.bus) (a : UInt16)
    (bytes : List UInt8) : P (Guest.store b a bytes).bus := by
  induction bytes generalizing b a with
  | nil => exact h
  | cons byte bytes ih =>
    have hpoke : P (Guest.poke b a byte).bus := hP b.bus a byte h
    exact ih hpoke (a + 1)

theorem deliver_keeps (hP : Z80.Bus.KeepsWrites P) (h : P b.bus) (reply : Reply) :
    P (reply.deliver b).bus := by
  show P (reply.writeMemory b).bus
  -- only a reply with bytes writes, and the registers are no part of the map
  cases reply with
  | store a bytes => exact store_keeps hP h a bytes
  | accept | grant | noDirectory | noFile => exact h

/-- **What a write keeps, a fetch keeps**, answered or not. -/
theorem fetch_keeps (hP : Z80.Bus.KeepsWrites P) (h : P b.bus) (guard : Guard)
    (host : Host) : P (guard.fetch ⟨host, b⟩).2.2.bus := by
  obtain ⟨-, hfetch⟩ | ⟨-, -, hfetch⟩ | ⟨entry, token, -, -, hfetch⟩ := guard.fetch_cases ⟨host, b⟩
  · rw [hfetch]
    exact h
  · rw [hfetch]
    exact h
  · rw [hfetch]
    exact deliver_keeps hP h _

end Keeps

theorem sameLayout_store (b : Board) (a : UInt16) (bytes : List UInt8) :
    b.bus.SameLayout (Guest.store b a bytes).bus :=
  store_keeps (MemoryMap.SameLayout.keepsWrites b.bus) (.refl _) a bytes

theorem sameLayout_deliver (reply : Reply) (b : Board) :
    b.bus.SameLayout (reply.deliver b).bus :=
  deliver_keeps (MemoryMap.SameLayout.keepsWrites b.bus) (.refl _) reply

/-- A fetch keeps the layout. -/
theorem sameLayout_fetch (guard : Guard) (host : Host) (b : Board) :
    b.bus.SameLayout (guard.fetch ⟨host, b⟩).2.2.bus :=
  fetch_keeps (MemoryMap.SameLayout.keepsWrites b.bus) (.refl _) guard host

end Board

/-- **What shows keeps showing**: a fetch leaves the driver's page as it was. -/
theorem Guard.shows_fetch {guard : Guard} {host : Host} {b : Board} {token : Token}
    (h : Shows b token) : Shows (guard.fetch ⟨host, b⟩).2.2 token := by
  have hlayout := Board.sameLayout_fetch guard host b
  exact ⟨(hlayout.deviceInPage 1).trans h.1, (hlayout.blockInPage token.device 1).trans h.2⟩

end HostDrive

import HostDrive.Proofs.Machine.FlatMap
import HostDrive.Proofs.Machine.Identity

/-!
# Mapped Memory

The memory of a machine in use, as programs, the drive and the world outside see it. Whatever was
done to the machine, an access finds a byte of RAM or a slot within bounds; a write changes one cell
of RAM, which may show at several addresses, or nothing at all.

## Architecture

- `Machine.InUse` are the machines that there can be; none of them has lost a segment.
- `MemoryMap.Mapped` is what holds of memory at one moment.
- `MemoryMap.ChangesShown` is what a turn can change; `Run.changesShown_turn` is the step, and
  `Run.Reaches.getElem?_segments` the run.
- `Machine.memory_stays_mapped` puts them together.
-/

namespace HostDrive

/-! ## Section 1: Machines in use -/

namespace Machine

/-- **In use**: made with this many segments, then operated on and run in any way, and watched by
    any guards, new ones or ones that know a token already. -/
inductive InUse (segments : Nat) : Machine → Prop where
  | new (device : DeviceId) : InUse segments (new segments device)
  | attach {m : Machine} (h : InUse segments m) (guard : Guard) : InUse segments (m.attach guard)
  | operate {m m' : Machine} (h : InUse segments m) (hop : Operates m m') : InUse segments m'

/-- No operation adds a segment or takes one away. -/
theorem Operates.size {m m' : Machine} (hop : m.Operates m') :
    m'.board.bus.segments.size = m.board.bus.segments.size := by
  cases hop with
  | installDriver hok =>
    obtain ⟨-, rfl⟩ := installDriver_eq_ok hok
    exact Array.size_modify
  | loadSegment hok =>
    obtain ⟨-, -, rfl⟩ := loadSegment_eq_ok hok
    exact Array.size_modify
  | insertRom hok =>
    obtain ⟨_, -, -, rfl⟩ := insertRom_eq_ok hok
    rfl
  | selectPage1Slot | selectSegment | setLimit => rfl
  | poke address b => exact (MemoryMap.SameLayout.write _ address b).size
  | run hrun =>
    obtain ⟨last, hlast, hboard, -⟩ :=
      run?_keeps hrun (.of_bus m.board.bus.keeps_sameParts _) (.refl _)
    rw [hboard]
    exact hlast.size

/-- A machine in use has the segments that it was made with. -/
theorem InUse.size {segments : Nat} {m : Machine} (h : m.InUse segments) :
    m.board.bus.segments.size = max 4 (min segments 256) := by
  induction h with
  | new => exact Array.size_replicate
  | attach _ guard ih => exact ih
  | operate _ hop ih => exact hop.size.trans ih

/-- So it has wherever one of its runs comes by. -/
theorem InUse.size_of_reaches {segments : Nat} {m : Machine} (h : m.InUse segments) {host : Host}
    {address : UInt16} {run : Run} (hrun : Run.Reaches host m.limit (m.start address) run) :
    run.board.bus.segments.size = max 4 (min segments 256) := by
  have hparts : m.board.bus.SameParts run.board.bus :=
    hrun.keeps (.of_bus m.board.bus.keeps_sameParts host) (.refl _)
  exact hparts.size.trans h.size

end Machine

/-! ## Section 2: Memory at one moment -/

namespace MemoryMap

/-- **Mapped memory** of this many segments. -/
structure Mapped (count : Nat) (m : MemoryMap) : Prop where
  size : m.segments.size = count
  bounds : 4 ≤ count ∧ count ≤ 256
  /-- Where a cell shows, it is within bounds, and what is read is its byte. -/
  ram : ∀ a c, m.cell? a = some c → c.segment < count ∧ c.offset < 0x4000 ∧
    m.ram[c.segment * 0x4000 + c.offset]? = some (m.read a)
  /-- Elsewhere a slot shows: its read-only memory, and ones behind the end of it or without any. -/
  slot : ∀ a, m.cell? a = none → ∃ slot : Fin romSlots,
    slot.val = ((m.slotSelect >>> 2) &&& 3).toNat ∧
    m.read a = (m.roms[slot].bind fun rom => rom.image[a.toNat % 0x4000]?).getD 0xFF
  /-- A byte that is written shows wherever its cell does, and no other address shows a change. -/
  write : ∀ a c v x, m.cell? a = some c →
    (m.write a v).read x = if m.cell? x = some c then v else m.read x
  /-- Slots cannot be written to. -/
  ignored : ∀ a v, m.cell? a = none → m.write a v = m
  /-- A write changes no read-only memory and no selection, ... -/
  layout : ∀ a v, m.SameLayout (m.write a v)
  /-- ... and no segment but the one that shows at its address. -/
  kept : ∀ a v n, (m.cell? a).map Cell.segment ≠ some n →
    (m.write a v).segments[n]? = m.segments[n]?

/-- Two bits select one of four slots, and slot 3 is no slot for read-only memory. -/
theorem toNat_slot_lt {slots : UInt8} (h : (slots >>> 2) &&& 3 ≠ 3) :
    ((slots >>> 2) &&& 3).toNat < romSlots := by
  have hle : ((slots >>> 2) &&& 3).toNat ≤ 3 := by
    rw [UInt8.toNat_and]
    exact Nat.and_le_right
  have hne : ((slots >>> 2) &&& 3).toNat ≠ 3 := fun heq => h (UInt8.toNat_inj.mp heq)
  exact Nat.lt_of_le_of_ne hle hne

/-- Without a cell, a slot shows. -/
theorem read_of_no_cell {m : MemoryMap} {a : UInt16} (h : m.cell? a = none) :
    ∃ slot : Fin romSlots, slot.val = ((m.slotSelect >>> 2) &&& 3).toNat ∧
      m.read a = ((m.roms.get slot).bind fun rom => rom.image[a.toNat % 0x4000]?).getD 0xFF := by
  have hslot : (m.slotSelect >>> 2) &&& 3 ≠ 3 := by
    intro hmapper
    unfold cell? at h
    rw [if_neg fun hrom => hrom.2 hmapper] at h
    exact nomatch h
  have hlt := toNat_slot_lt hslot
  refine ⟨⟨_, hlt⟩, rfl, ?_⟩
  have hshown : m.shownRom? = m.roms[((m.slotSelect >>> 2) &&& 3).toNat] := by
    have hget : m.roms[m.page1Slot.toNat]? = some m.roms[((m.slotSelect >>> 2) &&& 3).toNat] :=
      Vector.getElem?_eq_getElem hlt
    unfold shownRom?
    rw [hget]
  unfold read
  simp only [cell?_eq_none.mp h, Bool.false_eq_true, if_false, hshown]
  show _ = (Option.bind m.roms[((m.slotSelect >>> 2) &&& 3).toNat] _).getD 0xFF
  cases m.roms[((m.slotSelect >>> 2) &&& 3).toNat] with
  | none => rfl
  | some rom => exact Array.getD_eq_getD_getElem?

/-- **A map is mapped memory** of as many segments as it has. -/
theorem mapped {count : Nat} {m : MemoryMap} (hsize : m.segments.size = count) :
    Mapped count m where
  size := hsize
  bounds := hsize ▸ ⟨m.four_le, m.le_max⟩
  ram a c h := by
    obtain ⟨hsegment, hoffset⟩ := lt_of_cell? h
    exact ⟨hsize ▸ hsegment, hoffset, getElem?_ram h⟩
  slot _ h := read_of_no_cell h
  write _ _ v x h := read_write h v x
  ignored _ v h := write_eq_self h v
  layout a v := .write m a v
  kept _ v _ h := getElem?_segments_write h v

/-- Each single operation on a bus keeps memory mapped. -/
theorem keeps_mapped (count : Nat) : Z80.Bus.Keeps (Mapped count) where
  write map address b h := mapped ((SameLayout.write map address b).size.trans h.size)
  output map address b h := mapped ((map.sameParts_output address b).size.trans h.size)

/-! ## Section 3: What programs and calls change -/

/-- The segment shows at no address. -/
def Hidden (m : MemoryMap) (n : Nat) : Prop := ∀ a c, m.cell? a = some c → c.segment ≠ n

/-- **Only what shows changes**: there are as many segments as before, with the same read-only memory
    beside them, and a segment that shows nowhere before is the same afterwards. -/
structure ChangesShown (m m' : MemoryMap) : Prop where
  parts : m.SameParts m'
  hidden : ∀ n, m.Hidden n → m'.segments[n]? = m.segments[n]?

theorem ChangesShown.refl (m : MemoryMap) : m.ChangesShown m := ⟨.refl m, fun _ _ => rfl⟩

/-- As long as nothing is selected, any number of writes changes only what shows. -/
theorem keepsWrites_changesShown (m : MemoryMap) :
    Z80.Bus.KeepsWrites fun map => m.SameLayout map ∧ m.ChangesShown map := by
  rintro map address b ⟨hlayout, hparts, hkept⟩
  have hlayout' : m.SameLayout (map.write address b) := hlayout.trans (.write map address b)
  refine ⟨hlayout', hlayout'.sameParts, fun n hhidden => ?_⟩
  -- the cell at the address is the one that showed there at the start
  have hother : (map.cell? address).map Cell.segment ≠ some n := by
    intro hsegment
    obtain ⟨c, hcell, hn⟩ := Option.map_eq_some_iff.mp hsegment
    rw [hlayout.cell?] at hcell
    exact hhidden address c hcell hn
  exact (getElem?_segments_write hother b).trans (hkept n hhidden)

/-- Selecting changes no segment at all. -/
theorem changesShown_output (m : MemoryMap) (address : UInt16) (b : UInt8) :
    m.ChangesShown (m.output address b) :=
  ⟨m.sameParts_output address b, fun n _ => congrArg (·[n]?) (m.segments_output address b)⟩

end MemoryMap

open MemoryMap (Mapped ChangesShown)

namespace Run

variable {host : Host} {limit : Nat}

/-- **The step**: a turn changes only what shows, be it an answered call or an instruction. -/
theorem changesShown_turn (host : Host) (limit : Nat) (run : Run) :
    run.board.bus.ChangesShown (run.turn host limit).1.board.bus := by
  have hwrites := run.board.bus.keepsWrites_changesShown
  obtain ⟨-, hturn⟩ | ⟨-, guard, _, -, -, hturn⟩ | ⟨-, -, hturn⟩ := turn_cases host limit run
  · rw [hturn]
    exact .refl _
  · rw [hturn]
    exact (Board.fetch_keeps hwrites ⟨.refl _, .refl _⟩ guard host).2
  · rw [hturn]
    show run.board.bus.ChangesShown run.board.step.1.bus
    -- an instruction either writes, all under one selection, or selects
    obtain hsteps | ⟨address, b, hsends⟩ := Z80.State.step_cases run.board
    · exact (hsteps _ hwrites ⟨.refl _, .refl _⟩).2
    · rw [hsends]
      exact run.board.bus.changesShown_output address b

/-- **The run**: a segment that never shows on the way stays what it is. -/
theorem Reaches.getElem?_segments {run last : Run} (h : Reaches host limit run last) {n : Nat}
    (hhidden : ∀ between, Reaches host limit run between → Reaches host limit between last →
      between.board.bus.Hidden n) :
    last.board.bus.segments[n]? = run.board.bus.segments[n]? := by
  induction h with
  | here => rfl
  | @turn run next last hturn hrest ih =>
    have hstep := run.changesShown_turn host limit
    rw [hturn] at hstep
    have hbehind := ih fun between hreaches => hhidden between (.turn hturn hreaches)
    exact hbehind.trans (hstep.hidden n (hhidden run (.here run) (.turn hturn hrest)))

end Run

/-! ## Section 4: Memory of a machine -/

namespace Machine

/-- **From outside** nothing is put where there is no room for it. -/
structure FitsIn (count : Nat) (m : Machine) : Prop where
  installDriver : ∀ n m', m.installDriver n = .ok m' → n.toNat < count ∧
    driverOffset signatureAddress + signature.length ≤ 0x4000 ∧
    (∀ entry : EntryPoint, 0x4000 ≤ entry.address.toNat ∧ entry.address.toNat < 0x8000) ∧
    ∀ k, k ≠ n.toNat → m'.board.bus.segments[k]? = m.board.bus.segments[k]?
  loadSegment : ∀ n offset data m', m.loadSegment n offset data = .ok m' → n.toNat < count ∧
    offset + data.length ≤ 0x4000 ∧
    ∀ k, k ≠ n.toNat → m'.board.bus.segments[k]? = m.board.bus.segments[k]?
  insertRom : ∀ slot image m' device, m.insertRom slot image = .ok (m', device) →
    slot.toNat < 3 ∧ image.length ≤ 0x4000

theorem fitsIn {count : Nat} {m : Machine} (hsize : m.board.bus.segments.size = count) :
    FitsIn count m where
  installDriver n m' hok := by
    obtain ⟨hlt, rfl⟩ := installDriver_eq_ok hok
    refine ⟨hsize ▸ hlt, by decide, fun entry => ?_, fun k hk => ?_⟩
    · cases entry <;> decide
    · exact (MemoryMap.getElem?_segments_modifySegment _ _ _ _).trans (if_neg (Ne.symm hk))
  loadSegment n offset data m' hok := by
    obtain ⟨hfit, hlt, rfl⟩ := loadSegment_eq_ok hok
    refine ⟨hsize ▸ hlt, hfit, fun k hk => ?_⟩
    exact (MemoryMap.getElem?_segments_modifySegment _ _ _ _).trans (if_neg (Ne.symm hk))
  insertRom slot image m' device hok := by
    obtain ⟨hslot, hfit, -⟩ := insertRom_eq_ok hok
    exact ⟨hslot, hfit⟩

/-- **Mapped throughout**: memory is mapped now, whoever uses it, and along every run. -/
structure MappedThroughout (count : Nat) (m : Machine) : Prop where
  now : Mapped count m.board.bus
  fits : FitsIn count m
  /-- The world outside, the drive and the processor all read and write the same memory. -/
  peek : ∀ a, m.peek a = m.board.bus.read a ∧ Guest.peek m.board a = m.board.bus.read a ∧
    Z80.Bus.read m.board.bus a = m.board.bus.read a
  poke : ∀ a v, (m.poke a v).board.bus = m.board.bus.write a v ∧
    (Guest.poke m.board a v).bus = m.board.bus.write a v ∧
    (m.board.write a v).bus = m.board.bus.write a v
  load : ∀ a data, Mapped count (m.load a data).board.bus ∧
    ChangesShown m.board.bus (m.load a data).board.bus
  /-- Memory stays mapped at each single operation of a processor, ... -/
  operations : Z80.Bus.Keeps (Mapped count)
  /-- ... wherever a run comes by, and after each turn, which changes only what shows. -/
  turn : ∀ host address run, Run.Reaches host m.limit (m.start address) run →
    Mapped count run.board.bus ∧ run.board.bus.roms = m.board.bus.roms ∧
    Mapped count (run.turn host m.limit).1.board.bus ∧
    ChangesShown run.board.bus (run.turn host m.limit).1.board.bus
  /-- A segment that shows nowhere while a run goes on is the same afterwards. -/
  run : ∀ host address run n, Run.Reaches host m.limit (m.start address) run →
    (∀ between, Run.Reaches host m.limit (m.start address) between →
      Run.Reaches host m.limit between run → between.board.bus.Hidden n) →
    run.board.bus.segments[n]? = m.board.bus.segments[n]?

/-- **The memory of a machine in use is mapped memory.** However a machine was made and whatever was
    done to it, it has between 4 and 256 segments, and every access to its memory is within bounds.
    A byte that is written to RAM shows at each address of its cell and at no other; read-only
    memory and empty slots ignore it. No write changes read-only memory, the number of segments, or
    a segment that does not show at its address. All of this holds at every moment of every run. -/
theorem memory_stays_mapped {segments : Nat} {m : Machine} (hm : m.InUse segments) :
    MappedThroughout (max 4 (min segments 256)) m := by
  have hnow : Mapped (max 4 (min segments 256)) m.board.bus := MemoryMap.mapped hm.size
  refine {
    now := hnow
    fits := fitsIn hm.size
    peek := fun _ => ⟨rfl, rfl, rfl⟩
    poke := fun _ _ => ⟨rfl, rfl, rfl⟩
    load := ?load
    operations := MemoryMap.keeps_mapped _
    turn := ?turn
    run := fun _ _ _ _ hreaches hhidden => hreaches.getElem?_segments hhidden }
  case load =>
    intro a data
    rw [load_eq]
    have hwrites := m.board.bus.keepsWrites_changesShown
    exact ⟨Board.store_keeps (MemoryMap.keeps_mapped _).write hnow a data,
      (Board.store_keeps hwrites ⟨.refl _, .refl _⟩ a data).2⟩
  case turn =>
    intro host address run hreaches
    have hkeeps := Run.Keeps.of_bus (MemoryMap.keeps_mapped (max 4 (min segments 256))) host
    have hparts : m.board.bus.SameParts run.board.bus :=
      hreaches.keeps (.of_bus m.board.bus.keeps_sameParts host) (.refl _)
    have hrun : Mapped (max 4 (min segments 256)) run.board.bus := hreaches.keeps hkeeps hnow
    exact ⟨hrun, hparts.roms, hkeeps.turn hrun, run.changesShown_turn host m.limit⟩

/-- Of five segments, number 7 selects segment 2, which page 1 shows as well: a byte that is written
    to page 0 shows in both pages, and in no other. An empty slot in page 1 ignores it. -/
theorem memory_stays_mapped_shared_segment :
    let m := (Machine.new 5).selectSegment 0 7
    let empty := m.selectPage1Slot 1
    m.board.bus.segments.size = 5 ∧
      (m.poke 0x0010 0xAB).peek 0x4010 = 0xAB ∧
      (m.poke 0x0010 0xAB).peek 0x8010 = m.peek 0x8010 ∧
      (empty.poke 0x4010 0xAB).peek 0x4010 = 0xFF ∧
      (empty.poke 0x4010 0xAB).peek 0x0010 = empty.peek 0x0010 := by
  intro m empty
  have hm : m.InUse 5 := .operate (.new _) (.selectSegment _ 0 7)
  have hempty : empty.InUse 5 := .operate hm (.selectPage1Slot _ 1)
  have hmapped : Mapped 5 m.board.bus := (memory_stays_mapped hm).now
  have hslot : Mapped 5 empty.board.bus := (memory_stays_mapped hempty).now
  -- the cell of page 0 shows in page 1 too, and page 2 shows another
  have hcell : m.board.bus.cell? 0x0010 = some ⟨2, 0x10⟩ := by decide
  have hshared : m.board.bus.cell? 0x4010 = some ⟨2, 0x10⟩ := by decide
  have hother : m.board.bus.cell? 0x8010 ≠ some ⟨2, 0x10⟩ := by decide
  have hnone : empty.board.bus.cell? 0x4010 = none := by decide
  have hignored : (empty.poke 0x4010 0xAB).board.bus = empty.board.bus :=
    ((memory_stays_mapped hempty).poke _ _).1.trans (hslot.ignored _ _ hnone)
  refine ⟨hmapped.size, ?_, ?_, ?_, congrArg (·.read 0x0010) hignored⟩
  · exact (hmapped.write _ _ 0xAB _ hcell).trans (if_pos hshared)
  · exact (hmapped.write _ _ 0xAB _ hcell).trans (if_neg hother)
  · obtain ⟨slot, -, hread⟩ := hslot.slot _ hnone
    have hroms : empty.board.bus.roms[slot] = none := Vector.getElem_replicate slot.isLt
    rw [hroms] at hread
    exact (congrArg (·.read 0x4010) hignored).trans hread

end Machine

end HostDrive

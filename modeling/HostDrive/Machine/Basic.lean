import HostDrive.Drive.Guard
import HostDrive.Machine.MemoryMap

/-!
# Machines

A processor on a memory map, with a guard that watches it, or none. This module holds the machine
and the ways to fill its memory from outside:

- `installDriver` writes the driver module into a segment;
- `loadSegment` and `insertRom` check that the data fits before they change anything;
- `poke`, `load` and their like go through the pages, as the processor does.
-/

namespace HostDrive

abbrev Board := Z80.State MemoryMap

/-! ## The board as a guest -/

namespace Board

def registers (b : Board) : CallRegisters where
  a := b.cpu.a
  c := b.cpu.byte .c
  de := b.cpu.de
  hl := b.cpu.hl
  ix := b.cpu.ix
  iy := b.cpu.iy
  carry := b.cpu.flags.carry

/-- Replaces the registers of the calling convention. -/
def setRegisters (b : Board) (r : CallRegisters) : Board :=
  let { cpu, bus } := b
  { cpu := { cpu.setByte .c r.c with
      a := r.a, de := r.de, hl := r.hl, ix := r.ix, iy := r.iy
      flags := { cpu.flags with carry := r.carry } }
    bus }

def poke (b : Board) (address : UInt16) (v : UInt8) : Board := Z80.State.write b address v

end Board

instance : Guest Board where
  peek b := b.bus.read
  poke := Board.poke
  pc b := b.cpu.pc
  registers := Board.registers
  setRegisters := Board.setRegisters
  forceReturn := Z80.State.returnBack

instance : Slots Board where
  deviceInPage b := b.bus.deviceInPage
  blockInPage b := b.bus.blockInPage

/-! ## Machines -/

/-- A machine. -/
structure Machine where
  board : Board
  /-- Clock cycles since the machine was made, in 32 bits. -/
  clock : Int32 := 0
  guard : Option Guard := none
  /-- Instructions that a run may execute before it is given up. -/
  limit : Nat := 10000000
  /-- Identity of the device that is made next. -/
  nextDevice : DeviceId

namespace Machine

/-- Number of segments of a machine that nothing else is said of. -/
def usualSegments : Nat := 8

/-- A machine with this many segments, nothing in them and no guard. Its mapper is a new device, so it
takes the number that is due. -/
def new (segments : Nat) (device : DeviceId := firstDevice) : Machine where
  board := { cpu := {}, bus := MemoryMap.new segments device }
  nextDevice := device.next

def attach (m : Machine) (guard : Guard) : Machine := { m with guard := some guard }

def mapBus (m : Machine) (f : MemoryMap → MemoryMap) : Machine :=
  let { board, clock, guard, limit, nextDevice } := m
  let { cpu, bus } := board
  { board := { cpu, bus := f bus }, clock, guard, limit, nextDevice }

def segmentCount (m : Machine) : Nat := m.board.bus.segments.size

/-! ## Filling memory -/

/-- A segment with some bytes replaced, from an offset on. What would not fit is dropped. -/
def fillSegment (segment : Segment) (offset : Nat) : List UInt8 → Segment
  | [] => segment
  | b :: rest => fillSegment (segment.setIfInBounds offset b) (offset + 1) rest

/-- The instruction that returns to the caller. -/
def retOpcode : UInt8 := 0xC9

/-- Offset of an address of the driver's page inside its segment. -/
def driverOffset (address : UInt16) : Nat := address.toNat % pageSize

/-- A segment with the driver module in it: its signature, and a return at each entry point. -/
def withDriver (segment : Segment) : Segment :=
  EntryPoint.all.foldl (fun s entry => s.setIfInBounds (driverOffset entry.address) retOpcode)
    (fillSegment segment (driverOffset signatureAddress) signature)

/-! ## Requests -/

/-- A request to fill memory, which can be refused. Then too there is a machine that it leaves, with
whatever it had changed by then. -/
abbrev Request (α : Type) := ExceptT SetupError (StateM Machine) α

namespace Request

/-- The answer to a request, and the machine that it leaves. -/
def carryOut {α : Type} (request : Request α) (m : Machine) : Except SetupError α × Machine :=
  StateT.run request.run m

/-- The machine that a request leaves and what it returns, if it is granted. -/
def granted {α : Type} (request : Request α) (m : Machine) : Except SetupError (Machine × α) :=
  let (answer, m) := request.carryOut m
  answer.map fun returned => (m, returned)

/-- Refuses a segment that there is not. -/
def needSegment (n : UInt8) : Request Unit := do
  if (← get).segmentCount ≤ n.toNat then throw (.invalidSegment n)

/-- Refuses data that would end behind a page. -/
def needRoom (size : Nat) : Request Unit := do
  if pageSize < size then throw (.imageTooLarge size)

/-- Replaces a segment by a function of it. -/
def modifySegment (n : UInt8) (f : Segment → Segment) : Request Unit :=
  modify fun m => m.mapBus fun bus => bus.modifySegment n.toNat f

/-- Numbers a new device. -/
def numberDevice : Request DeviceId :=
  modifyGet fun m => (m.nextDevice, { m with nextDevice := m.nextDevice.next })

def installDriver (n : UInt8) : Request Unit := do
  needSegment n
  modifySegment n withDriver

def loadSegment (n : UInt8) (offset : Nat) (data : List UInt8) : Request Unit := do
  needRoom (offset + data.length)
  needSegment n
  modifySegment n fun segment => fillSegment segment offset data

def insertRom (slot : UInt8) (image : List UInt8) : Request DeviceId :=
  if h : romSlots ≤ slot.toNat then throw (.slotWithoutRom slot)
  else do
    needRoom image.length
    let device ← numberDevice
    let rom : Rom := { device, image := image.toArray }
    modify fun m => m.mapBus fun bus =>
      { bus with roms := bus.roms.set slot.toNat (some rom) (Nat.lt_of_not_le h) }
    return device

end Request

/-- Writes the driver module into a segment. -/
def installDriver (m : Machine) (n : UInt8) : Except SetupError Machine :=
  (Request.installDriver n |>.granted m).map Prod.fst

/-- Copies data into a segment, from an offset on. -/
def loadSegment (m : Machine) (n : UInt8) (offset : Nat) (data : List UInt8) :
    Except SetupError Machine :=
  (Request.loadSegment n offset data |>.granted m).map Prod.fst

/-- Plugs read-only memory into a slot, in the place of what was there. Returns its identity. -/
def insertRom (m : Machine) (slot : UInt8) (image : List UInt8) :
    Except SetupError (Machine × DeviceId) :=
  (Request.insertRom slot image).granted m

/-! ## Selecting -/

/-- Selects the slot that page 1 shows. -/
def selectPage1Slot (m : Machine) (slot : UInt8) : Machine :=
  m.mapBus fun bus => bus.selectPage1Slot slot

/-- Selects the segment that a page shows. -/
def selectSegment (m : Machine) (page : Page) (n : UInt8) : Machine :=
  m.mapBus fun bus => bus.selectSegment page n

/-! ## Visible memory -/

/-- The byte that shows at an address. -/
def peek (m : Machine) (address : UInt16) : UInt8 := m.board.bus.read address

def poke (m : Machine) (address : UInt16) (b : UInt8) : Machine :=
  m.mapBus fun bus => bus.write address b

/-- Writes bytes from an address on, as they show. -/
def load (m : Machine) (address : UInt16) : List UInt8 → Machine
  | [] => m
  | b :: rest => load (m.poke address b) (address + 1) rest

/-- Writes a text with a zero byte behind it. -/
def writeText (m : Machine) (address : UInt16) (s : String) : Machine :=
  m.load address (Guest.rawText s)

/-- The text at an address, at most `limit` characters of it. -/
def readText (m : Machine) (address : UInt16) (limit : Nat) : String :=
  Guest.readText m.peek address limit

def readBlock (m : Machine) (address : UInt16) (length : Nat) : List UInt8 :=
  Guest.readBlock m.peek address length

end Machine

end HostDrive

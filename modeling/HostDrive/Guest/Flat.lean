import HostDrive.Guest.Basic

/-!
# Flat Guests

The plainest guest: 64K of memory that can be read and written everywhere, registers, and a list of
devices and blocks that is simply given. A forced return does nothing but count.
-/

namespace HostDrive

/-- Number of bytes that the guest can address. -/
def memorySize : Nat := 65536

/-- A guest with flat memory. -/
structure FlatGuest where
  memory : Vector UInt8 memorySize
  registers : CallRegisters := {}
  pc : UInt16 := 0
  /-- How often a return was forced. -/
  returns : Nat := 0
  /-- The device in each page. -/
  devices : Page → Option DeviceId := fun _ => none
  /-- The block that each device shows in each page. -/
  blocks : DeviceId → Page → Option UInt8 := fun _ _ => none

namespace FlatGuest

/-- A guest whose memory holds one byte everywhere. -/
def filled (b : UInt8) : FlatGuest where
  memory := Vector.replicate memorySize b

def peek (g : FlatGuest) (address : UInt16) : UInt8 := g.memory[address.toFin]

def poke (g : FlatGuest) (address : UInt16) (b : UInt8) : FlatGuest :=
  { g with memory := g.memory.set address.toNat b address.toFin.isLt }

/-- Shows a device in a page, or none. -/
def setDevice (g : FlatGuest) (page : Page) (device : Option DeviceId) : FlatGuest :=
  { g with devices := fun p => if p = page then device else g.devices p }

/-- Shows a block of a device in a page, or none. -/
def setBlock (g : FlatGuest) (device : DeviceId) (page : Page) (block : Option UInt8) :
    FlatGuest :=
  { g with blocks := fun d p => if d = device ∧ p = page then block else g.blocks d p }

instance : Guest FlatGuest where
  peek := peek
  poke := poke
  pc := pc
  registers := registers
  setRegisters g r := { g with registers := r }
  forceReturn g := { g with returns := g.returns + 1 }

instance : Slots FlatGuest where
  deviceInPage := devices
  blockInPage := blocks

end FlatGuest

end HostDrive

import HostDrive.Guest.Memory

/-!
# Guests

What the drive needs from the machine that it serves, as two classes:

- `Guest`: memory, the registers that carry arguments and results, and a way to leave the routine
  that is being entered;
- `Slots`: which device shows in a page of memory, and which of its blocks.

The drive never owns the processor nor the memory map, so anything with these operations can be
served.
-/

namespace HostDrive

/-! ## Registers -/

/-- The registers by which guest and drive exchange arguments and results. -/
structure CallRegisters where
  a : UInt8 := 0
  c : UInt8 := 0
  de : UInt16 := 0
  hl : UInt16 := 0
  ix : UInt16 := 0
  iy : UInt16 := 0
  carry : Bool := false
  deriving DecidableEq, Repr

/-! ## Memory and control -/

/-- A machine that can call the drive. -/
class Guest (γ : Type) where
  /-- The byte at an address. -/
  peek : γ → Guest.View
  /-- The machine after a byte was written, which read-only memory ignores. -/
  poke : γ → UInt16 → UInt8 → γ
  /-- Address of the next instruction. -/
  pc : γ → UInt16
  /-- The registers of the calling convention. -/
  registers : γ → CallRegisters
  /-- Replaces the registers of the calling convention, and no others. -/
  setRegisters : γ → CallRegisters → γ
  /-- Abandons the routine being entered and goes on at its caller. -/
  forceReturn : γ → γ

namespace Guest

def store {γ : Type} [Guest γ] (guest : γ) (address : UInt16) : List UInt8 → γ
  | [] => guest
  | b :: rest => store (poke guest address b) (address + 1) rest

end Guest

/-! ## Slots -/

abbrev Page := Fin 4

/-- Identity of a device. Devices are numbered as they are made, whatever place they are put in, with
numbers of 32 bits. -/
structure DeviceId where
  number : UInt32
  deriving DecidableEq, Repr

/-- The identity of the device that is made next. After the last number comes zero. -/
def DeviceId.next (device : DeviceId) : DeviceId := ⟨device.number + 1⟩

/-- A machine whose pages of memory can show different devices. -/
class Slots (γ : Type) where
  /-- The device that shows in a page. -/
  deviceInPage : γ → Page → Option DeviceId
  /-- The block of a device that shows in a page, if the device is memory in blocks. -/
  blockInPage : γ → DeviceId → Page → Option UInt8

end HostDrive

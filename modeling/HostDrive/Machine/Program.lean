import HostDrive.Bytes

/-!
# Programs

Small guest programs as lists of operations, and their machine code: enough to put arguments into
registers, to switch memory, to call the driver and to stop.
-/

namespace HostDrive

/-- The registers that can take an argument for the driver. -/
inductive ArgumentPair where
  | de | hl | ix | iy
  deriving DecidableEq, Repr

/-- One operation of a program. -/
inductive Operation where
  | load (target : ArgumentPair) (value : UInt16)
  /-- Sends a byte to an I/O address, by way of `A`. -/
  | out (address value : UInt8)
  | call (address : UInt16)
  | halt
  deriving DecidableEq, Repr

abbrev Program := List Operation

def ArgumentPair.opcode : ArgumentPair → List UInt8
  | de => [0x11]
  | hl => [0x21]
  | ix => [0xDD, 0x21]
  | iy => [0xFD, 0x21]

def Operation.code : Operation → List UInt8
  | load target value => target.opcode ++ [Bytes.low value, Bytes.high value]
  | out address value => [0x3E, value, 0xD3, address]
  | call address => [0xCD, Bytes.low address, Bytes.high address]
  | halt => [0x76]

def Program.code (p : Program) : List UInt8 := p.flatMap Operation.code

end HostDrive

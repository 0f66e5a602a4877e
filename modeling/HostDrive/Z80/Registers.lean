import HostDrive.Bytes

/-!
# Registers of the Processor

The registers of a Z80 and the three ways to name them: as bytes, as pairs, and as condition flags.

Pairs are stored as words, so that a program's sixteen-bit values need no assembling; the bytes
inside them are read and written through the pair. `IX` and `IY` have bytes too.
-/

namespace HostDrive.Z80

/-! ## Flags -/

/-- The condition flags. -/
structure Flags where
  sign : Bool := false
  zero : Bool := false
  /-- Copy of a bit of the result, without meaning. -/
  bit5 : Bool := false
  /-- Carry out of the lower half. -/
  half : Bool := false
  /-- Copy of a bit of the result, without meaning. -/
  bit3 : Bool := false
  /-- Even parity, or signed overflow. -/
  parity : Bool := false
  subtract : Bool := false
  carry : Bool := false
  deriving DecidableEq, Repr

namespace Flags

/-- The value of one flag in the flag byte. -/
def weigh (flag : Bool) (weight : UInt8) : UInt8 := if flag then weight else 0

def toByte (f : Flags) : UInt8 :=
  weigh f.sign 0x80 + weigh f.zero 0x40 + weigh f.bit5 0x20 + weigh f.half 0x10 +
    weigh f.bit3 0x08 + weigh f.parity 0x04 + weigh f.subtract 0x02 + weigh f.carry 0x01

def ofByte (b : UInt8) : Flags where
  sign := b &&& 0x80 != 0
  zero := b &&& 0x40 != 0
  bit5 := b &&& 0x20 != 0
  half := b &&& 0x10 != 0
  bit3 := b &&& 0x08 != 0
  parity := b &&& 0x04 != 0
  subtract := b &&& 0x02 != 0
  carry := b &&& 0x01 != 0

def all : Flags := ofByte 0xFF

end Flags

/-! ## Names of registers -/

/-- The two index registers. -/
inductive Index where
  | ix
  | iy
  deriving DecidableEq, Repr

/-- Registers of eight bits. -/
inductive ByteRegister where
  | a | b | c | d | e | h | l
  | ixHigh | ixLow | iyHigh | iyLow
  deriving DecidableEq, Repr

/-- Registers of sixteen bits. -/
inductive Pair where
  | bc | de | hl | af | sp | ix | iy
  deriving DecidableEq, Repr

def Index.pair : Index → Pair
  | .ix => .ix
  | .iy => .iy

/-! ## The processor -/

/-- State of the processor. -/
structure Processor where
  a : UInt8 := 0
  flags : Flags := {}
  bc : UInt16 := 0
  de : UInt16 := 0
  hl : UInt16 := 0
  ix : UInt16 := 0
  iy : UInt16 := 0
  sp : UInt16 := 0
  pc : UInt16 := 0
  /-- The second set of registers. -/
  shadowAF : UInt16 := 0
  shadowBC : UInt16 := 0
  shadowDE : UInt16 := 0
  shadowHL : UInt16 := 0
  /-- Page of the interrupt vectors. -/
  i : UInt8 := 0
  r : UInt8 := 0
  interruptsOn : Bool := false
  /-- What `interruptsOn` was before a non-maskable interrupt. -/
  interruptsSaved : Bool := false
  interruptMode : Nat := 0
  halted : Bool := false
  /-- The index register that the next instruction uses in place of `HL`. -/
  index : Option Index := none
  deriving DecidableEq, Repr

namespace Processor

/-- The processor after a reset: `A` and the flags are all ones in both sets, all else is zero. -/
def afterReset : Processor where
  a := 0xFF
  flags := Flags.all
  shadowAF := 0xFFFF

def pair (p : Processor) : Pair → UInt16
  | .bc => p.bc
  | .de => p.de
  | .hl => p.hl
  | .af => Bytes.word p.flags.toByte p.a
  | .sp => p.sp
  | .ix => p.ix
  | .iy => p.iy

def setPair (p : Processor) (name : Pair) (w : UInt16) : Processor :=
  match name with
  | .bc => { p with bc := w }
  | .de => { p with de := w }
  | .hl => { p with hl := w }
  | .af => { p with a := Bytes.high w, flags := Flags.ofByte (Bytes.low w) }
  | .sp => { p with sp := w }
  | .ix => { p with ix := w }
  | .iy => { p with iy := w }

def byte (p : Processor) : ByteRegister → UInt8
  | .a => p.a
  | .b => Bytes.high p.bc
  | .c => Bytes.low p.bc
  | .d => Bytes.high p.de
  | .e => Bytes.low p.de
  | .h => Bytes.high p.hl
  | .l => Bytes.low p.hl
  | .ixHigh => Bytes.high p.ix
  | .ixLow => Bytes.low p.ix
  | .iyHigh => Bytes.high p.iy
  | .iyLow => Bytes.low p.iy

def withHigh (w : UInt16) (b : UInt8) : UInt16 := Bytes.word (Bytes.low w) b

def withLow (w : UInt16) (b : UInt8) : UInt16 := Bytes.word b (Bytes.high w)

def setByte (p : Processor) (name : ByteRegister) (b : UInt8) : Processor :=
  match name with
  | .a => { p with a := b }
  | .b => { p with bc := withHigh p.bc b }
  | .c => { p with bc := withLow p.bc b }
  | .d => { p with de := withHigh p.de b }
  | .e => { p with de := withLow p.de b }
  | .h => { p with hl := withHigh p.hl b }
  | .l => { p with hl := withLow p.hl b }
  | .ixHigh => { p with ix := withHigh p.ix b }
  | .ixLow => { p with ix := withLow p.ix b }
  | .iyHigh => { p with iy := withHigh p.iy b }
  | .iyLow => { p with iy := withLow p.iy b }

/-- Counts instruction fetches in the lower seven bits of `R`. -/
def countFetches (p : Processor) (n : Nat) : Processor :=
  { p with r := (p.r &&& 0x80) ||| ((p.r + UInt8.ofNat n) &&& 0x7F) }

end Processor

end HostDrive.Z80

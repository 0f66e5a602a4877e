import HostDrive.Z80.Instruction

/-!
# Arithmetic and Flags

What the processor computes on bytes and words, and the flags that each computation leaves. Sums are
taken over the natural numbers, so that a carry is what does not fit.

Two flags have no meaning of their own and copy two bits of the result, or of an operand.
-/

namespace HostDrive.Z80.Arithmetic

/-! ## Properties of a byte -/

def isNegative (b : UInt8) : Bool := b &&& 0x80 != 0

/-- A byte with an even number of ones. -/
def hasEvenParity (b : UInt8) : Bool :=
  let b := b ^^^ (b >>> 4)
  let b := b ^^^ (b >>> 2)
  let b := b ^^^ (b >>> 1)
  b &&& 1 == 0

/-- The flags that copy two bits of a byte, and no other flag. -/
def copied (b : UInt8) : Flags := { bit5 := b &&& 0x20 != 0, bit3 := b &&& 0x08 != 0 }

/-- The flags that describe a byte: sign, zero and the copies. -/
def describe (b : UInt8) : Flags :=
  { copied b with sign := isNegative b, zero := b == 0 }

/-- The flags that describe a byte, and its parity. -/
def describeParity (b : UInt8) : Flags := { describe b with parity := hasEvenParity b }

/-- The flags of the second byte in the places of the copies. -/
def withCopies (f : Flags) (b : UInt8) : Flags :=
  { f with bit5 := b &&& 0x20 != 0, bit3 := b &&& 0x08 != 0 }

/-! ## Bytes -/

def carryIn (c : Bool) : Nat := if c then 1 else 0

/-- The sum of two bytes and a carry. -/
def add (x y : UInt8) (c : Bool) : UInt8 × Flags :=
  let sum := x.toNat + y.toNat + carryIn c
  let result := UInt8.ofNat sum
  (result, { describe result with
    half := 15 < x.toNat % 16 + y.toNat % 16 + carryIn c
    parity := isNegative x == isNegative y && isNegative x != isNegative result
    carry := 255 < sum })

/-- The difference of two bytes, less a carry. -/
def sub (x y : UInt8) (c : Bool) : UInt8 × Flags :=
  let result := UInt8.ofNat (x.toNat + 512 - y.toNat - carryIn c)
  (result, { describe result with
    half := x.toNat % 16 < y.toNat % 16 + carryIn c
    parity := isNegative x != isNegative y && isNegative x != isNegative result
    subtract := true
    carry := x.toNat < y.toNat + carryIn c })

/-- An operation on `A` and another byte: the new `A` and the flags. -/
def operate (op : Operation) (a b : UInt8) (carry : Bool) : UInt8 × Flags :=
  match op with
  | .add => add a b false
  | .addCarry => add a b carry
  | .sub => sub a b false
  | .subCarry => sub a b carry
  | .and => (a &&& b, { describeParity (a &&& b) with half := true })
  | .xor => (a ^^^ b, describeParity (a ^^^ b))
  | .or => (a ||| b, describeParity (a ||| b))
  | .compare => (a, withCopies (sub a b false).2 b)

/-- A byte counted up; the carry stays. -/
def increment (b : UInt8) (f : Flags) : UInt8 × Flags :=
  let counted := add b 1 false
  (counted.1, { counted.2 with carry := f.carry })

/-- A byte counted down; the carry stays. -/
def decrement (b : UInt8) (f : Flags) : UInt8 × Flags :=
  let counted := sub b 1 false
  (counted.1, { counted.2 with carry := f.carry })

/-- The accumulator after a sum or difference of decimal digit pairs, corrected to digits again. -/
def decimalAdjust (a : UInt8) (f : Flags) : UInt8 × Flags :=
  let lowDigit := a.toNat % 16
  let carry := f.carry || 0x99 < a.toNat
  let correction : UInt8 :=
    (if f.half || 9 < lowDigit then 0x06 else 0) + (if carry then 0x60 else 0)
  let result := if f.subtract then a - correction else a + correction
  (result, { describeParity result with
    half := if f.subtract then f.half && decide (lowDigit < 6) else 9 < lowDigit
    subtract := f.subtract
    carry := carry })

/-! ## Shifts -/

/-- A byte shifted by one bit, and the bit that fell out. -/
def shiftBits (s : Shift) (b : UInt8) (carry : Bool) : UInt8 × Bool :=
  let top := isNegative b
  let bottom := b &&& 1 != 0
  let low (bit : Bool) : UInt8 := if bit then 0x01 else 0
  let high (bit : Bool) : UInt8 := if bit then 0x80 else 0
  match s with
  | .rotateLeft => ((b <<< 1) ||| low top, top)
  | .rotateRight => ((b >>> 1) ||| high bottom, bottom)
  | .rotateLeftCarry => ((b <<< 1) ||| low carry, top)
  | .rotateRightCarry => ((b >>> 1) ||| high carry, bottom)
  | .left => (b <<< 1, top)
  | .rightSigned => ((b >>> 1) ||| high top, bottom)
  | .leftOnes => ((b <<< 1) ||| 1, top)
  | .right => (b >>> 1, bottom)

def shift (s : Shift) (b : UInt8) (f : Flags) : UInt8 × Flags :=
  let shifted := shiftBits s b f.carry
  (shifted.1, { describeParity shifted.1 with carry := shifted.2 })

/-- A rotation of `A`, which leaves sign, zero and parity alone. -/
def rotateA (s : Shift) (a : UInt8) (f : Flags) : UInt8 × Flags :=
  let shifted := shiftBits s a f.carry
  (shifted.1,
    { withCopies f shifted.1 with half := false, subtract := false, carry := shifted.2 })

/-- A bit of a byte as a mask. -/
def mask (bit : Nat) : UInt8 := UInt8.ofNat (1 <<< bit)

/-- The flags after a test of one bit. -/
def testBit (bit : Nat) (b : UInt8) (f : Flags) : Flags :=
  let found := b &&& mask bit
  { withCopies (describeParity found) b with half := true, carry := f.carry }

/-! ## Words -/

/-- The sum of two words; sign, zero and parity stay. -/
def addWord (x y : UInt16) (f : Flags) : UInt16 × Flags :=
  let sum := x.toNat + y.toNat
  let result := UInt16.ofNat sum
  (result, { withCopies f (Bytes.high result) with
    half := 4095 < x.toNat % 4096 + y.toNat % 4096
    subtract := false
    carry := 65535 < sum })

def isNegativeWord (w : UInt16) : Bool := w &&& 0x8000 != 0

/-- The sum of two words and the carry, with all flags. -/
def addCarryWord (x y : UInt16) (f : Flags) : UInt16 × Flags :=
  let c := carryIn f.carry
  let sum := x.toNat + y.toNat + c
  let result := UInt16.ofNat sum
  (result, { describe (Bytes.high result) with
    zero := result == 0
    half := 4095 < x.toNat % 4096 + y.toNat % 4096 + c
    parity :=
      isNegativeWord x == isNegativeWord y && isNegativeWord x != isNegativeWord result
    carry := 65535 < sum })

/-- The difference of two words, less the carry, with all flags. -/
def subCarryWord (x y : UInt16) (f : Flags) : UInt16 × Flags :=
  let c := carryIn f.carry
  let result := UInt16.ofNat (x.toNat + 131072 - y.toNat - c)
  (result, { describe (Bytes.high result) with
    zero := result == 0
    half := x.toNat % 4096 < y.toNat % 4096 + c
    parity :=
      isNegativeWord x != isNegativeWord y && isNegativeWord x != isNegativeWord result
    subtract := true
    carry := x.toNat < y.toNat + c })

/-- A word moved by a signed byte. -/
def displace (w : UInt16) (distance : UInt8) : UInt16 :=
  let d := UInt16.ofNat distance.toNat
  if isNegative distance then w + d - 0x100 else w + d

/-- A word moved by one in a direction. -/
def advance (d : Direction) (w : UInt16) : UInt16 :=
  match d with
  | .up => w + 1
  | .down => w - 1

end HostDrive.Z80.Arithmetic

import HostDrive.Z80.Registers

/-!
# Instructions

The instructions of a Z80 with their operands, free of any encoding. An instruction that names an
index register says so in its operands: the byte that announces an index register is an
instruction of its own, `useIndex`, and decides how the next opcode is read.
-/

namespace HostDrive.Z80

/-! ## Operands -/

/-- Where a byte is kept. -/
inductive Place where
  | register (r : ByteRegister)
  /-- Memory that a pair points at. -/
  | pointed (p : Pair)
  /-- Memory at a signed distance from an index register. -/
  | indexed (i : Index) (distance : UInt8)
  | absolute (address : UInt16)
  deriving DecidableEq, Repr

/-- Where a byte comes from. -/
inductive Source where
  | place (p : Place)
  | value (b : UInt8)
  deriving DecidableEq, Repr

/-- Where a word is kept. -/
inductive WordPlace where
  | pair (p : Pair)
  | absolute (address : UInt16)
  deriving DecidableEq, Repr

/-- Where a word comes from. -/
inductive WordSource where
  | place (p : WordPlace)
  | value (w : UInt16)
  deriving DecidableEq, Repr

/-- A test of one flag. -/
inductive Condition where
  | nonZero | zero | noCarry | carry | parityOdd | parityEven | positive | negative
  deriving DecidableEq, Repr

/-- Operations on `A` and another byte. -/
inductive Operation where
  | add | addCarry | sub | subCarry | and | xor | or | compare
  deriving DecidableEq, Repr

/-- Shifts and rotations by one bit. -/
inductive Shift where
  | rotateLeft | rotateRight | rotateLeftCarry | rotateRightCarry
  | left | rightSigned | leftOnes | right
  deriving DecidableEq, Repr

/-- The way in which a block instruction moves its pointers. -/
inductive Direction where
  | up
  | down
  deriving DecidableEq, Repr

/-- The special registers that `A` can be exchanged with. -/
inductive SpecialRegister where
  | i
  | r
  deriving DecidableEq, Repr

/-! ## Instructions -/

/-- An instruction with its operands. -/
inductive Instruction where
  | nop
  | halt
  /-- The next opcode uses an index register in place of `HL`. -/
  | useIndex (i : Index)
  | load (target : Place) (source : Source)
  | loadWord (target : WordPlace) (source : WordSource)
  | push (p : Pair)
  | pop (p : Pair)
  | exchangeDEHL
  | exchangeAF
  /-- Exchanges `BC`, `DE` and `HL` with the second set. -/
  | exchangeAll
  /-- Exchanges a pair with the word on top of the stack. -/
  | exchangeTop (p : Pair)
  | arithmetic (op : Operation) (source : Source)
  | increment (p : Place)
  | decrement (p : Place)
  | incrementWord (p : Pair)
  | decrementWord (p : Pair)
  | addWord (target source : Pair)
  | addCarryWord (source : Pair)
  | subCarryWord (source : Pair)
  /-- A rotation of `A` that leaves most flags alone. -/
  | rotateA (s : Shift)
  | shift (s : Shift) (p : Place)
  | testBit (bit : Nat) (p : Place)
  | resetBit (bit : Nat) (p : Place)
  | setBit (bit : Nat) (p : Place)
  | decimalAdjust
  | complement
  | negate
  | setCarry
  | complementCarry
  /-- Rotates the digits of memory at `HL` through the low digit of `A`. -/
  | rotateDigitsLeft
  | rotateDigitsRight
  | jump (when? : Option Condition) (target : UInt16)
  | jumpPair (p : Pair)
  | jumpRelative (when? : Option Condition) (distance : UInt8)
  /-- Counts `B` down and jumps unless it is zero. -/
  | loop (distance : UInt8)
  | call (when? : Option Condition) (target : UInt16)
  | ret (when? : Option Condition)
  | retInterrupt
  | restart (target : UInt16)
  /-- Reads `A` from an I/O address whose upper half is `A`. -/
  | inputA (low : UInt8)
  | outputA (low : UInt8)
  /-- Reads a register from the I/O address in `BC`, or only sets the flags. -/
  | input (target : Option ByteRegister)
  /-- Writes a register, or zero, to the I/O address in `BC`. -/
  | output (source : Option ByteRegister)
  | copyBlock (d : Direction) (again : Bool)
  | compareBlock (d : Direction) (again : Bool)
  | inputBlock (d : Direction) (again : Bool)
  | outputBlock (d : Direction) (again : Bool)
  | allowInterrupts (on : Bool)
  | interruptMode (mode : Nat)
  | storeSpecial (target : SpecialRegister)
  | loadSpecial (source : SpecialRegister)
  deriving DecidableEq, Repr

end HostDrive.Z80

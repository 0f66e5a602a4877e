import HostDrive.Z80.Instruction

/-!
# Decoding

An opcode is read as three fields, `xx yyy zzz`: the first selects a group, the other two registers,
operations and conditions. Two opcodes open further tables, one for bits and shifts and one for
everything that came late.

Where an index register stands in for `HL`, an operand in memory has a distance behind the opcode,
and the other operand of the same instruction still means the plain registers.

The number of clock cycles is the one for a branch that is not taken; what a taken branch or a
repeat costs on top is known only when the instruction is executed.
-/

namespace HostDrive.Z80

/-- An instruction as found in memory. -/
structure Decoded where
  instruction : Instruction
  size : Nat
  /-- Number of clock cycles, without those of a taken branch or a repeat. -/
  cycles : Nat
  fetches : Nat := 1
  deriving DecidableEq, Repr

namespace Decode

/-! ## Operand tables -/

/-- The pair in the place of `HL`. -/
def hlPair (index : Option Index) : Pair :=
  match index with
  | none => .hl
  | some i => i.pair

/-- The registers of a three-bit field; 6 stands for memory and has none. -/
def plainRegister? : Nat → Option ByteRegister
  | 0 => some .b
  | 1 => some .c
  | 2 => some .d
  | 3 => some .e
  | 4 => some .h
  | 5 => some .l
  | 7 => some .a
  | _ => none

/-- A register with the halves of an index register in the places of `H` and `L`. -/
def indexHalf (index : Option Index) (r : ByteRegister) : ByteRegister :=
  match index, r with
  | some .ix, .h => .ixHigh
  | some .ix, .l => .ixLow
  | some .iy, .h => .iyHigh
  | some .iy, .l => .iyLow
  | _, r => r

/-- The registers of a three-bit field where an index register may stand in. -/
def register? (index : Option Index) (field : Nat) : Option ByteRegister :=
  (plainRegister? field).map (indexHalf index)

/-- The pairs of a two-bit field, with the stack pointer last. -/
def pairSP (index : Option Index) : Nat → Pair
  | 0 => .bc
  | 1 => .de
  | 2 => hlPair index
  | _ => .sp

/-- The pairs of a two-bit field, with `AF` last. -/
def pairAF (index : Option Index) : Nat → Pair
  | 0 => .bc
  | 1 => .de
  | 2 => hlPair index
  | _ => .af

def condition : Nat → Condition
  | 0 => .nonZero
  | 1 => .zero
  | 2 => .noCarry
  | 3 => .carry
  | 4 => .parityOdd
  | 5 => .parityEven
  | 6 => .positive
  | _ => .negative

def operation : Nat → Operation
  | 0 => .add
  | 1 => .addCarry
  | 2 => .sub
  | 3 => .subCarry
  | 4 => .and
  | 5 => .xor
  | 6 => .or
  | _ => .compare

def shift : Nat → Shift
  | 0 => .rotateLeft
  | 1 => .rotateRight
  | 2 => .rotateLeftCarry
  | 3 => .rotateRightCarry
  | 4 => .left
  | 5 => .rightSigned
  | 6 => .leftOnes
  | _ => .right

/-- The operand in memory that `HL` or an index register points at. -/
def memory (index : Option Index) (byte : Nat → UInt8) : Place :=
  match index with
  | none => .pointed .hl
  | some i => .indexed i (byte 1)

/-- The word in two bytes behind an opcode. -/
def wordAt (byte : Nat → UInt8) (n : Nat) : UInt16 := Bytes.word (byte n) (byte (n + 1))

/-- An instruction with an operand in memory: an index register adds a byte for the distance, and
cycles for the sum. -/
def withMemory (index : Option Index) (instruction : Instruction) (size cycles : Nat) : Decoded :=
  match index with
  | none => ⟨instruction, size, cycles, 1⟩
  | some _ => ⟨instruction, size + 1, cycles + 8, 1⟩

/-! ## The table for bits and shifts -/

/-- An opcode of the table for bits and shifts, for its operand. -/
def bitInstruction (opcode : Nat) (p : Place) : Instruction :=
  match opcode / 64 with
  | 0 => .shift (shift (opcode / 8 % 8)) p
  | 1 => .testBit (opcode / 8 % 8) p
  | 2 => .resetBit (opcode / 8 % 8) p
  | _ => .setBit (opcode / 8 % 8) p

/-- An instruction of the table for bits and shifts. -/
def bits (index : Option Index) (byte : Nat → UInt8) : Decoded :=
  match index with
  | some i =>
    let opcode := (byte 2).toNat
    let cycles := if opcode / 64 = 1 then 16 else 19
    ⟨bitInstruction opcode (.indexed i (byte 1)), 3, cycles, 1⟩
  | none =>
    let opcode := (byte 1).toNat
    match plainRegister? (opcode % 8) with
    | some r => ⟨bitInstruction opcode (.register r), 2, 8, 2⟩
    | none =>
      let cycles := if opcode / 64 = 1 then 12 else 15
      ⟨bitInstruction opcode (.pointed .hl), 2, cycles, 2⟩

/-! ## The table of late instructions -/

def block (again : Bool) (d : Direction) : Nat → Instruction
  | 0 => .copyBlock d again
  | 1 => .compareBlock d again
  | 2 => .inputBlock d again
  | _ => .outputBlock d again

/-- The interrupt modes of a two-bit field. -/
def interruptMode : Nat → Nat
  | 2 => 1
  | 3 => 2
  | _ => 0

/-- An instruction of the table of late instructions. Opcodes without a meaning do nothing. -/
def late (byte : Nat → UInt8) : Decoded :=
  let opcode := (byte 1).toNat
  let y := opcode / 8 % 8
  let z := opcode % 8
  let short (instruction : Instruction) (cycles : Nat) : Decoded := ⟨instruction, 2, cycles, 2⟩
  let long (instruction : Instruction) : Decoded := ⟨instruction, 4, 20, 2⟩
  let pair := pairSP none (y / 2)
  match opcode / 64, z with
  | 1, 0 => short (.input (plainRegister? y)) 12
  | 1, 1 => short (.output (plainRegister? y)) 12
  | 1, 2 => short (if y % 2 = 0 then .subCarryWord pair else .addCarryWord pair) 15
  | 1, 3 =>
    let place := WordPlace.absolute (wordAt byte 2)
    long (if y % 2 = 0 then .loadWord place (.place (.pair pair))
      else .loadWord (.pair pair) (.place place))
  | 1, 4 => short .negate 8
  | 1, 5 => short .retInterrupt 14
  | 1, 6 => short (.interruptMode (interruptMode (y % 4))) 8
  | 1, 7 =>
    match y with
    | 0 => short (.storeSpecial .i) 9
    | 1 => short (.storeSpecial .r) 9
    | 2 => short (.loadSpecial .i) 9
    | 3 => short (.loadSpecial .r) 9
    | 4 => short .rotateDigitsRight 18
    | 5 => short .rotateDigitsLeft 18
    | _ => short .nop 8
  | 2, z =>
    if 4 ≤ y ∧ z < 4 then
      short (block (6 ≤ y) (if y % 2 = 0 then .up else .down) z) 16
    else short .nop 8
  | _, _ => short .nop 8

/-! ## The main table -/

/-- The rotations and flag instructions at the end of the first group. -/
def accumulator : Nat → Instruction
  | 0 => .rotateA .rotateLeft
  | 1 => .rotateA .rotateRight
  | 2 => .rotateA .rotateLeftCarry
  | 3 => .rotateA .rotateRightCarry
  | 4 => .decimalAdjust
  | 5 => .complement
  | 6 => .setCarry
  | _ => .complementCarry

/-- Loads between `A` or `HL` and memory that has an address of its own. -/
def loadIndirect (index : Option Index) (byte : Nat → UInt8) (y : Nat) : Decoded :=
  let a := Place.register .a
  let byteAt := Place.absolute (wordAt byte 1)
  let wordPlace := WordPlace.absolute (wordAt byte 1)
  let hl := WordPlace.pair (hlPair index)
  match y with
  | 0 => ⟨.load (.pointed .bc) (.place a), 1, 7, 1⟩
  | 1 => ⟨.load a (.place (.pointed .bc)), 1, 7, 1⟩
  | 2 => ⟨.load (.pointed .de) (.place a), 1, 7, 1⟩
  | 3 => ⟨.load a (.place (.pointed .de)), 1, 7, 1⟩
  | 4 => ⟨.loadWord wordPlace (.place hl), 3, 16, 1⟩
  | 5 => ⟨.loadWord hl (.place wordPlace), 3, 16, 1⟩
  | 6 => ⟨.load byteAt (.place a), 3, 13, 1⟩
  | _ => ⟨.load a (.place byteAt), 3, 13, 1⟩

/-- The first group: immediate loads, counting, relative jumps. -/
def first (index : Option Index) (byte : Nat → UInt8) (y z : Nat) : Decoded :=
  match z with
  | 0 =>
    match y with
    | 0 => ⟨.nop, 1, 4, 1⟩
    | 1 => ⟨.exchangeAF, 1, 4, 1⟩
    | 2 => ⟨.loop (byte 1), 2, 8, 1⟩
    | 3 => ⟨.jumpRelative none (byte 1), 2, 7, 1⟩
    | _ => ⟨.jumpRelative (some (condition (y - 4))) (byte 1), 2, 7, 1⟩
  | 1 =>
    let pair := pairSP index (y / 2)
    if y % 2 = 0 then ⟨.loadWord (.pair pair) (.value (wordAt byte 1)), 3, 10, 1⟩
    else ⟨.addWord (hlPair index) pair, 1, 11, 1⟩
  | 2 => loadIndirect index byte y
  | 3 =>
    let pair := pairSP index (y / 2)
    ⟨if y % 2 = 0 then .incrementWord pair else .decrementWord pair, 1, 6, 1⟩
  | 4 =>
    match register? index y with
    | some r => ⟨.increment (.register r), 1, 4, 1⟩
    | none => withMemory index (.increment (memory index byte)) 1 11
  | 5 =>
    match register? index y with
    | some r => ⟨.decrement (.register r), 1, 4, 1⟩
    | none => withMemory index (.decrement (memory index byte)) 1 11
  | 6 =>
    match register? index y, index with
    | some r, _ => ⟨.load (.register r) (.value (byte 1)), 2, 7, 1⟩
    | none, none => ⟨.load (.pointed .hl) (.value (byte 1)), 2, 10, 1⟩
    | none, some i => ⟨.load (.indexed i (byte 1)) (.value (byte 2)), 3, 15, 1⟩
  | _ => ⟨accumulator y, 1, 4, 1⟩

/-- The second group: loads between registers and memory. The load of memory by memory is the
halt. -/
def second (index : Option Index) (byte : Nat → UInt8) (y z : Nat) : Decoded :=
  match plainRegister? y, plainRegister? z with
  | some r, some s =>
    ⟨.load (.register (indexHalf index r)) (.place (.register (indexHalf index s))), 1, 4, 1⟩
  | some r, none => withMemory index (.load (.register r) (.place (memory index byte))) 1 7
  | none, some s => withMemory index (.load (memory index byte) (.place (.register s))) 1 7
  | none, none => ⟨.halt, 1, 4, 1⟩

/-- The third group: operations on `A`. -/
def third (index : Option Index) (byte : Nat → UInt8) (y z : Nat) : Decoded :=
  match register? index z with
  | some r => ⟨.arithmetic (operation y) (.place (.register r)), 1, 4, 1⟩
  | none => withMemory index (.arithmetic (operation y) (.place (memory index byte))) 1 7

/-- The fourth group: stack, jumps, calls, input and output, and the ways into the other tables. -/
def fourth (index : Option Index) (byte : Nat → UInt8) (y z : Nat) : Decoded :=
  match z with
  | 0 => ⟨.ret (some (condition y)), 1, 5, 1⟩
  | 1 =>
    match y with
    | 1 => ⟨.ret none, 1, 4, 1⟩
    | 3 => ⟨.exchangeAll, 1, 4, 1⟩
    | 5 => ⟨.jumpPair (hlPair index), 1, 4, 1⟩
    | 7 => ⟨.loadWord (.pair .sp) (.place (.pair (hlPair index))), 1, 6, 1⟩
    | y => ⟨.pop (pairAF index (y / 2)), 1, 10, 1⟩
  | 2 => ⟨.jump (some (condition y)) (wordAt byte 1), 3, 10, 1⟩
  | 3 =>
    match y with
    | 0 => ⟨.jump none (wordAt byte 1), 3, 10, 1⟩
    | 1 => bits index byte
    | 2 => ⟨.outputA (byte 1), 2, 11, 1⟩
    | 3 => ⟨.inputA (byte 1), 2, 11, 1⟩
    | 4 => ⟨.exchangeTop (hlPair index), 1, 19, 1⟩
    | 5 => ⟨.exchangeDEHL, 1, 4, 1⟩
    | 6 => ⟨.allowInterrupts false, 1, 4, 1⟩
    | _ => ⟨.allowInterrupts true, 1, 4, 1⟩
  | 4 => ⟨.call (some (condition y)) (wordAt byte 1), 3, 10, 1⟩
  | 5 =>
    match y with
    | 1 => ⟨.call none (wordAt byte 1), 3, 10, 1⟩
    | 3 => ⟨.useIndex .ix, 1, 4, 1⟩
    | 5 => late byte
    | 7 => ⟨.useIndex .iy, 1, 4, 1⟩
    | y => ⟨.push (pairAF index (y / 2)), 1, 11, 1⟩
  | 6 => ⟨.arithmetic (operation y) (.value (byte 1)), 2, 7, 1⟩
  | _ => ⟨.restart (UInt16.ofNat (y * 8)), 1, 11, 1⟩

end Decode

/-- The instruction at the start of some bytes, with an index register in the place of `HL` or
not. -/
def decode (index : Option Index) (byte : Nat → UInt8) : Decoded :=
  let opcode := (byte 0).toNat
  let y := opcode / 8 % 8
  let z := opcode % 8
  match opcode / 64 with
  | 0 => Decode.first index byte y z
  | 1 => Decode.second index byte y z
  | 2 => Decode.third index byte y z
  | _ => Decode.fourth index byte y z

end HostDrive.Z80

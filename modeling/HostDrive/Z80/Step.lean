import HostDrive.Z80.Arithmetic
import HostDrive.Z80.Decode

/-!
# Steps of the Processor

What each instruction does to registers and memory, and the step that fetches, decodes and executes
one instruction.

- The **bus** is anything with memory and I/O addresses; the processor knows no more of it.
- An instruction returns the clock cycles that it takes beyond those of its decoding.
- A repeating block instruction does one round and moves the program counter back to itself.
- A halt leaves the program counter on itself.
-/

namespace HostDrive.Z80

/-! ## The bus -/

/-- Memory, input and output as the processor sees them. -/
class Bus (β : Type) where
  read : β → UInt16 → UInt8
  write : β → UInt16 → UInt8 → β
  input : β → UInt16 → UInt8
  output : β → UInt16 → UInt8 → β

/-- A processor on a bus. -/
structure State (β : Type) where
  cpu : Processor
  bus : β

namespace State

variable {β : Type} [Bus β]

/-! ## Operands -/

def address? (s : State β) : Place → Option UInt16
  | .register _ => none
  | .pointed p => some (s.cpu.pair p)
  | .indexed i distance => some (Arithmetic.displace (s.cpu.pair i.pair) distance)
  | .absolute a => some a

def get (s : State β) (p : Place) : UInt8 :=
  match p with
  | .register r => s.cpu.byte r
  | .pointed p => Bus.read s.bus (s.cpu.pair p)
  | .indexed i distance => Bus.read s.bus (Arithmetic.displace (s.cpu.pair i.pair) distance)
  | .absolute a => Bus.read s.bus a

def write (s : State β) (a : UInt16) (b : UInt8) : State β :=
  let { cpu, bus } := s
  { cpu, bus := Bus.write bus a b }

def put (s : State β) (p : Place) (b : UInt8) : State β :=
  match p with
  | .register r => { s with cpu := s.cpu.setByte r b }
  | .pointed p =>
    let a := s.cpu.pair p
    s.write a b
  | .indexed i distance =>
    let a := Arithmetic.displace (s.cpu.pair i.pair) distance
    s.write a b
  | .absolute a => s.write a b

def valueOf (s : State β) : Source → UInt8
  | .place p => s.get p
  | .value b => b

def readWord (s : State β) (a : UInt16) : UInt16 :=
  Bytes.word (Bus.read s.bus a) (Bus.read s.bus (a + 1))

def writeWord (s : State β) (a : UInt16) (w : UInt16) : State β :=
  (s.write a (Bytes.low w)).write (a + 1) (Bytes.high w)

def wordOf (s : State β) : WordSource → UInt16
  | .place (.pair p) => s.cpu.pair p
  | .place (.absolute a) => s.readWord a
  | .value w => w

def putWord (s : State β) (p : WordPlace) (w : UInt16) : State β :=
  match p with
  | .pair p => { s with cpu := s.cpu.setPair p w }
  | .absolute a => s.writeWord a w

def setPair (s : State β) (p : Pair) (w : UInt16) : State β :=
  { s with cpu := s.cpu.setPair p w }

def setFlags (s : State β) (f : Flags) : State β := { s with cpu := { s.cpu with flags := f } }

/-- Sets `A` and the flags. -/
def setA (s : State β) (result : UInt8 × Flags) : State β :=
  { s with cpu := { s.cpu with a := result.1, flags := result.2 } }

/-! ## Control -/

def holds (f : Flags) : Condition → Bool
  | .nonZero => !f.zero
  | .zero => f.zero
  | .noCarry => !f.carry
  | .carry => f.carry
  | .parityOdd => !f.parity
  | .parityEven => f.parity
  | .positive => !f.sign
  | .negative => f.sign

/-- Whether a branch is taken; one without a condition always is. -/
def takes (s : State β) : Option Condition → Bool
  | none => true
  | some c => holds s.cpu.flags c

def jumpTo (s : State β) (a : UInt16) : State β := { s with cpu := { s.cpu with pc := a } }

/-- Goes on at a signed distance from the next instruction. -/
def jumpBy (s : State β) (distance : UInt8) : State β :=
  { s with cpu := { s.cpu with pc := Arithmetic.displace s.cpu.pc distance } }

def push (s : State β) (w : UInt16) : State β :=
  let top := s.cpu.sp - 2
  { s with cpu := { s.cpu with sp := top } }.writeWord top w

/-- The word on top of the stack. -/
def top (s : State β) : UInt16 := s.readWord s.cpu.sp

/-- Drops the word on top of the stack. -/
def drop (s : State β) : State β := { s with cpu := { s.cpu with sp := s.cpu.sp + 2 } }

def callTo (s : State β) (a : UInt16) : State β :=
  let next := s.cpu.pc
  (s.push next).jumpTo a

/-- Goes on at the address on top of the stack. -/
def returnBack (s : State β) : State β :=
  let next := s.top
  s.drop.jumpTo next

/-! ## Block instructions -/

/-- Whether a block instruction goes on: if so, it is executed again, for five more cycles. -/
def repeatIf (again : Bool) (s : State β) : State β × Nat :=
  if again then ({ s with cpu := { s.cpu with pc := s.cpu.pc - 2 } }, 5) else (s, 0)

/-- Copies a byte from `HL` to `DE` and counts `BC` down. -/
def copyOne (s : State β) (d : Direction) : State β :=
  let b := Bus.read s.bus s.cpu.hl
  let s := s.write s.cpu.de b
  let cpu := s.cpu
  let sum := cpu.a + b
  let left := cpu.bc - 1
  { s with cpu := { cpu with
      hl := Arithmetic.advance d cpu.hl
      de := Arithmetic.advance d cpu.de
      bc := left
      flags := { cpu.flags with
        bit5 := sum &&& 0x02 != 0
        half := false
        bit3 := sum &&& 0x08 != 0
        parity := left != 0
        subtract := false } } }

/-- Compares `A` with the byte at `HL` and counts `BC` down. -/
def compareOne (s : State β) (d : Direction) : State β :=
  let b := Bus.read s.bus s.cpu.hl
  let cpu := s.cpu
  let difference := Arithmetic.sub cpu.a b false
  let shown := difference.1 - (if difference.2.half then 1 else 0)
  let left := cpu.bc - 1
  { s with cpu := { cpu with
      hl := Arithmetic.advance d cpu.hl
      bc := left
      flags := { difference.2 with
        bit5 := shown &&& 0x02 != 0
        bit3 := shown &&& 0x08 != 0
        parity := left != 0
        carry := cpu.flags.carry } } }

/-- Counts `B` down and moves `HL`, after a byte came in or went out. -/
def countTransfer (s : State β) (d : Direction) : State β :=
  let cpu := s.cpu
  let left := Bytes.high cpu.bc - 1
  { s with cpu := { cpu with
      hl := Arithmetic.advance d cpu.hl
      bc := Processor.withHigh cpu.bc left
      flags := { Arithmetic.describe left with subtract := true, carry := cpu.flags.carry } } }

/-- Reads a byte from the I/O address in `BC` to `HL`. -/
def inputOne (s : State β) (d : Direction) : State β :=
  let b := Bus.input s.bus s.cpu.bc
  let s := s.write s.cpu.hl b
  s.countTransfer d

/-- Writes the byte at `HL` to the I/O address in `BC`, once `B` is counted down. -/
def outputOne (s : State β) (d : Direction) : State β :=
  let b := Bus.read s.bus s.cpu.hl
  let { cpu, bus } := s.countTransfer d
  { cpu, bus := Bus.output bus cpu.bc b }

/-! ## Digits -/

/-- Rotates three digits: `low` digit of `A` and the two of the byte at `HL`. -/
def rotateDigits (s : State β) (mix : Nat → Nat → Nat × Nat) : State β :=
  let b := Bus.read s.bus s.cpu.hl
  let mixed := mix (s.cpu.a.toNat % 16) b.toNat
  let a := (s.cpu.a &&& 0xF0) ||| UInt8.ofNat mixed.1
  let s := s.write s.cpu.hl (UInt8.ofNat mixed.2)
  s.setA (a, { Arithmetic.describeParity a with carry := s.cpu.flags.carry })

/-! ## Instructions -/

/-- The state after an instruction, for a program counter that already points behind it, and the
cycles on top of those of its decoding. -/
def execute (s : State β) : Instruction → State β × Nat
  | .nop => (s, 0)
  | .halt => ({ s with cpu := { s.cpu with halted := true, pc := s.cpu.pc - 1 } }, 0)
  | .useIndex i => ({ s with cpu := { s.cpu with index := some i } }, 0)
  | .load target source =>
    let b := s.valueOf source
    (s.put target b, 0)
  | .loadWord target source =>
    let w := s.wordOf source
    (s.putWord target w, 0)
  | .push p =>
    let w := s.cpu.pair p
    (s.push w, 0)
  | .pop p =>
    let w := s.top
    (s.drop.setPair p w, 0)
  | .exchangeDEHL => ({ s with cpu := { s.cpu with de := s.cpu.hl, hl := s.cpu.de } }, 0)
  | .exchangeAF =>
    let af := s.cpu.pair .af
    let cpu := s.cpu.setPair .af s.cpu.shadowAF
    ({ s with cpu := { cpu with shadowAF := af } }, 0)
  | .exchangeAll =>
    let cpu := s.cpu
    ({ s with cpu := { cpu with
        bc := cpu.shadowBC, de := cpu.shadowDE, hl := cpu.shadowHL
        shadowBC := cpu.bc, shadowDE := cpu.de, shadowHL := cpu.hl } }, 0)
  | .exchangeTop p =>
    let w := s.top
    let old := s.cpu.pair p
    let sp := s.cpu.sp
    ((s.writeWord sp old).setPair p w, 0)
  | .arithmetic op source =>
    let b := s.valueOf source
    (s.setA (Arithmetic.operate op s.cpu.a b s.cpu.flags.carry), 0)
  | .increment p =>
    let result := Arithmetic.increment (s.get p) s.cpu.flags
    ((s.setFlags result.2).put p result.1, 0)
  | .decrement p =>
    let result := Arithmetic.decrement (s.get p) s.cpu.flags
    ((s.setFlags result.2).put p result.1, 0)
  | .incrementWord p => (s.setPair p (s.cpu.pair p + 1), 0)
  | .decrementWord p => (s.setPair p (s.cpu.pair p - 1), 0)
  | .addWord target source =>
    let result := Arithmetic.addWord (s.cpu.pair target) (s.cpu.pair source) s.cpu.flags
    ((s.setFlags result.2).setPair target result.1, 0)
  | .addCarryWord source =>
    let result := Arithmetic.addCarryWord s.cpu.hl (s.cpu.pair source) s.cpu.flags
    ((s.setFlags result.2).setPair .hl result.1, 0)
  | .subCarryWord source =>
    let result := Arithmetic.subCarryWord s.cpu.hl (s.cpu.pair source) s.cpu.flags
    ((s.setFlags result.2).setPair .hl result.1, 0)
  | .rotateA kind => (s.setA (Arithmetic.rotateA kind s.cpu.a s.cpu.flags), 0)
  | .shift kind p =>
    let result := Arithmetic.shift kind (s.get p) s.cpu.flags
    ((s.setFlags result.2).put p result.1, 0)
  | .testBit bit p => (s.setFlags (Arithmetic.testBit bit (s.get p) s.cpu.flags), 0)
  | .resetBit bit p =>
    let b := s.get p &&& ~~~Arithmetic.mask bit
    (s.put p b, 0)
  | .setBit bit p =>
    let b := s.get p ||| Arithmetic.mask bit
    (s.put p b, 0)
  | .decimalAdjust => (s.setA (Arithmetic.decimalAdjust s.cpu.a s.cpu.flags), 0)
  | .complement =>
    let a := ~~~s.cpu.a
    (s.setA (a, { Arithmetic.withCopies s.cpu.flags a with half := true, subtract := true }), 0)
  | .negate => (s.setA (Arithmetic.sub 0 s.cpu.a false), 0)
  | .setCarry =>
    (s.setFlags { Arithmetic.withCopies s.cpu.flags s.cpu.a with
      half := false, subtract := false, carry := true }, 0)
  | .complementCarry =>
    (s.setFlags { Arithmetic.withCopies s.cpu.flags s.cpu.a with
      half := s.cpu.flags.carry, subtract := false, carry := !s.cpu.flags.carry }, 0)
  | .rotateDigitsLeft =>
    (s.rotateDigits fun low b => (b / 16, b % 16 * 16 + low), 0)
  | .rotateDigitsRight =>
    (s.rotateDigits fun low b => (b % 16, low * 16 + b / 16), 0)
  | .jump when? target => (if s.takes when? then s.jumpTo target else s, 0)
  | .jumpPair p => (s.jumpTo (s.cpu.pair p), 0)
  | .jumpRelative when? distance =>
    if s.takes when? then (s.jumpBy distance, 5) else (s, 0)
  | .loop distance =>
    let left := s.cpu.byte .b - 1
    let s := { s with cpu := s.cpu.setByte .b left }
    if left != 0 then (s.jumpBy distance, 5) else (s, 0)
  | .call when? target => if s.takes when? then (s.callTo target, 7) else (s, 0)
  | .ret when? => if s.takes when? then (s.returnBack, 6) else (s, 0)
  | .retInterrupt =>
    let s := s.returnBack
    ({ s with cpu := { s.cpu with interruptsOn := s.cpu.interruptsSaved } }, 0)
  | .restart target => (s.callTo target, 0)
  | .inputA low =>
    ({ s with cpu := { s.cpu with a := Bus.input s.bus (Bytes.word low s.cpu.a) } }, 0)
  | .outputA low =>
    let { cpu, bus } := s
    ({ cpu, bus := Bus.output bus (Bytes.word low cpu.a) cpu.a }, 0)
  | .input target =>
    let b := Bus.input s.bus s.cpu.bc
    let s := s.setFlags { Arithmetic.describeParity b with carry := s.cpu.flags.carry }
    match target with
    | some r => (s.put (.register r) b, 0)
    | none => (s, 0)
  | .output source =>
    let { cpu, bus } := s
    let b := match source with
      | some r => cpu.byte r
      | none => 0
    ({ cpu, bus := Bus.output bus cpu.bc b }, 0)
  | .copyBlock d again =>
    let s := s.copyOne d
    repeatIf (again && s.cpu.flags.parity) s
  | .compareBlock d again =>
    let s := s.compareOne d
    repeatIf (again && s.cpu.flags.parity && !s.cpu.flags.zero) s
  | .inputBlock d again =>
    let s := s.inputOne d
    repeatIf (again && !s.cpu.flags.zero) s
  | .outputBlock d again =>
    let s := s.outputOne d
    repeatIf (again && !s.cpu.flags.zero) s
  | .allowInterrupts on =>
    ({ s with cpu := { s.cpu with interruptsOn := on, interruptsSaved := on } }, 0)
  | .interruptMode mode => ({ s with cpu := { s.cpu with interruptMode := mode } }, 0)
  | .storeSpecial .i => ({ s with cpu := { s.cpu with i := s.cpu.a } }, 0)
  | .storeSpecial .r => ({ s with cpu := { s.cpu with r := s.cpu.a } }, 0)
  | .loadSpecial source =>
    let b := match source with
      | .i => s.cpu.i
      | .r => s.cpu.r
    (s.setA (b, { Arithmetic.describe b with
      parity := s.cpu.interruptsSaved, carry := s.cpu.flags.carry }), 0)

/-! ## Steps -/

def next (s : State β) : Decoded :=
  decode s.cpu.index fun n => Bus.read s.bus (s.cpu.pc + UInt16.ofNat n)

/-- The processor once an instruction is read: behind it, with no index register left over. -/
def fetched (cpu : Processor) (d : Decoded) : Processor :=
  { cpu.countFetches d.fetches with pc := cpu.pc + UInt16.ofNat d.size, index := none }

/-- Executes the instruction at the program counter. Returns the clock cycles taken. -/
def step (s : State β) : State β × Nat :=
  let d := s.next
  let { cpu, bus } := s
  let executed := State.execute { cpu := fetched cpu d, bus } d.instruction
  (executed.1, d.cycles + executed.2)

end State

end HostDrive.Z80

import HostDrive.Proofs.Bytes
import HostDrive.Proofs.Machine.Busy
import HostDrive.Proofs.Machine.FlatMap

/-!
# Operations of a Program

What the processor makes of the machine code of a program, operation by operation. A load needs two
instructions at most, as an index register is announced by an instruction of its own; a call leaves
its return address below the top of the stack.

## Architecture

- `Z80.State.Finds` says which bytes the processor is about to execute; one lemma for each opcode.
- `Run.Poised` holds between two operations of a program: all that is left of the operations before
  is in memory and in the registers. `Run.Poised.load` and `Run.Poised.halt` leave memory alone.
- `Run.Ready` asks for flat memory too. A call writes its return address, and in flat memory that
  leaves the program as it is: `Run.Ready.call`, `Run.Ready.ret`.
-/

namespace HostDrive

/-! ## Section 1: Opcodes -/

namespace Z80.State

variable {β : Type} [Bus β] {s : State β}

/-- These bytes stand at the program counter. -/
def Finds (s : State β) (bytes : List UInt8) : Prop :=
  ∀ i (hi : i < bytes.length), Bus.read s.bus (s.cpu.pc + UInt16.ofNat i) = bytes[i]

/-- The opcode that the decoder sees first. -/
theorem Finds.opcode {b : UInt8} {rest : List UInt8} (h : s.Finds (b :: rest)) :
    Bus.read s.bus (s.cpu.pc + UInt16.ofNat 0) = b :=
  h 0 (Nat.succ_pos _)

/-- The word that stands behind an opcode. -/
theorem Finds.operand {b : UInt8} {w : UInt16} (h : s.Finds [b, Bytes.low w, Bytes.high w]) :
    Decode.wordAt (fun n => Bus.read s.bus (s.cpu.pc + UInt16.ofNat n)) 1 = w := by
  have hlow := h 1 (Nat.succ_lt_succ (Nat.succ_pos _))
  have hhigh := h 2 (Nat.succ_lt_succ (Nat.succ_lt_succ (Nat.succ_pos _)))
  show Bytes.word (Bus.read s.bus (s.cpu.pc + UInt16.ofNat 1))
    (Bus.read s.bus (s.cpu.pc + UInt16.ofNat 2)) = w
  rw [hlow, hhigh]
  exact Bytes.word_low_high w

theorem next_loadDE {w : UInt16} (h : s.Finds [0x11, Bytes.low w, Bytes.high w]) :
    s.next = ⟨.loadWord (.pair .de) (.value w), 3, 10, 1⟩ := by
  unfold next decode
  simp only [h.opcode]
  rw [← h.operand]
  rfl

/-- The same opcode loads `HL` or an index register that was announced. -/
theorem next_loadHL {w : UInt16} (h : s.Finds [0x21, Bytes.low w, Bytes.high w]) :
    s.next = ⟨.loadWord (.pair (Decode.hlPair s.cpu.index)) (.value w), 3, 10, 1⟩ := by
  unfold next decode
  simp only [h.opcode]
  rw [← h.operand]
  rfl

/-- The opcode that announces an index register. -/
def indexOpcode : Index → UInt8
  | .ix => 0xDD
  | .iy => 0xFD

theorem next_useIndex {i : Index} {rest : List UInt8} (h : s.Finds (indexOpcode i :: rest)) :
    s.next = ⟨.useIndex i, 1, 4, 1⟩ := by
  unfold next decode
  cases i <;> simp only [h.opcode] <;> rfl

/-- The byte that stands behind an opcode. -/
theorem Finds.operandByte {b v : UInt8} (h : s.Finds [b, v]) :
    Bus.read s.bus (s.cpu.pc + UInt16.ofNat 1) = v :=
  h 1 (Nat.succ_lt_succ (Nat.succ_pos _))

/-- `A` is no part of a pair that an index register stands in for. -/
theorem next_loadA {v : UInt8} (h : s.Finds [0x3E, v]) :
    s.next = ⟨.load (.register .a) (.value v), 2, 7, 1⟩ := by
  unfold next decode
  simp only [h.opcode]
  rw [← h.operandByte]
  cases s.cpu.index with
  | none => rfl
  | some i => cases i <;> rfl

theorem next_outputA {v : UInt8} (h : s.Finds [0xD3, v]) : s.next = ⟨.outputA v, 2, 11, 1⟩ := by
  unfold next decode
  simp only [h.opcode]
  rw [← h.operandByte]
  rfl

theorem next_call {w : UInt16} (h : s.Finds [0xCD, Bytes.low w, Bytes.high w]) :
    s.next = ⟨.call none w, 3, 10, 1⟩ := by
  unfold next decode
  simp only [h.opcode]
  rw [← h.operand]
  rfl

theorem next_ret (h : s.Finds [0xC9]) : s.next = ⟨.ret none, 1, 4, 1⟩ := by
  unfold next decode
  simp only [h.opcode]
  rfl

theorem next_halt (h : s.Finds [0x76]) : s.next = ⟨.halt, 1, 4, 1⟩ := by
  unfold next decode
  simp only [h.opcode]
  rfl

/-- A step executes the instruction that is next. -/
theorem step_of_next {d : Decoded} (h : s.next = d) :
    s.step.1 = (execute { cpu := fetched s.cpu d, bus := s.bus } d.instruction).1 := by
  subst h
  rfl

/-- What a call leaves: the return address on the stack. -/
theorem execute_call (s : State β) (w : UInt16) :
    (execute s (.call none w)).1 =
      { cpu := { s.cpu with pc := w, sp := s.cpu.sp - 2 }
        bus := Bus.write (Bus.write s.bus (s.cpu.sp - 2) (Bytes.low s.cpu.pc)) (s.cpu.sp - 2 + 1)
          (Bytes.high s.cpu.pc) } := rfl

/-- What a return leaves: the address on the stack is gone from it. -/
theorem execute_ret (s : State β) :
    (execute s (.ret none)).1 =
      { s with cpu := { s.cpu with pc := s.readWord s.cpu.sp, sp := s.cpu.sp + 2 } } := rfl

/-- Of some bytes that stand at the program counter, the first ones do. -/
theorem Finds.left {bytes rest : List UInt8} (h : s.Finds (bytes ++ rest)) : s.Finds bytes := by
  intro i hi
  rw [h i (by rw [List.length_append]; omega), List.getElem_append_left hi]

end Z80.State

/-! ## Section 2: Instructions of a run -/

/-- The address of a place in a program. -/
def codeAddress (offset : Nat) : UInt16 := 0x8000 + UInt16.ofNat offset

theorem codeAddress_add (offset i : Nat) :
    codeAddress (offset + i) = codeAddress offset + UInt16.ofNat i := by
  rw [codeAddress, codeAddress, UInt16.ofNat_add, UInt16.add_assoc]

/-- Behind an operation stands the rest of the program. -/
theorem drop_behind {code op rest : List UInt8} {offset : Nat}
    (h : code.drop offset = op ++ rest) : code.drop (offset + op.length) = rest := by
  rw [← List.drop_drop, h, List.drop_left]

/-- A program of at most a page lies in page 2. -/
theorem toNat_codeAddress {offset : Nat} (h : offset ≤ pageSize) :
    (codeAddress offset).toNat = 0x8000 + offset := by
  rw [codeAddress, UInt16.toNat_add, UInt16.toNat_ofNat']
  simp only [pageSize, UInt16.reduceToNat] at *
  omega

/-- The pages before and behind a program of at most a page are no part of it. -/
theorem not_within_program {length : Nat} (hfit : length ≤ pageSize) {x : UInt16}
    (hx : x.toNat < 0x8000 ∨ 0xC000 ≤ x.toNat) : ¬ Guest.Within 0x8000 length x := by
  have hsize : length ≤ 0x4000 := hfit
  rw [Guest.within_iff (Nat.le_trans (Nat.add_le_add_left hsize _) (by decide))]
  simp only [UInt16.reduceToNat]
  omega

/-- No entry point lies in the upper half of memory. -/
theorem not_mem_entryAddresses {a : UInt16} (h : 0x8000 ≤ a.toNat) : a ∉ entryAddresses := by
  intro hmem
  have hlow : ∀ a ∈ entryAddresses, a.toNat < 0x8000 := by simp [entryAddresses]
  exact absurd (hlow a hmem) (Nat.not_lt_of_le h)

/-- The pair of the processor that a load fills. -/
def ArgumentPair.pair : ArgumentPair → Z80.Pair
  | de => .de
  | hl => .hl
  | ix => .ix
  | iy => .iy

/-- The instructions that a load needs. An index register takes one more to be announced. -/
def ArgumentPair.instructions : ArgumentPair → Nat
  | de | hl => 1
  | ix | iy => 2

/-- Registers with a value loaded into one of them. -/
def ArgumentPair.put (target : ArgumentPair) (value : UInt16) (r : CallRegisters) : CallRegisters :=
  match target with
  | de => { r with de := value }
  | hl => { r with hl := value }
  | ix => { r with ix := value }
  | iy => { r with iy := value }

namespace Run

variable {host : Host} {limit : Nat} {run next last : Run}

/-- **Executing instructions**: turns in which the guard answers nothing and the run is not
    stopped. -/
structure Executes (host : Host) (limit : Nat) (run next : Run) (n : Nat) : Prop where
  reaches : Reaches host limit run next
  executed : next.executed = run.executed + n
  guard : next.guard = run.guard
  serviced : next.serviced = run.serviced

theorem Executes.trans {n k : Nat} (h : Executes host limit run next n)
    (h' : Executes host limit next last k) : Executes host limit run last (n + k) where
  reaches := h.reaches.trans h'.reaches
  executed := by rw [h'.executed, h.executed, Nat.add_assoc]
  guard := h'.guard.trans h.guard
  serviced := h'.serviced.trans h.serviced

/-- An instruction that is no halt goes on to the next turn. -/
theorem executes_execute (hlt : run.executed < limit) (hnot : ¬ run.IsAnswered host)
    (hgoes : run.execute.board.cpu.halted = false) :
    Executes host limit run run.execute 1 := by
  have hturn : run.turn host limit = (run.execute, none) := by
    rw [turn_of_not_answered hlt hnot, executeOrStop]
    simp only [hgoes, Bool.false_eq_true, if_false]
  exact ⟨.turn hturn (.here _), rfl, rfl, rfl⟩

theorem not_isAnswered_of_le (h : 0x8000 ≤ run.board.cpu.pc.toNat) : ¬ run.IsAnswered host := by
  rintro ⟨guard, -, hservices⟩
  exact not_mem_entryAddresses h (Guard.services_iff.mp hservices).1

/-- What an instruction leaves, once it is decoded. -/
theorem board_execute {d : Z80.Decoded} (h : run.board.next = d) :
    run.execute.board = (Z80.State.execute
      { cpu := Z80.State.fetched run.board.cpu d, bus := run.board.bus } d.instruction).1 :=
  Z80.State.step_of_next h

/-! ## Section 3: Between operations -/

/-- **Poised at an address**: the program shows in memory, whatever the pages select. -/
structure Poised (code : List UInt8) (pc sp : UInt16) (index : Option Z80.Index) (run : Run) :
    Prop where
  pc : run.board.cpu.pc = pc
  sp : run.board.cpu.sp = sp
  index : run.board.cpu.index = index
  halted : run.board.cpu.halted = false
  code : ∀ i (hi : i < code.length), run.board.bus.read (codeAddress i) = code[i]

namespace Poised

variable {code rest : List UInt8} {offset : Nat} {sp : UInt16} {index : Option Z80.Index}

/-- The bytes of the program are the ones to be executed. -/
theorem finds (h : Poised code (codeAddress offset) sp index run) {op : List UInt8}
    (hop : code.drop offset = op ++ rest) : run.board.Finds op := by
  intro i hi
  have hlength := congrArg List.length hop
  rw [List.length_drop, List.length_append] at hlength
  have hbyte : code[offset + i]? = some op[i] := by
    rw [← List.getElem?_drop, hop, List.getElem?_append_left hi, List.getElem?_eq_getElem hi]
  obtain ⟨hin, hget⟩ := List.getElem?_eq_some_iff.mp hbyte
  rw [h.pc, ← codeAddress_add]
  exact (h.code (offset + i) hin).trans hget

/-- No call is answered inside a program. -/
theorem not_isAnswered (h : Poised code (codeAddress offset) sp index run)
    (hoffset : offset ≤ pageSize) : ¬ run.IsAnswered host := by
  apply not_isAnswered_of_le
  rw [h.pc, toNat_codeAddress hoffset]
  exact Nat.le_add_right _ _

/-- **An instruction that goes on** behind itself, and leaves the program alone, leads to the next
    instruction. -/
theorem step (h : Poised code (codeAddress offset) sp index run) (host : Host) {d : Z80.Decoded}
    {left : Z80.State MemoryMap} {after : Option Z80.Index} (hnext : run.board.next = d)
    (hleft : (Z80.State.execute
      { cpu := Z80.State.fetched run.board.cpu d, bus := run.board.bus } d.instruction).1 = left)
    (hcpu : left.cpu.pc = run.board.cpu.pc + UInt16.ofNat d.size ∧ left.cpu.sp = run.board.cpu.sp ∧
      left.cpu.index = after ∧ left.cpu.halted = run.board.cpu.halted)
    (hcode : ∀ i, i < code.length →
      left.bus.read (codeAddress i) = run.board.bus.read (codeAddress i))
    (hoffset : offset ≤ pageSize) (hlt : run.executed < limit) :
    ∃ next, Executes host limit run next 1 ∧
      Poised code (codeAddress (offset + d.size)) sp after next ∧ next.board = left := by
  obtain ⟨hpc, hsp, hindex, hhalted⟩ := hcpu
  have hboard : run.execute.board = left := (board_execute hnext).trans hleft
  rw [h.halted, ← hboard] at hhalted
  refine ⟨run.execute, executes_execute hlt (h.not_isAnswered hoffset) hhalted, ?_, hboard⟩
  rw [h.pc, ← codeAddress_add] at hpc
  rw [h.sp] at hsp
  refine ⟨hboard ▸ hpc, hboard ▸ hsp, hboard ▸ hindex, hhalted, fun i hi => ?_⟩
  rw [hboard, hcode i hi]
  exact h.code i hi

/-- An index register is announced. -/
theorem useIndex (h : Poised code (codeAddress offset) sp none run) (host : Host) {i : Z80.Index}
    (hop : code.drop offset = [Z80.State.indexOpcode i] ++ rest) (hoffset : offset ≤ pageSize)
    (hlt : run.executed < limit) :
    ∃ next, Executes host limit run next 1 ∧
      Poised code (codeAddress (offset + 1)) sp (some i) next ∧
      next.board.bus = run.board.bus ∧ next.board.registers = run.board.registers := by
  obtain ⟨next, hexecutes, hpoised, hboard⟩ := h.step host
    (Z80.State.next_useIndex (h.finds hop)) rfl ⟨rfl, rfl, rfl, rfl⟩ (fun _ _ => rfl) hoffset hlt
  refine ⟨next, hexecutes, hpoised, ?_, ?_⟩ <;> rw [hboard] <;> rfl

/-- A word is loaded into a register. -/
theorem loadWord (h : Poised code (codeAddress offset) sp index run) (host : Host)
    (target : ArgumentPair) {value : UInt16}
    (hnext : run.board.next = ⟨.loadWord (.pair target.pair) (.value value), 3, 10, 1⟩)
    (hoffset : offset ≤ pageSize) (hlt : run.executed < limit) :
    ∃ next, Executes host limit run next 1 ∧
      Poised code (codeAddress (offset + 3)) sp none next ∧
      next.board.bus = run.board.bus ∧
      next.board.registers = target.put value run.board.registers := by
  have hstep : ∃ next, Executes host limit run next 1 ∧
      Poised code (codeAddress (offset + 3)) sp none next ∧ next.board = _ :=
    h.step host hnext rfl (by cases target <;> exact ⟨rfl, rfl, rfl, rfl⟩) (fun _ _ => rfl) hoffset
      hlt
  obtain ⟨next, hexecutes, hpoised, hboard⟩ := hstep
  refine ⟨next, hexecutes, hpoised, ?_, ?_⟩
  · rw [hboard]
    rfl
  · rw [hboard]
    cases target <;> rfl

/-- An index register is loaded in two instructions. -/
theorem loadIndex (h : Poised code (codeAddress offset) sp none run) (host : Host)
    (target : ArgumentPair) {i : Z80.Index} (hpair : target.pair = i.pair) {value : UInt16}
    (hop : code.drop offset =
      [Z80.State.indexOpcode i] ++ ([0x21, Bytes.low value, Bytes.high value] ++ rest))
    (hfit : code.length ≤ pageSize) (hlt : run.executed + 2 ≤ limit) :
    ∃ next, Executes host limit run next 2 ∧
      Poised code (codeAddress (offset + 4)) sp none next ∧
      next.board.bus = run.board.bus ∧
      next.board.registers = target.put value run.board.registers := by
  have hlength := congrArg List.length hop
  simp only [List.length_drop, List.length_append, List.length_cons, List.length_nil] at hlength
  obtain ⟨middle, hfirst, hmiddle, hbus, hregisters⟩ :=
    h.useIndex host hop (by omega) (Nat.lt_of_succ_lt hlt)
  -- the opcode for `HL` is next, and stands for the index register
  have hop' : code.drop (offset + 1) = [0x21, Bytes.low value, Bytes.high value] ++ rest :=
    drop_behind hop
  have hnext := Z80.State.next_loadHL (hmiddle.finds hop')
  have hindex : Z80.Decode.hlPair (some i) = target.pair := hpair.symm
  rw [hmiddle.index, hindex] at hnext
  have hlt' : middle.executed < limit := hfirst.executed ▸ hlt
  obtain ⟨next, hsecond, hready, hbus', hregisters'⟩ :=
    hmiddle.loadWord host target hnext (by omega) hlt'
  exact ⟨next, hfirst.trans hsecond, hready, hbus'.trans hbus, hregisters ▸ hregisters'⟩

/-- **A load** sets its register, and leaves everything else alone. -/
theorem load (h : Poised code (codeAddress offset) sp none run) (host : Host)
    {target : ArgumentPair} {value : UInt16}
    (hop : code.drop offset = (Operation.load target value).code ++ rest)
    (hfit : code.length ≤ pageSize) (hlt : run.executed + target.instructions ≤ limit) :
    ∃ next, Executes host limit run next target.instructions ∧
      Poised code (codeAddress (offset + (Operation.load target value).code.length)) sp none next ∧
      next.board.bus = run.board.bus ∧
      next.board.registers = target.put value run.board.registers := by
  have hlength := congrArg List.length hop
  rw [List.length_drop, List.length_append] at hlength
  have hsize : 0 < (Operation.load target value).code.length := by
    cases target <;> exact Nat.succ_pos _
  cases target with
  | de =>
    exact h.loadWord host .de (Z80.State.next_loadDE (h.finds hop)) (by omega) hlt
  | hl =>
    have hnext := Z80.State.next_loadHL (h.finds hop)
    rw [h.index] at hnext
    exact h.loadWord host .hl hnext (by omega) hlt
  | ix => exact h.loadIndex host .ix (i := .ix) rfl hop hfit hlt
  | iy => exact h.loadIndex host .iy (i := .iy) rfl hop hfit hlt

/-- **A halt** stops the run, with the program counter on itself. -/
theorem halt (h : Poised code (codeAddress offset) sp none run) (host : Host)
    (hop : code.drop offset = Operation.halt.code ++ rest) (hfit : code.length ≤ pageSize)
    (hlt : run.executed < limit) :
    ∃ last, run.turn host limit = (last, some .halt) ∧
      last.board.cpu.pc = codeAddress offset ∧ last.board.bus = run.board.bus ∧
      last.board.registers = run.board.registers ∧ last.guard = run.guard ∧
      last.serviced = run.serviced := by
  have hlength := congrArg List.length hop
  simp only [List.length_drop, List.length_append, Operation.code, List.length_cons,
    List.length_nil] at hlength
  have hboard := board_execute (Z80.State.next_halt (h.finds hop))
  have hhalted : run.execute.board.cpu.halted = true := by
    rw [hboard]
    rfl
  have hturn : run.turn host limit = (run.execute, some .halt) := by
    rw [turn_of_not_answered hlt (h.not_isAnswered (by omega)), executeOrStop]
    simp only [hhalted, if_true]
  refine ⟨run.execute, hturn, ?_, ?_, ?_, rfl, rfl⟩
  · rw [hboard]
    show run.board.cpu.pc + UInt16.ofNat 1 - 1 = _
    rw [h.pc]
    exact UInt16.add_sub_cancel _ _
  · rw [hboard]
    rfl
  · rw [hboard]
    rfl

end Poised

/-! ## Section 4: Between operations, in flat memory -/

/-- **Ready to go on** at an address: the program is in memory, which is flat. -/
structure Ready (code : List UInt8) (pc sp : UInt16) (index : Option Z80.Index) (run : Run) :
    Prop where
  pc : run.board.cpu.pc = pc
  sp : run.board.cpu.sp = sp
  index : run.board.cpu.index = index
  halted : run.board.cpu.halted = false
  flat : run.board.bus.IsFlat
  code : ∀ i (hi : i < code.length), run.board.bus.read (codeAddress i) = code[i]

theorem Ready.poised {code : List UInt8} {pc sp : UInt16} {index : Option Z80.Index}
    (h : Ready code pc sp index run) : Poised code pc sp index run :=
  ⟨h.pc, h.sp, h.index, h.halted, h.code⟩

theorem Poised.ready {code : List UInt8} {pc sp : UInt16} {index : Option Z80.Index}
    (h : Poised code pc sp index run) (hflat : run.board.bus.IsFlat) :
    Ready code pc sp index run :=
  ⟨h.pc, h.sp, h.index, h.halted, hflat, h.code⟩

namespace Ready

variable {code rest : List UInt8} {offset : Nat} {sp : UInt16}

/-- A load leaves memory flat. -/
theorem load (h : Ready code (codeAddress offset) sp none run) (host : Host)
    {target : ArgumentPair} {value : UInt16}
    (hop : code.drop offset = (Operation.load target value).code ++ rest)
    (hfit : code.length ≤ pageSize) (hlt : run.executed + 2 ≤ limit) :
    ∃ n next, n ≤ 2 ∧ Executes host limit run next n ∧
      Ready code (codeAddress (offset + (Operation.load target value).code.length)) sp none next ∧
      next.board.bus = run.board.bus ∧
      next.board.registers = target.put value run.board.registers := by
  have htwo : target.instructions ≤ 2 := by cases target <;> decide
  obtain ⟨next, hexecutes, hpoised, hbus, hregisters⟩ :=
    h.poised.load host hop hfit (Nat.le_trans (Nat.add_le_add_left htwo _) hlt)
  exact ⟨_, next, htwo, hexecutes, hpoised.ready (hbus ▸ h.flat), hbus, hregisters⟩

/-- **A call** leaves its return address below the stack, and enters the routine. -/
theorem call (h : Ready code (codeAddress offset) 0xF000 none run) (host : Host) {address : UInt16}
    (hop : code.drop offset = (Operation.call address).code ++ rest)
    (hfit : code.length ≤ pageSize) (hlt : run.executed < limit) :
    ∃ next, Executes host limit run next 1 ∧ Ready code address 0xEFFE none next ∧
      next.board.readWord 0xEFFE = codeAddress (offset + 3) ∧
      (∀ x, x ≠ 0xEFFE → x ≠ 0xEFFF → next.board.bus.read x = run.board.bus.read x) ∧
      run.board.bus.SameLayout next.board.bus ∧
      next.board.registers = run.board.registers := by
  have hlength := congrArg List.length hop
  simp only [List.length_drop, List.length_append, Operation.code, List.length_cons,
    List.length_nil] at hlength
  have hboard := board_execute (Z80.State.next_call (h.poised.finds hop))
  rw [Z80.State.execute_call] at hboard
  -- the return address, and the two bytes of it
  have hreturn : run.board.cpu.pc + UInt16.ofNat 3 = codeAddress (offset + 3) := by
    rw [h.pc, codeAddress_add]
  have hbus : run.execute.board.bus =
      (run.board.bus.write 0xEFFE (Bytes.low (codeAddress (offset + 3)))).write 0xEFFF
        (Bytes.high (codeAddress (offset + 3))) := by
    rw [hboard, ← hreturn]
    show (run.board.bus.write (run.board.cpu.sp - 2) _).write (run.board.cpu.sp - 2 + 1) _ = _
    rw [h.sp]
    rfl
  have hread : ∀ x, run.execute.board.bus.read x =
      if x = 0xEFFF then Bytes.high (codeAddress (offset + 3))
      else if x = 0xEFFE then Bytes.low (codeAddress (offset + 3))
      else run.board.bus.read x := by
    intro x
    rw [hbus, (h.flat.write _ _).read_write, h.flat.read_write]
  have hlayout : run.board.bus.SameLayout run.execute.board.bus := by
    rw [hbus]
    exact (MemoryMap.SameLayout.write _ _ _).trans (.write _ _ _)
  have hkept : ∀ x, x ≠ 0xEFFE → x ≠ 0xEFFF →
      run.execute.board.bus.read x = run.board.bus.read x := by
    intro x hlow hhigh
    rw [hread, if_neg hhigh, if_neg hlow]
  refine ⟨run.execute, executes_execute hlt (h.poised.not_isAnswered (by omega)) ?_, ?_, ?_, hkept,
    hlayout, ?_⟩
  · rw [hboard]
    exact h.halted
  · refine ⟨?_, ?_, ?_, ?_, hlayout.isFlat h.flat, ?_⟩
    · rw [hboard]
    · rw [hboard]
      show run.board.cpu.sp - 2 = _
      rw [h.sp]
      rfl
    · rw [hboard]
      rfl
    · rw [hboard]
      exact h.halted
    · -- the program ends well below the stack
      intro i hi
      have hlow : (codeAddress i).toNat = 0x8000 + i := toNat_codeAddress (by omega)
      rw [hkept, h.code i hi] <;> rintro heq <;> rw [heq] at hlow <;>
        simp only [UInt16.reduceToNat, pageSize] at hlow hfit <;> omega
  · show Bytes.word (run.execute.board.bus.read 0xEFFE) (run.execute.board.bus.read 0xEFFF) = _
    rw [hread, hread]
    exact Bytes.word_low_high _
  · rw [hboard]
    rfl

/-- **A return** goes on at the address on the stack. -/
theorem ret {pc address : UInt16} (h : Ready code pc 0xEFFE none run) {host : Host}
    (hnot : ¬ run.IsAnswered host) (hopcode : run.board.bus.read pc = 0xC9)
    (hstack : run.board.readWord 0xEFFE = address) (hlt : run.executed < limit) :
    ∃ next, Executes host limit run next 1 ∧ Ready code address 0xF000 none next ∧
      next.board.bus = run.board.bus ∧ next.board.registers = run.board.registers := by
  have hfinds : run.board.Finds [0xC9] := by
    intro i hi
    obtain rfl : i = 0 := Nat.lt_one_iff.mp hi
    rw [show run.board.cpu.pc + UInt16.ofNat 0 = run.board.cpu.pc from UInt16.add_zero _, h.pc]
    exact hopcode
  have hboard := board_execute (Z80.State.next_ret hfinds)
  rw [Z80.State.execute_ret] at hboard
  have hbus : run.execute.board.bus = run.board.bus := by
    rw [hboard]
  refine ⟨run.execute, executes_execute hlt hnot ?_, ?_, hbus, ?_⟩
  · rw [hboard]
    exact h.halted
  · refine ⟨?_, ?_, ?_, ?_, hbus ▸ h.flat, hbus ▸ h.code⟩
    · rw [hboard]
      show run.board.readWord run.board.cpu.sp = _
      rw [h.sp, hstack]
    · rw [hboard]
      show run.board.cpu.sp + 2 = _
      rw [h.sp]
      rfl
    · rw [hboard]
      rfl
    · rw [hboard]
      exact h.halted
  · rw [hboard]
    rfl

end Ready

end Run

end HostDrive

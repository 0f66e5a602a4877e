import HostDrive.Z80.Step

/-!
# What a Processor Does to its Bus

Instructions reach the bus by two operations only: they write bytes of memory, or they send a byte
to an I/O address. None of them does both. So whatever both operations keep, every program keeps,
and while no byte is sent it is enough that writing keeps it.

## Architecture

- `Bus.KeepsWrites` is a property that writing keeps; `Bus.Keeps` is one that sending keeps too.
- One lemma for each way in which instructions write: `put`, `push`, block transfers and the like.
- `State.execute_writes` and `State.execute_sends` go through the instructions; `State.step_cases`
  and `State.step_keeps` are one step.
-/

namespace HostDrive.Z80

/-- **Kept by writes**: writing to memory leaves the property true. -/
def Bus.KeepsWrites {β : Type} [Bus β] (P : β → Prop) : Prop :=
  ∀ bus a b, P bus → P (Bus.write bus a b)

/-- **Kept by a bus**: writing to memory and sending to an I/O address leave the property true. -/
structure Bus.Keeps {β : Type} [Bus β] (P : β → Prop) : Prop where
  write : Bus.KeepsWrites P
  output : ∀ bus a b, P bus → P (Bus.output bus a b)

/-- The instructions that send a byte to an I/O address. -/
def Instruction.Sends : Instruction → Prop
  | .outputA _ | .output _ | .outputBlock _ _ => True
  | _ => False

namespace State

variable {β : Type} [Bus β] {P : β → Prop} {s : State β}

/-! ## Section 1: Ways to write -/

theorem write_keeps (hP : Bus.KeepsWrites P) (a : UInt16) (b : UInt8) (h : P s.bus) :
    P (s.write a b).bus :=
  hP s.bus a b h

theorem writeWord_keeps (hP : Bus.KeepsWrites P) (a w : UInt16) (h : P s.bus) :
    P (s.writeWord a w).bus :=
  write_keeps hP _ _ (write_keeps hP _ _ h)

theorem put_keeps (hP : Bus.KeepsWrites P) (p : Place) (b : UInt8) (h : P s.bus) :
    P (s.put p b).bus := by
  cases p with
  | register r => exact h
  | pointed p => exact write_keeps hP _ b h
  | indexed i distance => exact write_keeps hP _ b h
  | absolute a => exact write_keeps hP a b h

theorem putWord_keeps (hP : Bus.KeepsWrites P) (p : WordPlace) (w : UInt16) (h : P s.bus) :
    P (s.putWord p w).bus := by
  cases p with
  | pair p => exact h
  | absolute a => exact writeWord_keeps hP a w h

theorem push_keeps (hP : Bus.KeepsWrites P) (w : UInt16) (h : P s.bus) : P (s.push w).bus :=
  writeWord_keeps hP _ w h

theorem callTo_keeps (hP : Bus.KeepsWrites P) (a : UInt16) (h : P s.bus) : P (s.callTo a).bus :=
  push_keeps hP _ h

theorem rotateDigits_keeps (hP : Bus.KeepsWrites P) (mix : Nat → Nat → Nat × Nat) (h : P s.bus) :
    P (s.rotateDigits mix).bus :=
  write_keeps hP _ _ h

omit [Bus β] in
/-- Whether a block instruction goes on is a matter of the program counter. -/
theorem bus_repeatIf (again : Bool) (s : State β) : (repeatIf again s).1.bus = s.bus := by
  cases again <;> rfl

theorem copyOne_keeps (hP : Bus.KeepsWrites P) (d : Direction) (h : P s.bus) : P (s.copyOne d).bus :=
  write_keeps hP _ _ h

theorem inputOne_keeps (hP : Bus.KeepsWrites P) (d : Direction) (h : P s.bus) : P (s.inputOne d).bus :=
  write_keeps hP _ _ h

/-! ## Section 2: Instructions -/

/-- **An instruction that sends nothing** only writes. -/
theorem execute_writes (hP : Bus.KeepsWrites P) (i : Instruction) (hi : ¬ i.Sends) (h : P s.bus) :
    P (s.execute i).1.bus := by
  -- with the bus apart from the registers, an instruction that leaves it alone shows that it does
  obtain ⟨cpu, bus⟩ := s
  have hbus : P bus := h
  cases i with
  | load target source => exact put_keeps hP target _ h
  | loadWord target source => exact putWord_keeps hP target _ h
  | push p => exact push_keeps hP _ h
  | exchangeTop p => exact writeWord_keeps hP _ _ h
  | increment p | decrement p | shift kind p => exact put_keeps hP p _ hbus
  | resetBit bit p | setBit bit p => exact put_keeps hP p _ h
  | rotateDigitsLeft | rotateDigitsRight => exact rotateDigits_keeps hP _ h
  | restart target => exact callTo_keeps hP target h
  | call when? target =>
    simp only [execute]
    split
    · exact callTo_keeps hP target h
    · exact hbus
  | outputA low | output source | outputBlock d again => exact absurd trivial hi
  | copyBlock d again =>
    simp only [execute, bus_repeatIf]
    exact copyOne_keeps hP d h
  | compareBlock d again =>
    simp only [execute, bus_repeatIf]
    exact hbus
  | inputBlock d again =>
    simp only [execute, bus_repeatIf]
    exact inputOne_keeps hP d h
  | input target =>
    cases target with
    | none => exact hbus
    | some r => exact put_keeps hP (.register r) _ hbus
  | storeSpecial target => cases target <;> exact hbus
  -- the others change registers only, some of them under a condition
  | jump when? target | jumpRelative when? distance | ret when? | loop distance =>
    simp only [execute]
    split <;> exact hbus
  | _ => exact hbus

/-- **An instruction that sends a byte** does nothing else to the bus. -/
theorem execute_sends (s : State β) (i : Instruction) (hi : i.Sends) :
    ∃ address b, (s.execute i).1.bus = Bus.output s.bus address b := by
  cases i with
  | outputA low => exact ⟨_, _, rfl⟩
  | output source => exact ⟨_, _, rfl⟩
  | outputBlock d again =>
    simp only [execute, bus_repeatIf]
    exact ⟨_, _, rfl⟩
  | _ => exact absurd hi id

/-- **What a step does to the bus**: it only writes, or it only sends a byte. -/
theorem step_cases (s : State β) :
    (∀ P : β → Prop, Bus.KeepsWrites P → P s.bus → P s.step.1.bus) ∨
    ∃ address b, s.step.1.bus = Bus.output s.bus address b := by
  by_cases hi : s.next.instruction.Sends
  · exact .inr (execute_sends _ _ hi)
  · exact .inl fun P hP h => execute_writes hP _ hi h

/-- **A step** keeps what the bus keeps, whatever the program is. -/
theorem step_keeps (hP : Bus.Keeps P) (h : P s.bus) : P s.step.1.bus := by
  obtain hwrites | ⟨address, b, hsends⟩ := step_cases s
  · exact hwrites P hP.write h
  · rw [hsends]
    exact hP.output _ _ _ h

end State

end HostDrive.Z80

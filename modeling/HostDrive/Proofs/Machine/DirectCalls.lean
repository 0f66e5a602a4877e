import HostDrive.Proofs.Machine.DriverPrograms
import HostDrive.Proofs.Machine.Termination

/-!
# Programs and Direct Calls

A program that loads registers and calls the driver does, on a flat machine, what the same calls do
when they are made directly, one after the other, for a flat guest with the same memory. Only the
return addresses below the stack tell the two apart.

## Architecture

- `Aligned` relates a run to the registers and the memory of a guest, between two operations.
- `Mirrors` relates a run to the direct way. `Mirrors.answer` is a call that the guard answers,
  `Mirrors.step` an operation, `Mirrors.steps` a whole program by induction over it.
- `Machine.runProgram?_ranDirectly` adds the start and the halt.
-/

namespace HostDrive

/-! ## Section 1: Replies on a board -/

namespace Board

/-- The registers are set, and nothing else of the processor that a program depends on. -/
theorem cpu_deliver (reply : Reply) (b : Board) :
    (reply.deliver b).registers = reply.updateRegisters b.registers ∧
    (reply.deliver b).cpu.pc = b.cpu.pc ∧ (reply.deliver b).cpu.sp = b.cpu.sp ∧
    (reply.deliver b).cpu.index = b.cpu.index ∧
    (reply.deliver b).cpu.halted = b.cpu.halted := by
  have hcpu : (reply.writeMemory b).cpu = b.cpu := by
    cases reply with
    | store address bytes => exact cpu_store b address bytes
    | _ => rfl
  have hset : ∀ (b : Board) (r : CallRegisters), (b.setRegisters r).registers = r := by
    intro b r
    have hlow : Bytes.low (Z80.Processor.withLow b.cpu.bc r.c) = r.c := by
      apply UInt8.toNat_inj.mp
      have hc := r.c.toNat_lt
      simp only [Z80.Processor.withLow, Bytes.word, Bytes.low, UInt16.toNat_ofNat',
        UInt8.toNat_ofNat']
      omega
    show CallRegisters.mk r.a (Bytes.low (Z80.Processor.withLow b.cpu.bc r.c)) r.de r.hl r.ix r.iy
      r.carry = r
    rw [hlow]
  refine ⟨hset _ _, ?_, ?_, ?_, ?_⟩
  · show (reply.writeMemory b).cpu.pc = _
    rw [hcpu]
  · show (reply.writeMemory b).cpu.sp = _
    rw [hcpu]
  · show (reply.writeMemory b).cpu.index = _
    rw [hcpu]
  · show (reply.writeMemory b).cpu.halted = _
    rw [hcpu]

/-- A reply leaves the same bytes on a flat board and with a flat guest, wherever there were the
    same bytes before. -/
theorem read_deliver_congr {b : Board} {g : FlatGuest} (hflat : b.bus.IsFlat) {x : UInt16}
    (hx : b.bus.read x = g.peek x) (reply : Reply) :
    (reply.deliver b).bus.read x = (reply.deliver g).peek x := by
  show (reply.writeMemory b).bus.read x = (reply.writeMemory g).peek x
  cases reply with
  | store address bytes => exact read_store_congr hflat hx address bytes
  | accept | grant | noDirectory | noFile => exact hx

/-- A byte that is not written stays. -/
theorem read_deliver_of_not_writes {b : Board} (hflat : b.bus.IsFlat) {reply : Reply} {x : UInt16}
    (hx : ¬ reply.Writes x) : (reply.deliver b).bus.read x = b.bus.read x := by
  have hshowing : b.bus.read x = (FlatGuest.showing b.bus.read {}).peek x :=
    (FlatGuest.peek_showing _ _ x).symm
  rw [read_deliver_congr hflat hshowing, hshowing]
  show (reply.writeMemory (FlatGuest.showing b.bus.read {})).peek x = _
  cases reply with
  | store address bytes => exact FlatGuest.peek_store_of_not_within hx
  | accept | grant | noDirectory | noFile => rfl

end Board

/-- What the guard trusts depends on the lower half of memory, and on what the pages show. -/
theorem Trusts.of_bus {known : Option Token} {b b' : Board} {token : Token}
    (h : Trusts known b token) (hlayout : b.bus.SameLayout b'.bus)
    (hread : ∀ x, x.toNat < 0x8000 → b'.bus.read x = b.bus.read x) : Trusts known b' token := by
  obtain ⟨⟨hdevice, hblock⟩, hknown⟩ := h
  refine ⟨⟨(hlayout.deviceInPage 1).trans hdevice,
    (hlayout.blockInPage token.device 1).trans hblock⟩, hknown.imp_right ?_⟩
  rintro ⟨hnone, hsigned⟩
  refine ⟨hnone, (Guest.readBlock_congr fun x hx => ?_).trans hsigned⟩
  -- the signature stands at the start of page 1
  obtain ⟨-, hbelow⟩ := (Guest.within_iff (by decide)).mp hx
  exact hread x (Nat.lt_trans hbelow (by decide))

/-! ## Section 2: The simulation -/

/-- **A run in line with a guest**: it is ready to go on, and they agree on registers, and on memory
    apart from return addresses. -/
structure Aligned (code : List UInt8) (pc sp : UInt16) (run : Run) (r : CallRegisters)
    (view : Guest.View) : Prop where
  ready : run.Ready code pc sp none
  registers : run.board.registers = r
  memory : ∀ x, ¬ IsReturnAddress x → run.board.bus.read x = view x

namespace Aligned

variable {code rest : List UInt8} {offset limit : Nat} {run : Run} {r : CallRegisters}
  {view : Guest.View}

/-- A load sets its register. -/
theorem load (h : Aligned code (codeAddress offset) 0xF000 run r view) (host : Host)
    {target : ArgumentPair} {value : UInt16}
    (hop : code.drop offset = (Operation.load target value).code ++ rest)
    (hfit : code.length ≤ pageSize) (hlt : run.executed + 2 ≤ limit) :
    ∃ n next, n ≤ 2 ∧ run.Executes host limit next n ∧ next.board.bus = run.board.bus ∧
      Aligned code (codeAddress (offset + (Operation.load target value).code.length)) 0xF000 next
        (target.put value r) view := by
  obtain ⟨n, next, hn, hexecutes, hready, hbus, hregisters⟩ := h.ready.load host hop hfit hlt
  refine ⟨n, next, hn, hexecutes, hbus, hready, ?_, ?_⟩
  · rw [hregisters, h.registers]
  · intro x hx
    rw [hbus]
    exact h.memory x hx

/-- The instruction of a call enters the routine, and leaves its return address on the stack. -/
theorem enter (h : Aligned code (codeAddress offset) 0xF000 run r view) (host : Host)
    {address : UInt16} (hop : code.drop offset = (Operation.call address).code ++ rest)
    (hfit : code.length ≤ pageSize) (hlt : run.executed < limit) :
    ∃ entered, run.Executes host limit entered 1 ∧
      entered.board.readWord 0xEFFE = codeAddress (offset + 3) ∧
      run.board.bus.SameLayout entered.board.bus ∧
      (∀ x, ¬ IsReturnAddress x → entered.board.bus.read x = run.board.bus.read x) ∧
      Aligned code address 0xEFFE entered r view := by
  obtain ⟨entered, hexecutes, hready, hreturn, hkept, hlayout, hregisters⟩ :=
    h.ready.call host hop hfit hlt
  have hkept' : ∀ x, ¬ IsReturnAddress x → entered.board.bus.read x = run.board.bus.read x :=
    fun x hx => hkept x (fun heq => hx (.inl heq)) (fun heq => hx (.inr heq))
  refine ⟨entered, hexecutes, hreturn, hlayout, hkept', hready, hregisters.trans h.registers, ?_⟩
  intro x hx
  rw [hkept' x hx]
  exact h.memory x hx

/-- **A forced return** with an answer: it pops the address on the stack, which the answer left
    alone as it did the program. -/
theorem returned {g : FlatGuest} {pc back : UInt16}
    (h : Aligned code pc 0xEFFE run g.registers g.peek)
    (hreturn : run.board.readWord 0xEFFE = back) {reply : Reply}
    (hwrites : ∀ x, reply.Writes x → ¬ IsReturnAddress x ∧ ¬ Guest.Within 0x8000 code.length x)
    {last : Run} (hboard : last.board = Z80.State.returnBack (reply.deliver run.board)) :
    Aligned code back 0xF000 last (reply.deliver g).registers (reply.deliver g).peek := by
  obtain ⟨hregisters, hpc, hsp, hindex, hhalted⟩ := Board.cpu_deliver reply run.board
  have hbus : last.board.bus = (reply.deliver run.board).bus := by
    rw [hboard]
    rfl
  have hkept : ∀ x, ¬ reply.Writes x →
      (reply.deliver run.board).bus.read x = run.board.bus.read x :=
    fun x hx => Board.read_deliver_of_not_writes h.ready.flat hx
  have hstack : ∀ x, IsReturnAddress x →
      (reply.deliver run.board).bus.read x = run.board.bus.read x :=
    fun x hx => hkept x fun hwritten => (hwrites x hwritten).1 hx
  refine ⟨⟨?pc, ?sp, ?index, ?halted, ?flat, ?code⟩, ?registers, ?memory⟩
  case pc =>
    rw [hboard]
    show (reply.deliver run.board).readWord (reply.deliver run.board).cpu.sp = _
    rw [hsp, h.ready.sp, ← hreturn]
    show Bytes.word ((reply.deliver run.board).bus.read 0xEFFE)
      ((reply.deliver run.board).bus.read 0xEFFF) = _
    rw [hstack _ (.inl rfl), hstack _ (.inr rfl)]
    rfl
  case sp =>
    rw [hboard]
    show (reply.deliver run.board).cpu.sp + 2 = _
    rw [hsp, h.ready.sp]
    rfl
  case index =>
    rw [hboard]
    exact hindex.trans h.ready.index
  case halted =>
    rw [hboard]
    exact hhalted.trans h.ready.halted
  case flat =>
    rw [hbus]
    exact (Board.sameLayout_deliver reply run.board).isFlat h.ready.flat
  case code =>
    intro i hi
    rw [hbus, hkept (codeAddress i) fun hx => (hwrites _ hx).2 (Guest.within_add_ofNat hi)]
    exact h.ready.code i hi
  case registers =>
    rw [hboard]
    show (reply.deliver run.board).registers = reply.updateRegisters g.registers
    rw [hregisters, h.registers]
  case memory =>
    intro x hx
    rw [hbus]
    exact Board.read_deliver_congr h.ready.flat (h.memory x hx) reply

end Aligned

/-- **A run mirrors direct calls**: they agree on registers and memory, on the drive, and on the
    calls so far. The guard is ready to answer the next one. -/
structure Mirrors (code : List UInt8) (pc sp : UInt16) (token : Token) (run : Run) (s : Direct) :
    Prop where
  aligned : Aligned code pc sp run s.guest.registers s.guest.peek
  guarded : ∃ guard, run.guard = some guard ∧ guard.drive = s.drive ∧
    Trusts guard.token run.board token
  serviced : run.serviced.toList = s.services

namespace Mirrors

variable {code rest : List UInt8} {offset limit : Nat} {token : Token} {run : Run} {s : Direct}
  {host : Host}

/-- What an instruction keeps in the lower half of memory, the guard keeps trusting. -/
theorem of_executes {next : Run} {pc sp : UInt16} {n : Nat} {s' : Direct}
    (h : Mirrors code pc sp token run s) (hexecutes : run.Executes host limit next n)
    (hlayout : run.board.bus.SameLayout next.board.bus)
    (hkept : ∀ x, ¬ IsReturnAddress x → next.board.bus.read x = run.board.bus.read x)
    {pc' sp' : UInt16} (haligned : Aligned code pc' sp' next s'.guest.registers s'.guest.peek)
    (hdrive : s'.drive = s.drive) (hservices : s'.services = s.services) :
    Mirrors code pc' sp' token next s' := by
  refine ⟨haligned, ?_, ?_⟩
  · obtain ⟨guard, hguard, hsame, htrusts⟩ := h.guarded
    refine ⟨guard, hexecutes.guard.trans hguard, hsame.trans hdrive.symm,
      htrusts.of_bus hlayout fun x hx => hkept x ?_⟩
    rintro (rfl | rfl) <;> exact absurd hx (by decide)
  · rw [hexecutes.serviced, h.serviced, hservices]

/-- **The guard answers** as the drive does when it is asked directly, and the forced return pops
    the address on the stack. -/
theorem answer {entry : EntryPoint} {back : UInt16}
    (h : Mirrors code entry.address 0xEFFE token run s)
    (hreturn : run.board.readWord 0xEFFE = back) (hkeeps : KeepsAway host code.length s entry)
    (hlt : run.executed < limit) :
    ∃ last, run.turn host limit = (last, none) ∧ last.executed = run.executed ∧
      Mirrors code back 0xF000 token last (s.step host (.call entry)) := by
  obtain ⟨guard, hguard, hdrive, htrusts⟩ := h.guarded
  -- the call reads nothing that differs, so the answer is the same
  obtain ⟨d', reply, hanswer⟩ : ∃ d' reply,
      s.drive.answer host entry s.guest.registers s.guest.peek = (d', reply) := ⟨_, _, rfl⟩
  have hsame : guard.drive.answer host entry run.board.registers run.board.bus.read =
      (d', reply) := by
    rw [hdrive, h.aligned.registers, ← hanswer]
    exact (Drive.answer_eq_of_reads
      (fun x hx => (h.aligned.memory x (hkeeps.reads x hx)).symm) _ _).symm
  have hcalled : guard.drive.call host entry run.board =
      (d', reply.status, reply.deliver run.board) := Drive.call_of_answer hsame
  have hdirect : s.drive.call host entry s.guest = (d', reply.status, reply.deliver s.guest) :=
    Drive.call_of_answer hanswer
  have hstep : s.step host (.call entry) =
      ⟨d', reply.deliver s.guest, s.services ++ [⟨entry, reply.status⟩]⟩ := by
    rw [Direct.step]
    simp only [hdirect]
  -- and it writes neither the program nor the address to return to
  have hwrites : ∀ x, reply.Writes x →
      ¬ IsReturnAddress x ∧ ¬ Guest.Within 0x8000 code.length x := by
    intro x hx
    apply hkeeps.writes
    rw [Direct.reply, hanswer]
    exact hx
  -- the fetch at the entry point is that call and a return, in one turn
  have hfetch := Guard.fetch_of_trusts ⟨host, run.board⟩ entry h.aligned.ready.pc htrusts
  simp only [hcalled] at hfetch
  have hturn := Run.turn_of_services hlt hguard (congrArg (·.2.1) hfetch)
  have hboard : (run.answered guard host ⟨entry, reply.status⟩).board =
      Z80.State.returnBack (reply.deliver run.board) := congrArg (·.2.2) hfetch
  refine ⟨_, hturn, rfl, ?aligned, ?guarded, ?serviced⟩
  case aligned =>
    rw [hstep]
    exact h.aligned.returned hreturn hwrites hboard
  case guarded =>
    -- the token is known from now on, and shows as before
    have hlayout := Board.sameLayout_deliver reply run.board
    refine ⟨⟨d', some token⟩, ?_, by rw [hstep], ?_, .inl rfl⟩
    · exact congrArg (fun fetched => some fetched.1) hfetch
    · rw [hboard]
      exact ⟨(hlayout.deviceInPage 1).trans htrusts.1.1,
        (hlayout.blockInPage token.device 1).trans htrusts.1.2⟩
  case serviced =>
    rw [hstep]
    show (run.serviced.push ⟨entry, reply.status⟩).toList = _
    rw [Array.toList_push, h.serviced]

/-- **One operation** of a program, in two instructions at most. -/
theorem step (h : Mirrors code (codeAddress offset) 0xF000 token run s) (host : Host)
    {step : DriverStep} (hop : code.drop offset = step.operation.code ++ rest)
    (hfit : code.length ≤ pageSize)
    (hkeeps : ∀ entry, step = .call entry → KeepsAway host code.length s entry)
    (hlt : run.executed + 2 ≤ limit) :
    ∃ last, run.Reaches host limit last ∧ last.executed ≤ run.executed + 2 ∧
      Mirrors code (codeAddress (offset + step.operation.code.length)) 0xF000 token last
        (s.step host step) := by
  cases step with
  | load target value =>
    obtain ⟨n, next, hn, hexecutes, hbus, haligned⟩ := h.aligned.load host hop hfit hlt
    have hcount := hexecutes.executed
    have hlayout : run.board.bus.SameLayout next.board.bus := by
      rw [hbus]
      exact .refl _
    refine ⟨next, hexecutes.reaches, by omega,
      h.of_executes hexecutes hlayout (fun x _ => by rw [hbus]) haligned rfl rfl⟩
  | call entry =>
    obtain ⟨entered, hexecutes, hreturn, hlayout, hkept, haligned⟩ :=
      h.aligned.enter host hop hfit (Nat.lt_of_succ_lt hlt)
    have hentered : Mirrors code entry.address 0xEFFE token entered s :=
      h.of_executes hexecutes hlayout hkept haligned rfl rfl
    have hcount := hexecutes.executed
    have hlt' : entered.executed < limit := hcount ▸ hlt
    obtain ⟨last, hturn, hsame, hlast⟩ := hentered.answer hreturn (hkeeps entry rfl) hlt'
    exact ⟨last, hexecutes.reaches.trans (.turn hturn (.here last)), by omega, hlast⟩

/-- **A whole program**, up to its halt. -/
theorem steps {steps : List DriverStep}
    (h : Mirrors code (codeAddress offset) 0xF000 token run s) (host : Host)
    (hop : code.drop offset = Program.code (steps.map DriverStep.operation) ++ rest)
    (hfit : code.length ≤ pageSize) (hsafe : Undisturbed host code.length s steps)
    (hlt : run.executed + 2 * steps.length ≤ limit) :
    ∃ last, run.Reaches host limit last ∧ last.executed ≤ run.executed + 2 * steps.length ∧
      Mirrors code
        (codeAddress (offset + (Program.code (steps.map DriverStep.operation)).length)) 0xF000 token
        last (s.run host steps) := by
  -- on the operations: each starts where the one before it ended
  induction steps generalizing offset run s with
  | nil => exact ⟨run, .here run, Nat.le_refl _, h⟩
  | cons first others ih =>
    obtain ⟨hkeeps, hothers⟩ := hsafe
    have hcode : Program.code ((first :: others).map DriverStep.operation) =
        first.operation.code ++ Program.code (others.map DriverStep.operation) := rfl
    rw [hcode, List.append_assoc] at hop
    rw [List.length_cons] at hlt
    have hfirst : run.executed + 2 ≤ limit := by omega
    obtain ⟨middle, hreaches, hexecuted, hmiddle⟩ := h.step host hop hfit hkeeps hfirst
    have hop' := drop_behind hop
    have hlater : middle.executed + 2 * others.length ≤ limit := by omega
    obtain ⟨last, hreaches', hexecuted', hlast⟩ := ih hmiddle hop' hothers hlater
    refine ⟨last, hreaches.trans hreaches', ?_, ?_⟩
    · rw [List.length_cons]
      omega
    · rw [hcode, List.length_append, ← Nat.add_assoc]
      exact hlast

end Mirrors

/-! ## Section 3: Whole runs -/

/-- The registers of the calling convention after a reset. -/
def resetRegisters : CallRegisters := { a := 0xFF, carry := true }

/-- **A machine that serves a drive**: its memory is flat, and its guard would let the drive
    answer. -/
structure Machine.Serves (m : Machine) (d : Drive) : Prop where
  flat : m.board.bus.IsFlat
  guarded : ∃ guard token, m.guard = some guard ∧ guard.drive = d ∧
    Trusts guard.token m.board token

/-- The direct way with the drive of a machine, and a flat guest that has the memory of the machine
    with a program in it. -/
def Machine.direct (m : Machine) (d : Drive) (steps : List DriverStep) : Direct where
  drive := d
  guest := .showing (m.load programAddress (driverProgram steps).code).peek resetRegisters

/-- **What a run of a program has in common with direct calls.** -/
structure RanDirectly (length : Nat) (direct : Direct) (m : Machine) (exit : Exit) : Prop where
  reason : exit.reason = .halt
  /-- The program counter is on the halt. -/
  pc : exit.pc = codeAddress (length - 1)
  /-- Which routines were called, and what each of them answered. -/
  serviced : exit.serviced.toList = direct.services
  /-- Registers A, C, DE, HL, IX and IY, and the carry flag. -/
  registers : Guest.registers m.board = direct.guest.registers
  memory : ∀ x, x ≠ 0xEFFE → x ≠ 0xEFFF → m.peek x = direct.guest.peek x
  /-- Current directory and searches, and all else of the drive. -/
  drive : m.guard.map Guard.drive = some direct.drive

namespace Machine

variable {m : Machine} {d : Drive} {steps : List DriverStep}

theorem code_driverProgram (steps : List DriverStep) :
    (driverProgram steps).code =
      Program.code (steps.map DriverStep.operation) ++ Operation.halt.code := by
  simp only [driverProgram, Program.code, List.flatMap_append, List.flatMap_singleton]

theorem peek_load_program (hflat : m.board.bus.IsFlat) {code : List UInt8}
    (hfit : code.length ≤ pageSize) {x : UInt16} (hx : x.toNat < 0x8000 ∨ 0xC000 ≤ x.toNat) :
    (m.load programAddress code).peek x = m.peek x :=
  peek_load_of_not_within hflat (Nat.le_trans hfit (by decide)) (not_within_program hfit hx)

/-- **A run starts in line** with a flat guest that has the same memory and was reset. -/
theorem aligned_start (hflat : m.board.bus.IsFlat) {code : List UInt8}
    (hfit : code.length ≤ pageSize) :
    Aligned code (codeAddress 0) 0xF000 ((m.load programAddress code).start programAddress)
      resetRegisters (m.load programAddress code).peek := by
  have hsize : code.length ≤ memorySize := Nat.le_trans hfit (by decide)
  refine ⟨⟨rfl, rfl, rfl, rfl, isFlat_load hflat _ _, ?_⟩, rfl, fun _ _ => rfl⟩
  intro i hi
  exact peek_load_add hflat programAddress hsize hi

/-- Loading above page 1 leaves alone what the guard trusts. -/
theorem Serves.load (h : m.Serves d) {a : UInt16} {bytes : List UInt8} (hlow : 0x8000 ≤ a.toNat)
    (hhigh : a.toNat + bytes.length ≤ memorySize) : (m.load a bytes).Serves d where
  flat := isFlat_load h.flat a bytes
  guarded := by
    obtain ⟨guard, token, hguard, hdrive, htrusts⟩ := h.guarded
    have hlayout : m.board.bus.SameLayout (m.load a bytes).board.bus := by
      rw [load_eq]
      exact Board.sameLayout_store _ _ _
    refine ⟨guard, token, ?_, hdrive, htrusts.of_bus hlayout ?_⟩
    · rw [load_eq]
      exact hguard
    · intro x hx
      have hbelow : ¬ Guest.Within a bytes.length x := by
        rw [Guest.within_iff hhigh]
        omega
      exact peek_load_of_not_within h.flat (Nat.le_of_add_left_le hhigh) hbelow

/-- A run of a machine that serves a drive starts as the direct way does. -/
theorem Serves.mirrors (h : m.Serves d) (hfit : (driverProgram steps).code.length ≤ pageSize) :
    ∃ token, Mirrors (driverProgram steps).code (codeAddress 0) 0xF000 token
      ((m.load programAddress (driverProgram steps).code).start programAddress)
      (m.direct d steps) := by
  have hsize : (driverProgram steps).code.length ≤ 0x4000 := hfit
  have hloaded : (m.load programAddress (driverProgram steps).code).Serves d :=
    h.load (by decide) (Nat.le_trans (Nat.add_le_add_left hsize _) (by decide))
  obtain ⟨guard, token, hguard, hdrive, htrusts⟩ := hloaded.guarded
  refine ⟨token, ?_, ⟨guard, hguard, hdrive, htrusts⟩, rfl⟩
  have haligned := aligned_start h.flat hfit
  refine ⟨haligned.ready, haligned.registers, ?_⟩
  intro x hx
  rw [haligned.memory x hx]
  exact (FlatGuest.peek_showing _ _ x).symm

/-- **The end of a program**: a run that comes in line up to the halt stops there. -/
theorem runProgram?_of_aligned {before : Run} {r : CallRegisters} {view : Guest.View} (host : Host)
    (hfit : (driverProgram steps).code.length ≤ pageSize)
    (hreaches : ((m.load programAddress (driverProgram steps).code).start programAddress).Reaches
      host m.limit before)
    (hlt : before.executed < m.limit)
    (h : Aligned (driverProgram steps).code
      (codeAddress (Program.code (steps.map DriverStep.operation)).length) 0xF000 before r view) :
    ∃ m' exit, m.runProgram? host (driverProgram steps) = some (m', exit) ∧ exit.reason = .halt ∧
      exit.pc = codeAddress ((driverProgram steps).code.length - 1) ∧
      exit.serviced = before.serviced ∧ m'.board.registers = r ∧
      m'.board.bus = before.board.bus ∧ m'.guard = before.guard ∧ m'.limit = m.limit := by
  have hcode := code_driverProgram steps
  have hop : (driverProgram steps).code.drop
      (Program.code (steps.map DriverStep.operation)).length = Operation.halt.code ++ [] := by
    rw [hcode, List.drop_left, List.append_nil]
  have hlength : (driverProgram steps).code.length - 1 =
      (Program.code (steps.map DriverStep.operation)).length := by
    rw [hcode, List.length_append]
    rfl
  obtain ⟨last, hturn, hpc, hbus, hregisters, hguard, hserviced⟩ :=
    h.ready.poised.halt host hop hfit hlt
  have hloaded : (m.load programAddress (driverProgram steps).code).limit = m.limit := by
    rw [load_eq]
  have hfinish := Run.finish?_eq_some_iff.mpr ⟨before, hreaches, hturn⟩
  rw [← hloaded] at hfinish
  refine ⟨_, _, run?_of_finish? hfinish, rfl, ?_, hserviced, hregisters.trans h.registers, hbus,
    hguard, hloaded⟩
  rw [hlength]
  exact hpc

/-- **A program does what direct calls do**, and the machine serves the drive that they leave. -/
theorem runProgram?_ranDirectly (h : m.Serves d) (host : Host)
    (hfit : (driverProgram steps).code.length ≤ pageSize)
    (hlimit : 2 * (driverProgram steps).length ≤ m.limit)
    (hsafe : Undisturbed host (driverProgram steps).code.length (m.direct d steps) steps) :
    ∃ m' exit, m.runProgram? host (driverProgram steps) = some (m', exit) ∧
      RanDirectly (driverProgram steps).code.length ((m.direct d steps).run host steps) m' exit ∧
      m'.Serves ((m.direct d steps).run host steps).drive ∧ m'.limit = m.limit := by
  obtain ⟨token, hstart⟩ := h.mirrors hfit
  rw [length_driverProgram] at hlimit
  have hlt : ((m.load programAddress (driverProgram steps).code).start programAddress).executed +
      2 * steps.length ≤ m.limit := by
    show 0 + 2 * steps.length ≤ m.limit
    omega
  obtain ⟨before, hreaches, hexecuted, hbefore⟩ :=
    hstart.steps host (code_driverProgram steps) hfit hsafe hlt
  have hexecuted' : before.executed ≤ 0 + 2 * steps.length := hexecuted
  rw [Nat.zero_add] at hbefore hexecuted'
  have hlt' : before.executed < m.limit := by omega
  obtain ⟨m', exit, hrun, hreason, hpc, hserviced, hregisters, hbus, hguard, hsame⟩ :=
    runProgram?_of_aligned host hfit hreaches hlt' hbefore.aligned
  -- the halt touches neither memory nor guard
  obtain ⟨guard, hsome, hdrive, htrusts⟩ := hbefore.guarded
  refine ⟨m', exit, hrun, ⟨hreason, hpc, ?serviced, hregisters, ?memory, ?drive⟩, ⟨?flat, ?serves⟩,
    hsame⟩
  case serviced => rw [hserviced, hbefore.serviced]
  case memory =>
    intro x hlow hhigh
    show m'.board.bus.read x = _
    rw [hbus]
    exact hbefore.aligned.memory x fun hx => hx.elim hlow hhigh
  case drive =>
    rw [hguard, hsome, ← hdrive]
    rfl
  case flat =>
    rw [hbus]
    exact hbefore.aligned.ready.flat
  case serves =>
    refine ⟨guard, token, hguard.trans hsome, hdrive, htrusts.of_bus ?_ fun x _ => by rw [hbus]⟩
    rw [hbus]
    exact .refl _

end Machine

end HostDrive

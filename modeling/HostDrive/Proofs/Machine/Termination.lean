import HostDrive.Proofs.Drive.Calls
import HostDrive.Proofs.Machine.Busy
import HostDrive.Proofs.Machine.Memory
import HostDrive.Proofs.Machine.Requests

/-!
# When a Run Ends

A run of a machine ends unless it comes by a state in which the drive is kept busy. A program gets
there by putting the address of a routine into every word that the stack pointer passes.

## Architecture

- `Guard.Pinned` is a drive without a base directory, and a stack full of calls of find-first.
- `Machine.run?_alloc` is the run that makes such a drive trusted; `MemoryMap.calling` is memory
  with such a stack.
- The last section says exactly when a run ends, and gives a machine with a run that does not.
-/

namespace HostDrive

variable {host : Host} {limit : Nat}

/-! ## Section 1: Drives that call themselves -/

namespace Guard

/-- **A drive that calls itself**: the guard knows what shows, the base of its drive is no
    directory, find-first is about to be called, and every word on the stack is its address. -/
structure Pinned (host : Host) (s : Guard × Board) : Prop where
  knows : ∃ token, Knows s token
  missing : host.isDirectory s.1.drive.base = false
  pc : s.2.cpu.pc = 0x4023
  stack : ∀ n, s.2.readWord (s.2.cpu.sp + UInt16.ofNat (2 * n)) = 0x4023

/-- A find-first without a directory to start from leaves drive, memory and stack as they were. -/
theorem next_of_pinned {s : Guard × Board} (h : Pinned host s) :
    (next host s).1.drive = s.1.drive ∧ (next host s).2.bus = s.2.bus ∧
      (next host s).2.cpu.sp = s.2.cpu.sp + 2 ∧ (next host s).2.cpu.pc = s.2.top := by
  obtain ⟨guard, board⟩ := s
  -- the guard trusts what shows, so the fetch is one call and one return
  obtain ⟨token, hknown, hshows⟩ := h.knows
  have htrusts : Trusts guard.token board token := ⟨hshows, .inl hknown⟩
  have hfetch := fetch_of_trusts ⟨host, board⟩ .findFirst h.pc htrusts
  have hcall : guard.drive.call host .findFirst board =
      (guard.drive, .noDirectory, Reply.noDirectory.deliver board) := by
    refine Drive.visit_findFirst_of_not_takes (v := ⟨host, .findFirst, board⟩) rfl ?_
    rintro found ⟨-, directory, _, hresolve, -, -⟩
    rw [Host.resolve, h.missing] at hresolve
    exact nomatch hresolve
  have hnext : next host (guard, board) =
      (⟨guard.drive, some token⟩, Guest.forceReturn (Reply.noDirectory.deliver board)) := by
    unfold next
    rw [hfetch, hcall]
  rw [hnext]
  exact ⟨rfl, rfl, rfl, rfl⟩

theorem Pinned.next {s : Guard × Board} (h : Pinned host s) : Pinned host (next host s) := by
  obtain ⟨hdrive, hbus, hsp, hpc⟩ := next_of_pinned h
  obtain ⟨token, hknows⟩ := h.knows
  have hread : ∀ a, (Guard.next host s).2.readWord a = s.2.readWord a := fun a => by
    simp only [Z80.State.readWord, hbus]
  refine ⟨⟨token, hknows.next⟩, ?_, ?_, fun n => ?_⟩
  · rw [hdrive, h.missing]
  · rw [hpc, Z80.State.top]
    simpa using h.stack 0
  · -- the words on the stack are the same, seen from one word further
    have hnext : s.2.cpu.sp + 2 + UInt16.ofNat (2 * n) =
        s.2.cpu.sp + UInt16.ofNat (2 * (n + 1)) := by
      rw [Nat.mul_succ, Nat.add_comm, UInt16.ofNat_add, UInt16.add_assoc]
      rfl
    rw [hread, hsp, hnext, h.stack]

theorem Pinned.afterFetches {s : Guard × Board} (h : Pinned host s) (n : Nat) :
    Pinned host (afterFetches host n s) := by
  induction n generalizing s with
  | zero => exact h
  | succ n ih => exact ih h.next

end Guard

namespace Run

/-- A run whose drive calls itself is kept busy. -/
theorem keptBusy_of_pinned {run : Run} {guard : Guard} (hlt : run.executed < limit)
    (hguard : run.guard = some guard) (h : Guard.Pinned host (guard, run.board)) :
    run.KeptBusy host limit := by
  have hpc : ∀ n, (Guard.afterFetches host n (guard, run.board)).2.cpu.pc ∈ entryAddresses := by
    intro n
    rw [(h.afterFetches n).pc]
    decide
  obtain ⟨token, hknows⟩ := h.knows
  exact ⟨hlt, guard, hguard, hknows.services (hpc 0), hpc⟩

/-- A byte of zero is an instruction that does nothing. -/
theorem next_of_zero {b : Board} (hzero : b.bus.read b.cpu.pc = 0) : b.next = ⟨.nop, 1, 4, 1⟩ := by
  have hbyte : Z80.Bus.read b.bus (b.cpu.pc + UInt16.ofNat 0) = 0 := by
    rw [show b.cpu.pc + UInt16.ofNat 0 = b.cpu.pc from UInt16.add_zero _]
    exact hzero
  unfold Z80.State.next Z80.decode
  simp only [hbyte]
  rfl

/-- It takes four cycles, leaves memory alone, and goes on. -/
theorem step_of_zero {b : Board} (hzero : b.bus.read b.cpu.pc = 0) :
    b.step.2 = 4 ∧ b.step.1.bus = b.bus ∧ b.step.1.cpu.halted = b.cpu.halted := by
  unfold Z80.State.step
  simp only [next_of_zero hzero]
  exact ⟨rfl, rfl, rfl⟩

/-- With one instruction left, such a byte uses it up and ends the run. -/
theorem finish?_of_zero {run : Run} (hlast : run.executed + 1 = limit)
    (hgoes : run.board.cpu.halted = false) (hnot : ¬ run.IsAnswered host)
    (hzero : run.board.bus.read run.board.cpu.pc = 0) :
    ∃ last, run.finish? host limit = some (last, .instructionLimit) ∧
      last.board.bus = run.board.bus ∧ last.guard = run.guard ∧ last.serviced = run.serviced := by
  obtain ⟨-, hbus, hhalted⟩ := step_of_zero hzero
  have hstays : run.execute.board.cpu.halted = false := hhalted.trans hgoes
  have hturn : run.turn host limit = (run.execute, none) := by
    rw [turn_of_not_answered (Nat.lt_of_succ_le (Nat.le_of_eq hlast)) hnot, executeOrStop]
    simp only [hstays, Bool.false_eq_true, if_false]
  have hlimit : run.execute.turn host limit = (run.execute, some .instructionLimit) :=
    turn_of_limit (Nat.le_of_eq hlast.symm)
  refine ⟨run.execute, ?_, hbus, rfl, rfl⟩
  rw [finish?_of_reaches (.turn hturn (.here _)), finish?, hlimit]

end Run

/-! ## Section 2: Runs of a machine -/

namespace Machine

open Run

/-- The outcome of a run of the machine is the outcome of the turns that it starts. -/
theorem run?_eq_some {host : Host} {m m' : Machine} {address : UInt16} {exit : Exit}
    (h : m.run? host address = some (m', exit)) :
    ∃ last, (m.start address).finish? host m.limit = some (last, exit.reason) ∧
      m'.board = last.board ∧ m'.guard = last.guard ∧ exit.serviced = last.serviced := by
  unfold run? at h
  cases hfinish : (m.start address).finish? host m.limit with
  | none => simp only [hfinish] at h; exact nomatch h
  | some outcome =>
    obtain ⟨last, reason⟩ := outcome
    simp only [hfinish] at h
    obtain ⟨rfl, rfl⟩ := Prod.mk.inj (Option.some.inj h)
    exact ⟨last, rfl, rfl, rfl, rfl⟩

theorem run?_of_finish? {m : Machine} {address : UInt16} {last : Run} {reason : StopReason}
    (h : (m.start address).finish? host m.limit = some (last, reason)) :
    m.run? host address = some
      (⟨last.board, last.clock, last.guard, m.limit, m.nextDevice⟩,
        ⟨reason, cyclesOf last.clock, last.board.cpu.pc, last.serviced⟩) := by
  unfold run?
  simp only [h]

theorem exists_run?_iff {host : Host} {m : Machine} {address : UInt16} :
    (∃ outcome, m.run? host address = some outcome) ↔
      ∃ outcome, (m.start address).finish? host m.limit = some outcome := by
  unfold run?
  cases hfinish : (m.start address).finish? host m.limit with
  | none => simp [hfinish]
  | some outcome => simp [hfinish]

/-- A run that starts kept busy never ends. -/
theorem run?_eq_none {m : Machine} {address : UInt16}
    (h : (m.start address).KeptBusy host m.limit) : m.run? host address = none := by
  unfold run?
  simp only [h.finish?_eq_none]

/-- A machine under a new guard that may execute one instruction: a call makes the guard know what
    shows, and changes no memory. What it returns to uses up the limit. -/
theorem run?_alloc (host : Host) (m : Machine) {drive : Drive} {token : Token}
    (hguard : m.guard = some ⟨drive, none⟩) (hlimit : m.limit = 1)
    (hshows : Shows m.board token) (hsigned : Signed m.board)
    (hstack : m.board.readWord stackTop = 0) (hzero : m.board.bus.read 0 = 0) :
    ∃ m' exit, m.run? host 0x4020 = some (m', exit) ∧ m'.guard = some ⟨drive, some token⟩ ∧
      m'.board.bus = m.board.bus ∧ m'.limit = 1 ∧ exit.reason = .instructionLimit ∧
      exit.serviced = #[⟨.alloc, .ok⟩] := by
  -- turn one: the call is answered and returns to address zero
  let started := m.start 0x4020
  have htrusts : Trusts (Guard.mk drive none).token started.board token :=
    ⟨hshows, .inr ⟨rfl, hsigned⟩⟩
  have hfetch := Guard.fetch_of_trusts ⟨host, started.board⟩ .alloc rfl htrusts
  let called := started.answered ⟨drive, none⟩ host ⟨.alloc, .ok⟩
  have hturn : started.turn host 1 = (called, none) :=
    turn_of_services Nat.zero_lt_one hguard (congrArg (·.2.1) hfetch)
  have hboard : called.board = Guest.forceReturn (Reply.grant.deliver started.board) :=
    congrArg (·.2.2) hfetch
  have hknown : called.guard = some ⟨drive, some token⟩ := by
    show some (Guard.fetch ⟨drive, none⟩ ⟨host, started.board⟩).1 = _
    rw [hfetch]
    rfl
  have hbus : called.board.bus = m.board.bus := by
    rw [hboard]
    rfl
  have hpc : called.board.cpu.pc = 0 := by
    rw [hboard]
    exact hstack
  have hgoes : called.board.cpu.halted = false := by
    rw [hboard]
    rfl
  -- turn two: nothing is called there, and the zero byte is an instruction
  have hnot : ¬ called.IsAnswered host := by
    rintro ⟨guard, -, hservices⟩
    have hmem : called.board.cpu.pc ∈ entryAddresses := (Guard.services_iff.mp hservices).1
    rw [hpc] at hmem
    exact absurd hmem (by decide)
  have hlast : called.executed + 1 = 1 := rfl
  obtain ⟨last, hfinish, hbus', hguard', hserviced⟩ :=
    finish?_of_zero hlast hgoes hnot (by rw [hbus, hpc, hzero])
  have hend : started.finish? host m.limit = some (last, .instructionLimit) := by
    rw [hlimit, finish?_of_reaches (.turn hturn (.here called)), hfinish]
  exact ⟨_, _, run?_of_finish? hend, hguard'.trans hknown, hbus'.trans hbus, hlimit, rfl, hserviced⟩

end Machine

/-! ## Section 3: Memory full of calls -/

namespace MemoryMap

/-- A new map with the driver module in its segment 2. -/
def installed : MemoryMap := (new 4).modifySegment 2 Machine.withDriver

theorem installed_shows :
    installed.deviceInPage 1 = some firstDevice ∧
      installed.blockInPage firstDevice 1 = some 2 := by
  have hlayout : (new 4).SameLayout installed := .modifySegment _ _ _
  rw [hlayout.deviceInPage, hlayout.blockInPage]
  decide

/-- The other pages are still empty. -/
theorem read_installed {a : UInt16} (hpage : pageOf a = 0 ∨ pageOf a = 3) :
    installed.read a = 0 := by
  have hother : (new 4).showsMapper (pageOf a) = true ∧
      ¬ 2 = ((new 4).segmentOf (pageOf a)).val := by
    rcases hpage with h | h <;> rw [h] <;> decide
  rw [installed, read_modifySegment _ _ hother.1 (segments_new 4 _), if_neg hother.2, read_new]

/-- The bytes of a segment in which every word is the address of find-first. -/
def callingImage : List UInt8 :=
  (List.range pageSize).map fun i => if i % 2 = 0 then 0x23 else 0x40

theorem length_callingImage : callingImage.length = pageSize := by
  rw [callingImage, List.length_map, List.length_range]

/-- The map with that image in place of the driver module and in all its pages. -/
def calling : MemoryMap :=
  { installed.modifySegment 2 fun s => Machine.fillSegment s 0 callingImage with
    selected := #v[2, 2, 2, 2] }

/-- Its pages are those of a new map that selects segment 2 everywhere. -/
theorem sameLayout_calling : SameLayout { new 4 with selected := #v[2, 2, 2, 2] } calling where
  mapper := rfl
  size := Array.size_modify.trans Array.size_modify
  selected := rfl
  slotSelect := rfl
  roms := rfl

theorem calling_shows :
    calling.deviceInPage 1 = some firstDevice ∧ calling.blockInPage firstDevice 1 = some 2 := by
  rw [sameLayout_calling.deviceInPage, sameLayout_calling.blockInPage]
  decide

/-- The image shows in every page. -/
theorem read_calling (a : UInt16) :
    calling.read a = if a.toNat % 2 = 0 then 0x23 else 0x40 := by
  have hpages : ∀ page : Page, calling.showsMapper page = true ∧
      (calling.segmentOf page).val = 2 := by
    intro page
    rw [sameLayout_calling.showsMapper, sameLayout_calling.segmentOf]
    revert page
    decide
  have hsize : 2 < installed.segments.size := by
    rw [installed, (SameLayout.modifySegment ..).size]
    decide
  have hsegment : calling.segments[(calling.segmentOf (pageOf a)).val]? =
      some (Machine.fillSegment installed.segments[2] 0 callingImage) := by
    have hsegments : calling.segments =
        (installed.modifySegment 2 fun s => Machine.fillSegment s 0 callingImage).segments := rfl
    rw [(hpages _).2, hsegments, getElem?_segments_modifySegment, if_pos rfl,
      Array.getElem?_eq_getElem hsize]
    rfl
  have hoffset : (offsetOf a).val < pageSize := (offsetOf a).isLt
  rw [read_eq (hpages _).1 hsegment]
  show (Machine.fillSegment installed.segments[2] 0 callingImage)[(offsetOf a).val] = _
  rw [Machine.getElem_fillSegment, if_pos (Nat.zero_le _), callingImage, List.getElem?_map,
    Nat.sub_zero, List.getElem?_range hoffset]
  have hparity : (offsetOf a).val % 2 = a.toNat % 2 :=
    Nat.mod_mod_of_dvd _ (by decide)
  simp only [Option.map_some, Option.getD_some, hparity]

end MemoryMap

/-- In such memory every even address holds the address of find-first. -/
theorem Board.readWord_calling {b : Board} (hbus : b.bus = MemoryMap.calling) (a : UInt16)
    (heven : a.toNat % 2 = 0) : b.readWord a = 0x4023 := by
  have hodd : ¬ (a + 1).toNat % 2 = 0 := by
    rw [UInt16.toNat_add]
    simp only [UInt16.reduceToNat]
    omega
  show Bytes.word (b.bus.read a) (b.bus.read (a + 1)) = _
  rw [hbus, MemoryMap.read_calling, MemoryMap.read_calling, if_pos heven, if_neg hodd]
  rfl

/-! ## Section 4: When a run ends -/

namespace Machine

/-- **When a run ends, and how.** A run of a machine ends exactly when it never comes by a state in
    which the drive is kept busy: instructions are left, a call is answered, and every return
    address that this call and the later ones pop is an entry point. A run that ends was stopped by
    a halt, or because all its instructions were used up, and never executed more than those. -/
theorem run_ends_iff (host : Host) (m : Machine) (address : UInt16) :
    ((∃ outcome, m.run? host address = some outcome) ↔
      ∀ run, Run.Reaches host m.limit (m.start address) run → ¬ run.KeptBusy host m.limit) ∧
    ∀ m' exit, m.run? host address = some (m', exit) →
      ∃ last, (m.start address).finish? host m.limit = some (last, exit.reason) ∧
        m'.board = last.board ∧ exit.serviced = last.serviced ∧ last.executed ≤ m.limit ∧
        (exit.reason = .halt → m'.board.cpu.halted = true) ∧
        (exit.reason = .instructionLimit → last.executed = m.limit) := by
  constructor
  · rw [exists_run?_iff]
    constructor
    · rintro ⟨outcome, houtcome⟩ run hreaches hbusy
      rw [Run.finish?_of_reaches hreaches, hbusy.finish?_eq_none] at houtcome
      exact nomatch houtcome
    · exact Run.exists_finish?_of_not_keptBusy
  · intro m' exit hrun
    obtain ⟨last, hfinish, hboard, -, hserviced⟩ := run?_eq_some hrun
    obtain ⟨before, hreaches, hstop⟩ := Run.finish?_eq_some_iff.mp hfinish
    have hbound : before.executed ≤ m.limit := hreaches.executed_le.2 (Nat.zero_le _)
    refine ⟨last, hfinish, hboard, hserviced, ?_⟩
    obtain ⟨hreason, hhalted, hlt, hexecuted⟩ | ⟨hreason, rfl, hlimit⟩ := Run.turn_stops hstop
    · rw [hreason, hboard, hexecuted]
      exact ⟨hlt, fun _ => hhalted, nofun⟩
    · rw [hreason]
      exact ⟨hbound, nofun, fun _ => Nat.le_antisymm hbound hlimit⟩

/-- A new machine with the driver module in segment 2 and one instruction to execute: the first call
    tells the guard where the module shows, and nothing else changes. -/
theorem run?_installed (host : Host) (drive : Drive) :
    let m : Machine := { (Machine.new 4).attach ⟨drive, none⟩ with limit := 1 }
    ∃ m₁ m₂ exit, m.installDriver 2 = .ok m₁ ∧ m₁.run? host 0x4020 = some (m₂, exit) ∧
      m₁.limit = 1 ∧ m₂.guard = some ⟨drive, some ⟨firstDevice, 2⟩⟩ ∧
      m₂.board.bus = MemoryMap.installed ∧ m₂.limit = 1 ∧ exit.reason = .instructionLimit ∧
      exit.serviced = #[⟨.alloc, .ok⟩] := by
  intro m
  let m₁ := m.mapBus fun bus => bus.modifySegment 2 withDriver
  have hcount : m.segmentCount = 4 := Array.size_replicate
  have hinstall : m.installDriver 2 = .ok m₁ := installDriver_of_lt (by rw [hcount]; decide)
  have hbus₁ : m₁.board.bus = MemoryMap.installed := rfl
  have hshows : Shows m₁.board ⟨firstDevice, 2⟩ := MemoryMap.installed_shows
  have hsigned : Signed m₁.board := Board.signed_of_withDriver hbus₁
    (MemoryMap.showsMapper_new 4 1) (by decide) (MemoryMap.segments_new 4 1)
  -- the stack is empty, so the call returns to address zero, where a byte of zero ends the run
  have hstack : m₁.board.readWord stackTop = 0 := by
    show Bytes.word (m₁.board.bus.read 0xF000) (m₁.board.bus.read 0xF001) = 0
    rw [hbus₁, MemoryMap.read_installed (.inr (by decide)),
      MemoryMap.read_installed (.inr (by decide))]
    rfl
  obtain ⟨m₂, exit, hrun, hguard, hbus, hends⟩ := run?_alloc host m₁ rfl rfl hshows hsigned hstack
    (MemoryMap.read_installed (.inl (by decide)))
  exact ⟨m₁, m₂, exit, hinstall, hrun, rfl, hguard, hbus.trans hbus₁, hends⟩

/-- **A run without an end.** A first call tells the guard where the driver module shows. Then its
    segment is overwritten and shows everywhere, so each find-first returns to find-first, and a
    limit of one instruction is never used up. -/
theorem find_first_forever :
    let host : Host := ⟨fun _ => false, fun _ => .ok []⟩
    let m : Machine :=
      { (Machine.new 4).attach ⟨Drive.new ⟨"/none"⟩ "L", none⟩ with limit := 1 }
    ∃ m₁ m₂ exit m₃,
      m.installDriver 2 = .ok m₁ ∧
      m₁.run? host 0x4020 = some (m₂, exit) ∧
      m₂.loadSegment 2 0 MemoryMap.callingImage = .ok m₃ ∧
      (((m₃.selectSegment 0 2).selectSegment 2 2).selectSegment 3 2).run? host 0x4023 = none := by
  intro host m
  obtain ⟨m₁, m₂, exit, hinstall, hrun, -, hguard, hbus₂, hlimit, -⟩ :=
    run?_installed host (Drive.new ⟨"/none"⟩ "L")
  -- its segment is overwritten, and the guard still trusts it
  have hload : m₂.loadSegment 2 0 MemoryMap.callingImage = .ok (m₂.mapBus fun bus =>
      bus.modifySegment 2 fun s => fillSegment s 0 MemoryMap.callingImage) := by
    have hfit : 0 + MemoryMap.callingImage.length ≤ pageSize := by
      rw [MemoryMap.length_callingImage, Nat.zero_add]
    have hvalid : (2 : UInt8).toNat < m₂.segmentCount := by
      rw [segmentCount, hbus₂]
      decide
    exact loadSegment_of_lt hfit hvalid
  -- the second run is kept busy from its start
  refine ⟨m₁, m₂, exit, _, hinstall, hrun, hload, run?_eq_none ?_⟩
  obtain ⟨⟨cpu, bus⟩, clock, guard, limit, nextDevice⟩ := m₂
  obtain rfl : bus = MemoryMap.installed := hbus₂
  obtain rfl : limit = 1 := hlimit
  refine Run.keptBusy_of_pinned Nat.zero_lt_one hguard ⟨⟨⟨firstDevice, 2⟩, rfl, ?_⟩, rfl, rfl, ?_⟩
  · exact MemoryMap.calling_shows
  · intro n
    apply Board.readWord_calling rfl
    show (0xF000 + UInt16.ofNat (2 * n)).toNat % 2 = 0
    rw [UInt16.toNat_add, UInt16.toNat_ofNat']
    simp only [UInt16.reduceToNat]
    omega

end Machine

end HostDrive

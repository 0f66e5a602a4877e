import HostDrive.Proofs.Machine.MappedMemory

/-!
# The Clock of a Machine

A machine counts the clock cycles of all its runs in a register of 32 bits, and the outcome of a run
shows that register as a signed number in 64 bits. So outcomes show the cycles of all the
instructions executed so far, but only as long as these fit in 31 bits. Past that the register is
negative, which 64 bits show as an enormous number, and past 32 bits it starts over.

## Architecture

- `shownCycles` is what the register shows of a total, `toNat_cyclesOf` its law.
- `Run.turnCycles` are the cycles of one turn, and `Run.FinishesIn` adds them up along a run.
  `clock_turn` is the step, and `FinishesIn.clock` the run.
- `Machine.History` is a machine with a log of its runs, each with its cycles and its outcome;
  between the runs it is adjusted in any way. `History.clock` says that the register holds the sum
  of the log, and `inUse_iff_exists_history` that every machine in use has a log.
- `exits_show_cycles` puts them together; `clock_runs_backwards` is a machine that comes past both
  bounds.
-/

namespace HostDrive

/-! ## Section 1: The register -/

/-- **What the clock shows** after this many cycles: their lower 32 bits, with the highest of these
    repeated through all the bits above. -/
def shownCycles (total : Nat) : Nat :=
  if total % 4294967296 < 2147483648 then total % 4294967296
  else total % 4294967296 + 18446744069414584320

theorem toNat_cyclesOf (total : Nat) :
    (Machine.cyclesOf (Int32.ofNat total)).toNat = shownCycles total := by
  have hbits : (Machine.cyclesOf (Int32.ofNat total)).toNat =
      ((BitVec.ofNat 32 total).signExtend 64).toNat := rfl
  rw [hbits, BitVec.toNat_signExtend, BitVec.toNat_setWidth, BitVec.msb_eq_decide,
    BitVec.toNat_ofNat, shownCycles]
  simp only [decide_eq_true_eq, Nat.reducePow, Nat.reduceSub]
  split <;> split <;> omega

/-- A total of 31 bits is shown as it is. -/
theorem shownCycles_of_lt {total : Nat} (h : total < 2147483648) : shownCycles total = total := by
  unfold shownCycles
  rw [Nat.mod_eq_of_lt (by omega), if_pos h]

/-- A larger one is not, unless it is so large that 64 bits could not count it without a sign. -/
theorem shownCycles_ne_of_le {total : Nat} (h : 2147483648 ≤ total)
    (hlt : total < 9223372036854775808) : shownCycles total ≠ total := by
  unfold shownCycles
  split <;> omega

namespace Run

variable {host : Host} {limit : Nat}

/-! ## Section 2: The cycles of a run -/

/-- **The cycles of a turn**: those of the instruction that it executes, if it executes one. -/
def turnCycles (host : Host) (limit : Nat) (run : Run) : Nat :=
  if (run.turn host limit).1.executed = run.executed then 0 else run.board.step.2

/-- A turn that executes nothing takes no time. -/
theorem turnCycles_eq_zero {run next : Run} {reason? : Option StopReason}
    (hturn : run.turn host limit = (next, reason?)) (hnone : next.executed = run.executed) :
    run.turnCycles host limit = 0 := by
  rw [turnCycles, hturn]
  exact if_pos hnone

theorem turnCycles_of_execute {run : Run} (hturn : run.turn host limit = run.executeOrStop) :
    run.turnCycles host limit = run.board.step.2 := by
  rw [turnCycles, hturn, run.executeOrStop_cases.1]
  exact if_neg (Nat.succ_ne_self _)

/-- **The step**: a turn adds its cycles to the clock. Only a turn that executes an instruction has
    any. -/
theorem clock_turn (host : Host) (limit : Nat) (run : Run) :
    (run.turn host limit).1.clock = run.clock + Int32.ofNat (run.turnCycles host limit) := by
  obtain ⟨-, hturn⟩ | ⟨-, guard, service, -, -, hturn⟩ | ⟨-, -, hturn⟩ := turn_cases host limit run
  · rw [turnCycles_eq_zero hturn rfl, hturn]
    exact (Int32.add_zero _).symm
  · rw [turnCycles_eq_zero hturn rfl, hturn]
    exact (Int32.add_zero _).symm
  · rw [turnCycles_of_execute hturn, hturn]
    rfl

/-- **Finishing in some cycles**: the run ends like this, and its turns take so many cycles. -/
inductive FinishesIn (host : Host) (limit : Nat) : Run → Nat → Run → StopReason → Prop where
  | stop {run last : Run} {reason : StopReason} (hturn : run.turn host limit = (last, some reason)) :
      FinishesIn host limit run (run.turnCycles host limit) last reason
  | turn {run next last : Run} {reason : StopReason} {cycles : Nat}
      (hturn : run.turn host limit = (next, none))
      (hrest : FinishesIn host limit next cycles last reason) :
      FinishesIn host limit run (run.turnCycles host limit + cycles) last reason

variable {run last : Run} {reason : StopReason} {cycles : Nat}

/-- **The run** adds the cycles of all its turns to the clock. -/
theorem FinishesIn.clock (h : FinishesIn host limit run cycles last reason) :
    last.clock = run.clock + Int32.ofNat cycles := by
  induction h with
  | @stop run last reason hturn =>
    have hclock := clock_turn host limit run
    rw [hturn] at hclock
    exact hclock
  | @turn run next last reason cycles hturn _ ih =>
    have hclock := clock_turn host limit run
    rw [hturn] at hclock
    rw [ih, hclock, Int32.ofNat_add, Int32.add_assoc]

theorem FinishesIn.finish?_eq (h : FinishesIn host limit run cycles last reason) :
    run.finish? host limit = some (last, reason) := by
  induction h with
  | stop hturn => rw [finish?, hturn]
  | turn hturn _ ih => rwa [finish?, hturn]

/-- What a run does is settled turn by turn, and so are its cycles. -/
theorem FinishesIn.unique {last' : Run} {reason' : StopReason} {cycles' : Nat}
    (h : FinishesIn host limit run cycles last reason)
    (h' : FinishesIn host limit run cycles' last' reason') : cycles = cycles' := by
  induction h generalizing cycles' with
  | stop hturn =>
    cases h' with
    | stop _ => rfl
    | turn hturn' _ => exact nomatch (Prod.mk.inj (hturn.symm.trans hturn')).2
  | turn hturn _ ih =>
    cases h' with
    | stop hturn' => exact nomatch (Prod.mk.inj (hturn.symm.trans hturn')).2
    | turn hturn' hrest =>
      obtain ⟨rfl, -⟩ := Prod.mk.inj (hturn.symm.trans hturn')
      rw [ih hrest]

/-- A run that comes by a turn that stops it finishes in the cycles of the turns until then. -/
theorem Reaches.exists_finishesIn {before : Run} (h : Reaches host limit run before)
    (hstop : before.turn host limit = (last, some reason)) :
    ∃ cycles, FinishesIn host limit run cycles last reason := by
  induction h with
  | here => exact ⟨_, .stop hstop⟩
  | turn hturn _ ih =>
    obtain ⟨cycles, hrest⟩ := ih hstop
    exact ⟨_, .turn hturn hrest⟩

/-- **Every run that ends** finishes in some number of cycles, and only in one. -/
theorem existsUnique_finishesIn (h : run.finish? host limit = some (last, reason)) :
    ∃! cycles, FinishesIn host limit run cycles last reason := by
  obtain ⟨before, hreaches, hstop⟩ := finish?_eq_some_iff.mp h
  obtain ⟨cycles, hcycles⟩ := hreaches.exists_finishesIn hstop
  exact ⟨cycles, hcycles, fun _ hother => hother.unique hcycles⟩

end Run

namespace Machine

/-! ## Section 3: Machines with a log of their runs -/

/-- **A change of a machine** from outside. -/
inductive Adjustment where
  | attach (guard : Guard)
  | setLimit (limit : Nat)
  | installDriver (segment : UInt8)
  | loadSegment (segment : UInt8) (offset : Nat) (data : List UInt8)
  | insertRom (slot : UInt8) (image : List UInt8)
  | selectPage1Slot (slot : UInt8)
  | selectSegment (page : Page) (segment : UInt8)
  | poke (address : UInt16) (b : UInt8)
  | load (address : UInt16) (data : List UInt8)
  | writeText (address : UInt16) (s : String)

/-- The machine that a change leaves, whether it was granted or refused. -/
def adjust (m : Machine) : Adjustment → Machine
  | .attach guard => m.attach guard
  | .setLimit limit => { m with limit := limit }
  | .installDriver segment => ((Request.installDriver segment).carryOut m).2
  | .loadSegment segment offset data => ((Request.loadSegment segment offset data).carryOut m).2
  | .insertRom slot image => ((Request.insertRom slot image).carryOut m).2
  | .selectPage1Slot slot => m.selectPage1Slot slot
  | .selectSegment page segment => m.selectSegment page segment
  | .poke address b => m.poke address b
  | .load address data => m.load address data
  | .writeText address s => m.writeText address s

/-- **A way to run a machine**: from an address on, with a program, or for a call of a routine. -/
inductive Launch where
  | run (address : UInt16)
  | program (p : Program)
  | call (entry : EntryPoint) (arguments : List (ArgumentPair × UInt16))

def launch? (host : Host) (m : Machine) : Launch → Option (Machine × Exit)
  | .run address => m.run? host address
  | .program p => m.runProgram? host p
  | .call entry arguments => m.callEntry? host entry arguments

/-- The machine with the program of a launch in its memory. -/
def prepared (m : Machine) : Launch → Machine
  | .run _ => m
  | .program p => m.load programAddress p.code
  | .call entry arguments => m.load programAddress (callProgram entry arguments).code

/-- Where a launch starts. -/
def Launch.address : Launch → UInt16
  | run address => address
  | program _ | call _ _ => programAddress

theorem launch?_eq (host : Host) (m : Machine) (l : Launch) :
    m.launch? host l = (m.prepared l).run? host l.address := by
  cases l <;> rfl

/-- **A launch that ends**, with the cycles of the instructions that it executes. -/
structure EndsIn (host : Host) (m : Machine) (l : Launch) (cycles : Nat) (exit : Exit)
    (m' : Machine) : Prop where
  launch : m.launch? host l = some (m', exit)
  finishes : ∃ last,
    ((m.prepared l).start l.address).FinishesIn host (m.prepared l).limit cycles last exit.reason

/-- A launch that ended, as it is logged. -/
structure Ended where
  cycles : Nat
  exit : Exit

/-- **A machine in use, with the log of its launches**: made with this many segments, then adjusted
    and launched in any order. -/
inductive History (segments : Nat) : List Ended → Machine → Prop where
  | new (device : DeviceId) : History segments [] (new segments device)
  | adjust {log : List Ended} {m : Machine} (h : History segments log m) (a : Adjustment) :
      History segments log (m.adjust a)
  | launch {log : List Ended} {m m' : Machine} {host : Host} {l : Launch} {cycles : Nat}
      {exit : Exit} (h : History segments log m) (hends : m.EndsIn host l cycles exit m') :
      History segments (log ++ [⟨cycles, exit⟩]) m'

/-- The cycles of all the launches of a log. -/
def spent : List Ended → Nat
  | [] => 0
  | ended :: log => ended.cycles + spent log

theorem spent_append (log log' : List Ended) : spent (log ++ log') = spent log + spent log' := by
  induction log with
  | nil => exact (Nat.zero_add _).symm
  | cons ended log ih => rw [List.cons_append, spent, spent, ih, Nat.add_assoc]

/-! ## Section 4: The register along a history -/

theorem clock_load (m : Machine) (address : UInt16) (data : List UInt8) :
    (m.load address data).clock = m.clock := by
  rw [load_eq]

/-- Nothing that is done from outside takes time. -/
theorem clock_adjust (m : Machine) (a : Adjustment) : (m.adjust a).clock = m.clock := by
  cases a with
  | attach | setLimit | selectPage1Slot | selectSegment | poke => rfl
  | load address data => exact clock_load m address data
  | writeText address s => exact clock_load m address _
  | installDriver segment =>
    rw [adjust, Request.carryOut_installDriver]
    split <;> rfl
  | loadSegment segment offset data =>
    rw [adjust, Request.carryOut_loadSegment]
    split
    · rfl
    · split <;> rfl
  | insertRom slot image =>
    rw [adjust, Request.carryOut_insertRom]
    split
    · rfl
    · split <;> rfl

theorem clock_prepared (m : Machine) (l : Launch) : (m.prepared l).clock = m.clock := by
  cases l with
  | run => rfl
  | program | call => exact clock_load m _ _

variable {host : Host} {segments : Nat} {m m' : Machine} {l : Launch} {cycles : Nat} {exit : Exit}

/-- A launch adds its cycles to the clock, and its outcome shows the clock. -/
theorem EndsIn.clock (h : m.EndsIn host l cycles exit m') :
    m'.clock = m.clock + Int32.ofNat cycles ∧ exit.cycles = cyclesOf m'.clock := by
  obtain ⟨hlaunch, last, hfinishes⟩ := h
  rw [launch?_eq, run?_of_finish? hfinishes.finish?_eq] at hlaunch
  obtain ⟨rfl, hexit⟩ := Prod.mk.inj (Option.some.inj hlaunch)
  refine ⟨?_, (congrArg Exit.cycles hexit).symm⟩
  have hstart : ((m.prepared l).start l.address).clock = m.clock := clock_prepared m l
  rw [← hstart]
  exact hfinishes.clock

/-- The same, in the cycles of the machine so far. -/
theorem EndsIn.shows (h : m.EndsIn host l cycles exit m') {total : Nat}
    (htotal : m.clock = Int32.ofNat total) :
    m'.clock = Int32.ofNat (total + cycles) ∧
      exit.cycles.toNat = shownCycles (total + cycles) := by
  obtain ⟨hclock, hshown⟩ := h.clock
  rw [htotal, ← Int32.ofNat_add] at hclock
  rw [hshown, hclock]
  exact ⟨rfl, toNat_cyclesOf _⟩

/-- **Every launch that ends** ends in some number of cycles, and only in one. -/
theorem existsUnique_endsIn (h : m.launch? host l = some (m', exit)) :
    ∃! cycles, m.EndsIn host l cycles exit m' := by
  obtain ⟨last, hfinish, -⟩ := run?_eq_some ((launch?_eq host m l).symm.trans h)
  obtain ⟨cycles, hcycles, hunique⟩ := Run.existsUnique_finishesIn hfinish
  refine ⟨cycles, ⟨h, last, hcycles⟩, fun other hother => ?_⟩
  obtain ⟨-, last', hother⟩ := hother
  exact hother.unique hcycles

/-- **The register holds the sum of the log.** -/
theorem History.clock {log : List Ended} (h : History segments log m) :
    m.clock = Int32.ofNat (spent log) := by
  induction h with
  | new => rfl
  | adjust _ a ih => rw [clock_adjust, ih]
  | launch _ hends ih =>
    rw [(hends.shows ih).1, spent_append]
    rfl

/-- Every outcome in a log shows the cycles up to it. -/
theorem History.shows {log : List Ended} (h : History segments log m) {earlier later : List Ended}
    {ended : Ended} (hlog : log = earlier ++ ended :: later) :
    ended.exit.cycles.toNat = shownCycles (spent earlier + ended.cycles) := by
  induction h generalizing later with
  | new => exact absurd hlog (by simp)
  | adjust _ _ ih => exact ih hlog
  | @launch log m m' host l cycles exit hbefore hends ih =>
    -- either it is the last one, or it was in the log already
    rcases List.eq_nil_or_concat later with rfl | ⟨between, last, rfl⟩
    · obtain ⟨rfl, hended⟩ := List.append_inj' hlog rfl
      obtain rfl := List.cons.inj hended |>.1
      exact (hends.shows hbefore.clock).2
    · rw [List.concat_eq_append, ← List.cons_append, ← List.append_assoc] at hlog
      exact ih (List.append_inj' hlog rfl).1

/-! ## Section 5: Machines in use -/

theorem InUse.load (h : m.InUse segments) (address : UInt16) (data : List UInt8) :
    (m.load address data).InUse segments := by
  induction data generalizing m address with
  | nil => exact h
  | cons b data ih => exact ih (h.operate (.poke m address b)) (address + 1)

theorem InUse.adjust (h : m.InUse segments) (a : Adjustment) : (m.adjust a).InUse segments := by
  cases a with
  | attach guard => exact h.attach guard
  | setLimit limit => exact h.operate (.setLimit m limit)
  | selectPage1Slot slot => exact h.operate (.selectPage1Slot m slot)
  | selectSegment page segment => exact h.operate (.selectSegment m page segment)
  | poke address b => exact h.operate (.poke m address b)
  | load address data => exact h.load address data
  | writeText address s => exact h.load address _
  -- one that is refused leaves a machine in use as it is
  | installDriver segment =>
    cases hok : m.installDriver segment with
    | error => simpa only [Machine.adjust, left_installDriver, hok] using h
    | ok m' => simpa only [Machine.adjust, left_installDriver, hok] using h.operate (.installDriver hok)
  | loadSegment segment offset data =>
    cases hok : m.loadSegment segment offset data with
    | error => simpa only [Machine.adjust, left_loadSegment, hok] using h
    | ok m' => simpa only [Machine.adjust, left_loadSegment, hok] using h.operate (.loadSegment hok)
  | insertRom slot image =>
    cases hok : m.insertRom slot image with
    | error => simpa only [Machine.adjust, left_insertRom, hok] using h
    | ok inserted => simpa only [Machine.adjust, left_insertRom, hok] using h.operate (.insertRom hok)

theorem InUse.endsIn (h : m.InUse segments) (hends : m.EndsIn host l cycles exit m') :
    m'.InUse segments := by
  have hprepared : (m.prepared l).InUse segments := by
    cases l with
    | run => exact h
    | program | call => exact h.load programAddress _
  exact hprepared.operate (.run ((launch?_eq host m l).symm.trans hends.launch))

/-- Every operation on a machine can be logged. -/
theorem History.operates {log : List Ended} (h : History segments log m) (hop : m.Operates m') :
    ∃ log', History segments log' m' := by
  cases hop with
  | selectPage1Slot slot => exact ⟨log, h.adjust (.selectPage1Slot slot)⟩
  | selectSegment page segment => exact ⟨log, h.adjust (.selectSegment page segment)⟩
  | poke address b => exact ⟨log, h.adjust (.poke address b)⟩
  | setLimit limit => exact ⟨log, h.adjust (.setLimit limit)⟩
  | @installDriver _ segment hok =>
    refine ⟨log, ?_⟩
    simpa only [Machine.adjust, left_installDriver, hok] using h.adjust (.installDriver segment)
  | @loadSegment _ segment offset data hok =>
    refine ⟨log, ?_⟩
    simpa only [Machine.adjust, left_loadSegment, hok] using h.adjust (.loadSegment segment offset data)
  | @insertRom _ slot image device hok =>
    refine ⟨log, ?_⟩
    simpa only [Machine.adjust, left_insertRom, hok] using h.adjust (.insertRom slot image)
  | @run _ host address exit hrun =>
    have hlaunch : m.launch? host (.run address) = some (m', exit) := hrun
    obtain ⟨cycles, hends, -⟩ := existsUnique_endsIn hlaunch
    exact ⟨_, h.launch hends⟩

/-- **The machines with a log are those in use.** -/
theorem inUse_iff_exists_history : m.InUse segments ↔ ∃ log, History segments log m := by
  constructor
  · intro h
    induction h with
    | new device => exact ⟨[], .new device⟩
    | attach _ guard ih =>
      obtain ⟨log, hlog⟩ := ih
      exact ⟨log, hlog.adjust (.attach guard)⟩
    | operate _ hop ih =>
      obtain ⟨log, hlog⟩ := ih
      exact hlog.operates hop
  · rintro ⟨log, hlog⟩
    induction hlog with
    | new device => exact .new device
    | adjust _ a ih => exact ih.adjust a
    | launch _ hends ih => exact ih.endsIn hends

end Machine

/-! ## Section 6: Idle machines -/

/-- **Idle**: no guard, and nothing but zero bytes in memory. -/
structure Run.Idle (run : Run) : Prop where
  guard : run.guard = none
  empty : ∀ a, run.board.bus.read a = 0
  halted : run.board.cpu.halted = false

namespace Run

variable {limit : Nat} {run : Run}

/-- The next zero byte is executed, in four cycles. -/
theorem Idle.turn (h : run.Idle) (host : Host) (hlt : run.executed < limit) :
    run.turn host limit = (run.execute, none) ∧ run.turnCycles host limit = 4 ∧
      run.execute.Idle := by
  obtain ⟨hcycles, hbus, hhalted⟩ := step_of_zero (h.empty run.board.cpu.pc)
  have hgoes : run.execute.board.cpu.halted = false := hhalted.trans h.halted
  have hturn : run.turn host limit = run.executeOrStop := turn_of_unguarded hlt h.guard
  have hempty : ∀ a, run.execute.board.bus.read a = 0 :=
    fun a => (congrArg (MemoryMap.read · a) hbus).trans (h.empty a)
  refine ⟨?_, (turnCycles_of_execute hturn).trans hcycles, h.guard, hempty, hgoes⟩
  rw [hturn, executeOrStop]
  simp only [hgoes, Bool.false_eq_true, if_false]

/-- An idle run uses up the instructions that are left, in four cycles each. -/
theorem Idle.finishesIn {left : Nat} (h : run.Idle) (host : Host)
    (hleft : run.executed + left = limit) :
    ∃ last, FinishesIn host limit run (4 * left) last .instructionLimit ∧ last.Idle := by
  induction left generalizing run with
  | zero =>
    have hturn : run.turn host limit = (run, some .instructionLimit) :=
      turn_of_limit (Nat.le_of_eq hleft.symm)
    have hstop := FinishesIn.stop hturn
    rw [turnCycles_eq_zero hturn rfl] at hstop
    exact ⟨run, hstop, h⟩
  | succ left ih =>
    have hlt : run.executed < limit := by omega
    obtain ⟨hturn, hcycles, hidle⟩ := h.turn host hlt
    have hcount : run.execute.executed = run.executed + 1 := rfl
    obtain ⟨last, hrest, hlast⟩ := ih hidle (by omega)
    -- one turn of four cycles, and then the others
    have hall := FinishesIn.turn hturn hrest
    rw [hcycles, Nat.add_comm, ← Nat.mul_succ] at hall
    exact ⟨last, hall, hlast⟩

end Run

namespace Machine

/-- An idle machine, whatever its registers hold: a run resets them. -/
structure Idle (m : Machine) : Prop where
  guard : m.guard = none
  empty : ∀ a, m.board.bus.read a = 0

/-- An idle machine stays idle for a whole run. -/
theorem Idle.exists_endsIn {m : Machine} (h : m.Idle) (host : Host) (address : UInt16) :
    ∃ exit m', m.EndsIn host (.run address) (4 * m.limit) exit m' ∧ m'.Idle ∧
      m'.limit = m.limit := by
  have hstart : (m.start address).Idle := ⟨h.guard, h.empty, rfl⟩
  have hnone : (m.start address).executed + m.limit = m.limit := Nat.zero_add _
  obtain ⟨last, hfinishes, hidle⟩ := hstart.finishesIn host hnone
  exact ⟨_, _, ⟨run?_of_finish? hfinishes.finish?_eq, last, hfinishes⟩, ⟨hidle.guard, hidle.empty⟩,
    rfl⟩

theorem idle_new (segments : Nat) {device : DeviceId} : (new segments device).Idle :=
  ⟨rfl, MemoryMap.read_new segments⟩

/-! ## Section 7: What outcomes show -/

/-- **The clock of a machine.** Whatever was done to a machine, every launch that ends has one number
    of cycles, those of the instructions that it executed. Its outcome shows the sum of these
    numbers up to it, in 32 bits with a sign. So outcomes are further apart by just the cycles in
    between, and a later one never shows less, as long as the sum stays below 2147483648. From there
    on no outcome shows the sum, as far as 63 bits can count it. -/
theorem exits_show_cycles {log : List Ended} (h : History segments log m) :
    (∀ host l m' exit, m.launch? host l = some (m', exit) →
      ∃! cycles, m.EndsIn host l cycles exit m') ∧
    (∀ earlier ended later, log = earlier ++ ended :: later →
      let total := spent earlier + ended.cycles
      ended.exit.cycles.toNat = shownCycles total ∧
      (total < 9223372036854775808 →
        (ended.exit.cycles.toNat = total ↔ total < 2147483648))) ∧
    ∀ earlier first between last later,
      log = earlier ++ first :: (between ++ last :: later) →
      spent earlier + first.cycles + spent between + last.cycles < 2147483648 →
      last.exit.cycles.toNat = first.exit.cycles.toNat + (spent between + last.cycles) := by
  refine ⟨fun host l m' exit => existsUnique_endsIn, ?_, ?_⟩
  · intro earlier ended later hlog total
    have hshown : ended.exit.cycles.toNat = shownCycles total := h.shows hlog
    refine ⟨hshown, fun hlarge => ?_⟩
    rw [hshown]
    constructor
    · intro heq
      exact Nat.lt_of_not_le fun hle => shownCycles_ne_of_le hle hlarge heq
    · exact shownCycles_of_lt
  · intro earlier first between last later hlog hlt
    have hfirst := h.shows hlog
    -- seen from the later outcome, the first one is part of what was before
    rw [← List.cons_append, ← List.append_assoc] at hlog
    have hlast := h.shows hlog
    rw [spent_append, spent] at hlast
    rw [hfirst, hlast, shownCycles_of_lt (by omega), shownCycles_of_lt (by omega)]
    omega

/-- Two runs of one instruction each, of a machine with empty memory. -/
theorem exits_show_cycles_two_runs :
    ∃ first second m, History 4 [⟨4, first⟩, ⟨4, second⟩] m ∧ first.cycles.toNat = 4 ∧
      second.cycles.toNat = first.cycles.toNat + 4 := by
  let host : Host := ⟨fun _ => false, fun _ => .ok []⟩
  have hidle : ((new 4).adjust (.setLimit 1)).Idle := ⟨rfl, (idle_new 4).empty⟩
  obtain ⟨first, m₁, hfirst, hidle₁, hlimit⟩ := hidle.exists_endsIn host 0
  obtain ⟨second, m₂, hsecond, -⟩ := hidle₁.exists_endsIn host 0
  rw [hlimit] at hsecond
  have hlog : History 4 [⟨4, first⟩, ⟨4, second⟩] m₂ :=
    .launch (.launch (.adjust (.new _) (.setLimit 1)) hfirst) hsecond
  obtain ⟨-, hshown, happart⟩ := exits_show_cycles hlog
  have hbound : 0 + 4 + 0 + 4 < 2147483648 := by decide
  refine ⟨first, second, m₂, hlog, ?_, ?_⟩
  · exact (hshown [] ⟨4, first⟩ [⟨4, second⟩] rfl).1
  · exact happart [] ⟨4, first⟩ [] ⟨4, second⟩ [] rfl hbound

/-- **A clock that runs backwards.** A machine with empty memory executes 536870912 instructions, of
    four cycles each, and then as many again. The outcome of the first run shows far more cycles
    than there were, and that of the second shows none. -/
theorem clock_runs_backwards :
    let host : Host := ⟨fun _ => false, fun _ => .ok []⟩
    let m : Machine := { new 4 with limit := 536870912 }
    ∃ first m₁ second m₂,
      m.EndsIn host (.run 0) 2147483648 first m₁ ∧ m₁.EndsIn host (.run 0) 2147483648 second m₂ ∧
      first.cycles.toNat = 18446744071562067968 ∧ second.cycles.toNat = 0 := by
  intro host m
  have hidle : m.Idle := ⟨rfl, (idle_new 4).empty⟩
  obtain ⟨first, m₁, hfirst, hidle₁, hlimit⟩ := hidle.exists_endsIn host 0
  obtain ⟨second, m₂, hsecond, -⟩ := hidle₁.exists_endsIn host 0
  have hcycles : 4 * m.limit = 2147483648 := by decide
  rw [hcycles] at hfirst
  rw [hlimit, hcycles] at hsecond
  have hstart : m.clock = Int32.ofNat 0 := rfl
  obtain ⟨hclock, hshown₁⟩ := hfirst.shows hstart
  obtain ⟨-, hshown₂⟩ := hsecond.shows hclock
  exact ⟨first, m₁, second, m₂, hfirst, hsecond, hshown₁, hshown₂⟩

end Machine

end HostDrive

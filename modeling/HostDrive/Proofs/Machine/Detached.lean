import HostDrive.Proofs.Machine.Reachable

/-!
# Machines Without a Guard

A guard that answers nothing leaves no trace: it looks at the machine before every instruction, and
for a call of a routine it even looks for the driver module, but as long as it does not answer, the
machine goes on as if the guard were not there.

## Architecture

- `Run.detached` and `Machine.detach` take the guard away.
- `Run.turn_detached` is the step: a turn after which nothing is logged is the same turn without the
  guard.
- `Run.Reaches.detached` is the run. The log never shrinks, so a run that ends with an empty log
  had an empty log at every turn.
-/

namespace HostDrive

/-! ## Section 1: One turn -/

namespace Run

variable {host : Host} {limit : Nat}

/-- The run with its guard taken away. -/
def detached (run : Run) : Run := { run with guard := none }

/-- Executing an instruction does not ask the guard, and does not change it. -/
theorem executeOrStop_detached (run : Run) :
    run.detached.executeOrStop = (run.executeOrStop.1.detached, run.executeOrStop.2) ∧
      run.executeOrStop.1.guard = run.guard ∧ run.executeOrStop.1.serviced = run.serviced :=
  ⟨rfl, rfl, rfl⟩

/-- **The step**: a turn after which nothing is logged leaves the guard as it was, and is the same
    turn without the guard, whatever host there is. Nothing was logged before it either. -/
theorem turn_detached {run next : Run} {reason? : Option StopReason}
    (hturn : run.turn host limit = (next, reason?)) (hnone : next.serviced = #[]) (other : Host) :
    run.detached.turn other limit = (next.detached, reason?) ∧ next.guard = run.guard ∧
      run.serviced = #[] := by
  obtain ⟨hlimit, hstop⟩ | ⟨-, _, _, -, -, hanswered⟩ | ⟨hlt, -, hexecute⟩ :=
    turn_cases host limit run
  · obtain ⟨rfl, rfl⟩ := Prod.mk.inj (hstop.symm.trans hturn)
    exact ⟨turn_of_limit hlimit, rfl, hnone⟩
  · -- an answered call would be in the log
    obtain ⟨rfl, -⟩ := Prod.mk.inj (hanswered.symm.trans hturn)
    exact absurd hnone Array.push_ne_empty
  · obtain ⟨hstep, hguard, hserviced⟩ := run.executeOrStop_detached
    rw [hexecute.symm.trans hturn] at hstep hguard hserviced
    have hdetached : run.detached.turn other limit = run.detached.executeOrStop :=
      turn_of_unguarded hlt rfl
    exact ⟨hdetached.trans hstep, hguard, hserviced.symm.trans hnone⟩

/-! ## Section 2: Runs -/

/-- **The run**: as long as nothing is logged, the run without a guard comes by the same states. -/
theorem Reaches.detached {run last : Run} (h : Reaches host limit run last)
    (hnone : last.serviced = #[]) (other : Host) :
    Reaches other limit run.detached last.detached ∧ last.guard = run.guard ∧
      run.serviced = #[] := by
  induction h with
  | here run => exact ⟨.here _, rfl, hnone⟩
  | turn hturn _ ih =>
    obtain ⟨hrest, hguard, hnext⟩ := ih hnone
    obtain ⟨hstep, hkept, hbefore⟩ := turn_detached hturn hnext other
    exact ⟨.turn hstep hrest, hguard.trans hkept, hbefore⟩

/-- A run that ends with nothing logged ends in the same way without its guard. -/
theorem finish?_detached {run last : Run} {reason : StopReason}
    (h : run.finish? host limit = some (last, reason)) (hnone : last.serviced = #[])
    (other : Host) :
    run.detached.finish? other limit = some (last.detached, reason) ∧ last.guard = run.guard := by
  obtain ⟨before, hreaches, hstop⟩ := finish?_eq_some_iff.mp h
  obtain ⟨hstep, hkept, hbefore⟩ := turn_detached hstop hnone other
  obtain ⟨hdetached, hguard, -⟩ := hreaches.detached hbefore other
  exact ⟨finish?_eq_some_iff.mpr ⟨_, hdetached, hstep⟩, hkept.trans hguard⟩

end Run

/-! ## Section 3: Machines -/

namespace Machine

/-- The machine with its guard taken away. -/
def detach (m : Machine) : Machine := { m with guard := none }

/-- **A guard that answers nothing leaves no trace.** If a run of a machine ends and no call was
    answered on the way, then the machine without its guard, on any host, runs to the same outcome:
    the same reason, clock and program counter, the same registers, memory and selection. The guard
    itself is as it was before the run, with its drive and its token. -/
theorem run_without_guard {m m' : Machine} {host : Host} {address : UInt16} {exit : Exit}
    (hrun : m.run? host address = some (m', exit)) (hnone : exit.serviced = #[]) (other : Host) :
    m.detach.run? other address = some (m'.detach, exit) ∧ m'.guard = m.guard := by
  -- both outcomes are read off the last turn of the run
  obtain ⟨last, hfinish, -, -, hserviced⟩ := run?_eq_some hrun
  rw [run?_of_finish? hfinish] at hrun
  obtain ⟨hmachine, hexit⟩ := Prod.mk.inj (Option.some.inj hrun)
  obtain ⟨hdetached, hguard⟩ := Run.finish?_detached hfinish (hserviced.symm.trans hnone) other
  rw [← hmachine, ← hexit]
  exact ⟨run?_of_finish? (m := m.detach) hdetached, hguard⟩

/-- A new machine runs from the address of a routine, with no driver module anywhere. The guard looks
    for the module, finds none, and the run is that of a machine without a guard. -/
theorem run_without_guard_no_module :
    let host : Host := ⟨fun _ => false, fun _ => .ok []⟩
    let m : Machine :=
      { (Machine.new 4).attach ⟨Drive.new ⟨"/none"⟩ "L", none⟩ with limit := 1 }
    ∃ m' exit, m.run? host 0x4020 = some (m', exit) ∧ exit.serviced = #[] ∧
      ∀ other, m.detach.run? other 0x4020 = some (m'.detach, exit) ∧ m'.guard = m.guard := by
  intro host m
  have hempty : ∀ a, m.board.bus.read a = 0 := MemoryMap.read_new 4
  -- no signature shows, so the guard does not answer at the entry point
  have hnot : ¬ (m.start 0x4020).IsAnswered host := by
    rintro ⟨guard, hguard, hservices⟩
    obtain rfl := Option.some.inj hguard
    obtain ⟨-, token, -, hknown | ⟨-, hsigned⟩⟩ := Guard.services_iff.mp hservices
    · exact nomatch hknown
    · have hfirst : m.board.bus.read 0x4000 = 0x46 := (List.cons.inj hsigned).1
      exact absurd ((hempty _).symm.trans hfirst) (by decide)
  have hlast : (m.start 0x4020).executed + 1 = m.limit := rfl
  have hzero : (m.start 0x4020).board.bus.read (m.start 0x4020).board.cpu.pc = 0 := hempty _
  obtain ⟨last, hfinish, -, -, hserviced⟩ := Run.finish?_of_zero hlast rfl hnot hzero
  have hrun := run?_of_finish? hfinish
  exact ⟨_, _, hrun, hserviced, fun other => run_without_guard hrun hserviced other⟩

end Machine

end HostDrive

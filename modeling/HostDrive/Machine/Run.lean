import HostDrive.Machine.Basic
import HostDrive.Machine.Program

/-!
# Running a Machine

A run resets the processor and goes on turn by turn until the processor halts or the instructions
that it may execute are used up. Each turn asks the guard first; a call that the drive answers ends
the turn, takes no time and does not count as an instruction.

So a program can keep the drive busy without ever executing an instruction, and such a run has no
end. That is why the outcome of a run is optional: none stands for a run that never stops.
-/

namespace HostDrive

/-! ## Outcomes -/

/-- Why a run ended. -/
inductive StopReason where
  | halt
  /-- The instructions of the run were used up. -/
  | instructionLimit
  deriving DecidableEq, Repr

/-- A driver call that was answered during a run. -/
structure Service where
  entry : EntryPoint
  status : Status
  deriving DecidableEq, Repr

/-- Outcome of a run. -/
structure Exit where
  reason : StopReason
  /-- The machine's clock, its sign extended to 64 bits. -/
  cycles : UInt64
  pc : UInt16
  /-- The driver calls answered during the run, in order. -/
  serviced : Array Service
  deriving DecidableEq, Repr

/-! ## Turns -/

/-- A run under way. -/
structure Run where
  board : Board
  clock : Int32
  guard : Option Guard
  executed : Nat := 0
  serviced : Array Service := #[]

namespace Run

def execute (run : Run) : Run :=
  let { board, clock, guard, executed, serviced } := run
  let (board, cycles) := board.step
  { board, clock := clock + Int32.ofNat cycles, guard, executed := executed + 1, serviced }

/-- Executes one instruction, and stops if it was a halt. -/
def executeOrStop (run : Run) : Run × Option StopReason :=
  let run := run.execute
  let halted := run.board.cpu.halted
  (run, if halted then some .halt else none)

/-- One turn, with the reason to stop if there is one. -/
def turn (host : Host) (limit : Nat) (run : Run) : Run × Option StopReason :=
  if limit ≤ run.executed then (run, some .instructionLimit)
  else
    let { board, clock, guard, executed, serviced } := run
    match guard with
    | none => executeOrStop { board, clock, guard := none, executed, serviced }
    | some g =>
      let (g, fetch, board) := g.beforeFetch host board
      match fetch with
      | .serviced entry status =>
        -- the return address may be an entry point again, so the guard is asked before anything runs
        ({ board, clock, guard := some g, executed, serviced := serviced.push ⟨entry, status⟩ },
          none)
      | _ => executeOrStop { board, clock, guard := some g, executed, serviced }

/-- Turns until one stops the run; none if none of them does. -/
def finish? (host : Host) (limit : Nat) (run : Run) : Option (Run × StopReason) :=
  match run.turn host limit with
  | (run, some reason) => some (run, reason)
  | (run, none) => run |>.finish? host limit
partial_fixpoint

end Run

/-! ## Runs of a machine -/

namespace Machine

def programAddress : UInt16 := 0x8000

/-- Stack pointer at the start of a run. -/
def stackTop : UInt16 := 0xF000

/-- A run of this machine from an address on. -/
def start (m : Machine) (address : UInt16) : Run where
  board := { m.board with
    cpu := { Z80.Processor.afterReset with pc := address, sp := stackTop } }
  clock := m.clock
  guard := m.guard

/-- The clock as a run's outcome shows it. -/
def cyclesOf (clock : Int32) : UInt64 := clock.toInt64.toUInt64

/-- Runs the machine from an address on; none if the drive is kept busy without end. -/
def run? (host : Host) (m : Machine) (address : UInt16) : Option (Machine × Exit) :=
  let started := m.start address
  let { board := _, clock := _, guard := _, limit, nextDevice } := m
  match started.finish? host limit with
  | none => none
  | some ({ board, clock, guard, executed := _, serviced }, reason) =>
    let pc := board.cpu.pc
    some ({ board, clock, guard, limit, nextDevice },
      { reason, cycles := cyclesOf clock, pc, serviced })

def runProgram? (host : Host) (m : Machine) (p : Program) : Option (Machine × Exit) :=
  (m.load programAddress p.code).run? host programAddress

/-- The program that loads registers, calls a routine and halts. -/
def callProgram (entry : EntryPoint) (arguments : List (ArgumentPair × UInt16)) : Program :=
  arguments.map (fun argument => .load argument.1 argument.2) ++ [.call entry.address, .halt]

/-- Calls a routine of the driver by a small program. -/
def callEntry? (host : Host) (m : Machine) (entry : EntryPoint)
    (arguments : List (ArgumentPair × UInt16)) : Option (Machine × Exit) :=
  m.runProgram? host (callProgram entry arguments)

end Machine

end HostDrive

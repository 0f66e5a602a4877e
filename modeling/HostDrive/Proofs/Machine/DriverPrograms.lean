import HostDrive.Proofs.Drive.Footprint
import HostDrive.Proofs.Machine.Operations

/-!
# Programs That Call the Driver

Programs of loads and calls, and what they come to without a machine: the same calls, made directly
one after the other, for a flat guest.

## Main statements

- `driverProgram`, `Direct.run`: such a program, and the direct way
- `Direct.services_run`: there is one answer for each call
- `Undisturbed`: the calls keep away from the program and from the return addresses
- `keepsAway_of_search`: searches with buffers in page 3 do
-/

namespace HostDrive

/-! ## Section 1: The direct way -/

/-- **One operation of a program that talks to the driver.** -/
inductive DriverStep where
  | load (target : ArgumentPair) (value : UInt16)
  | call (entry : EntryPoint)
  deriving DecidableEq, Repr

namespace DriverStep

def operation : DriverStep → Operation
  | load target value => .load target value
  | call entry => .call entry.address

/-- The routine that an operation calls, if it is a call. -/
def entry? : DriverStep → Option EntryPoint
  | load _ _ => none
  | call entry => some entry

/-- Registers after an operation that calls nothing but routines that return at once. -/
def loaded (r : CallRegisters) : DriverStep → CallRegisters
  | load target value => target.put value r
  | call _ => r

end DriverStep

/-- The loads of these arguments. -/
def loads (arguments : List (ArgumentPair × UInt16)) : List DriverStep :=
  arguments.map fun argument => .load argument.1 argument.2

/-- The program of these operations, which halts behind them. -/
def driverProgram (steps : List DriverStep) : Program :=
  steps.map DriverStep.operation ++ [.halt]

theorem length_driverProgram (steps : List DriverStep) :
    (driverProgram steps).length = steps.length + 1 := by
  rw [driverProgram, List.length_append, List.length_map]
  rfl

/-- **What direct calls come to**: the drive, the guest, and the calls so far. -/
structure Direct where
  drive : Drive
  guest : FlatGuest
  services : List Service := []

namespace Direct

/-- An operation without a machine: a load sets a register, a call is made. -/
def step (host : Host) (s : Direct) : DriverStep → Direct
  | .load target value =>
    { s with guest := { s.guest with registers := target.put value s.guest.registers } }
  | .call entry =>
    let called := s.drive.call host entry s.guest
    ⟨called.1, called.2.2, s.services ++ [⟨entry, called.2.1⟩]⟩

/-- Operations one after the other. -/
def run (host : Host) (s : Direct) (steps : List DriverStep) : Direct :=
  steps.foldl (step host) s

@[simp] theorem run_nil (host : Host) (s : Direct) : s.run host [] = s := rfl

@[simp] theorem run_cons (host : Host) (s : Direct) (step : DriverStep) (steps : List DriverStep) :
    s.run host (step :: steps) = (s.step host step).run host steps := rfl

theorem run_append (host : Host) (s : Direct) (steps others : List DriverStep) :
    s.run host (steps ++ others) = (s.run host steps).run host others :=
  List.foldl_append

/-- Loads set registers. -/
theorem run_loads (host : Host) (s : Direct) (arguments : List (ArgumentPair × UInt16)) :
    s.run host (loads arguments) = { s with
      guest := { s.guest with
        registers := (loads arguments).foldl DriverStep.loaded s.guest.registers } } := by
  induction arguments generalizing s with
  | nil => rfl
  | cons argument arguments ih =>
    show (s.step host (.load argument.1 argument.2)).run host (loads arguments) = _
    rw [ih]
    rfl

/-- No call moves `IX`. -/
theorem ix_step_call (host : Host) (s : Direct) (entry : EntryPoint) :
    (s.step host (.call entry)).guest.registers.ix = s.guest.registers.ix :=
  FlatGuest.ix_visit s.drive ⟨host, entry, s.guest⟩

/-- **One item for each call**, in the order of the program. -/
theorem services_run (host : Host) (s : Direct) (steps : List DriverStep) :
    (s.run host steps).services.map Service.entry =
      s.services.map Service.entry ++ steps.filterMap DriverStep.entry? := by
  induction steps generalizing s with
  | nil => simp
  | cons first others ih =>
    rw [run_cons, ih]
    cases first with
    | load target value => rfl
    | call entry =>
      show (s.services ++ [_]).map Service.entry ++ _ = _
      rw [List.map_append, List.append_assoc]
      rfl

/-- The reply that a call gets. -/
def reply (host : Host) (s : Direct) (entry : EntryPoint) : Reply :=
  (s.drive.answer host entry s.guest.registers s.guest.peek).2

end Direct

/-! ## Section 2: Calls that keep away from the program -/

/-- The two bytes in which return addresses are kept. -/
def IsReturnAddress (x : UInt16) : Prop := x = 0xEFFE ∨ x = 0xEFFF

/-- A call keeps away from a program of this length and from the return address: it does not read
    the return address, and writes neither. -/
structure KeepsAway (host : Host) (length : Nat) (s : Direct) (entry : EntryPoint) : Prop where
  reads : ∀ x, Drive.Reads entry s.guest.registers s.guest.peek x → ¬ IsReturnAddress x
  writes : ∀ x, (s.reply host entry).Writes x →
    ¬ IsReturnAddress x ∧ ¬ Guest.Within 0x8000 length x

/-- A call with its buffers in page 3, below the stack, keeps away. -/
theorem keepsAway_of_page3 {host : Host} {length : Nat} {s : Direct} {entry : EntryPoint}
    (hlength : length ≤ pageSize)
    (hreads : ∀ x, Drive.Reads entry s.guest.registers s.guest.peek x →
      0xC000 ≤ x.toNat ∧ x.toNat < 0xEFFE)
    (hwrites : ∀ x, s.drive.Writable entry s.guest.registers x →
      0xC000 ≤ x.toNat ∧ x.toNat < 0xEFFE) :
    KeepsAway host length s entry := by
  have haway : ∀ x : UInt16, x.toNat < 0xEFFE → ¬ IsReturnAddress x := by
    rintro x hx (rfl | rfl) <;> exact absurd hx (by decide)
  constructor
  · intro x hx
    exact haway x (hreads x hx).2
  · intro x hx
    obtain ⟨hlow, hhigh⟩ := hwrites x (Drive.writable_of_writes hx)
    -- the program ends where page 3 starts
    exact ⟨haway x hhigh, not_within_program hlength (.inr hlow)⟩

/-- So does a search with its block and its text there. -/
theorem keepsAway_of_search {host : Host} {length : Nat} {s : Direct} {entry : EntryPoint}
    (hlength : length ≤ pageSize) (hentry : entry = .findFirst ∨ entry = .findNext)
    (hix : 0xC000 ≤ s.guest.registers.ix.toNat ∧
      s.guest.registers.ix.toNat + InfoBlock.length ≤ 0xEFFE)
    (hiy : entry = .findFirst → 0xC000 ≤ s.guest.registers.iy.toNat ∧
      s.guest.registers.iy.toNat + longestGuestPath ≤ 0xEFFE) :
    KeepsAway host length s entry := by
  have hblock : ∀ x, Guest.Within s.guest.registers.ix InfoBlock.length x →
      0xC000 ≤ x.toNat ∧ x.toNat < 0xEFFE := by
    intro x hx
    have hbounds := (Guest.within_iff (Nat.le_trans hix.2 (by decide))).mp hx
    omega
  apply keepsAway_of_page3 hlength
  · intro x hx
    rcases hentry with rfl | rfl
    · rcases hx with htext | hx
      · have hiy := hiy rfl
        have hbounds := (Guest.within_iff (Nat.le_trans hiy.2 (by decide))).mp htext.within
        omega
      · exact hblock x hx
    · exact hblock x hx
  · intro x hx
    rcases hentry with rfl | rfl <;> exact hblock x hx

/-- **Undisturbed**: all calls among these operations keep away from the program. -/
def Undisturbed (host : Host) (length : Nat) : Direct → List DriverStep → Prop
  | _, [] => True
  | s, step :: rest =>
    (∀ entry, step = .call entry → KeepsAway host length s entry) ∧
      Undisturbed host length (s.step host step) rest

theorem undisturbed_nil (host : Host) (length : Nat) (s : Direct) : Undisturbed host length s [] :=
  trivial

/-- A load disturbs nothing. -/
theorem undisturbed_load {host : Host} {length : Nat} {s : Direct} {target : ArgumentPair}
    {value : UInt16} {rest : List DriverStep} :
    Undisturbed host length s (.load target value :: rest) ↔
      Undisturbed host length (s.step host (.load target value)) rest :=
  and_iff_right fun _ h => nomatch h

theorem undisturbed_call {host : Host} {length : Nat} {s : Direct} {entry : EntryPoint}
    {rest : List DriverStep} :
    Undisturbed host length s (.call entry :: rest) ↔
      KeepsAway host length s entry ∧ Undisturbed host length (s.step host (.call entry)) rest := by
  constructor
  · rintro ⟨hkeeps, hrest⟩
    exact ⟨hkeeps entry rfl, hrest⟩
  · rintro ⟨hkeeps, hrest⟩
    refine ⟨fun entry' h => ?_, hrest⟩
    obtain rfl := DriverStep.call.inj h
    exact hkeeps

/-- Of loads and a call, the call is all that can disturb. -/
theorem undisturbed_loads_call {host : Host} {length : Nat} {s : Direct}
    {arguments : List (ArgumentPair × UInt16)} {entry : EntryPoint} :
    Undisturbed host length s (loads arguments ++ [.call entry]) ↔
      KeepsAway host length (s.run host (loads arguments)) entry := by
  induction arguments generalizing s with
  | nil =>
    show Undisturbed host length s [.call entry] ↔ _
    rw [undisturbed_call]
    exact and_iff_left (undisturbed_nil _ _ _)
  | cons argument arguments ih =>
    show Undisturbed host length s
      (.load argument.1 argument.2 :: (loads arguments ++ [.call entry])) ↔ _
    rw [undisturbed_load, ih]
    rfl

end HostDrive

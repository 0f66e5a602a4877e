import HostDrive.Proofs.Drive.Enumeration
import HostDrive.Proofs.Machine.DirectCalls

/-!
# Machines with the Driver Installed

A machine that was reset and has the driver module in segment 2, with a guard and without one. With
a guard that does not know another module, each program does what direct calls to the drive do.
Without a guard the module's own routines run, and they return at once.

## Main statements

- `Machine.HasDriver`: what an installation leaves
- `Machine.runProgram?_unguarded`: programs without a guard
- `programs_call_directly`: programs with and without one
-/

namespace HostDrive

/-! ## Section 1: The installed module -/

namespace Machine

/-- The driver module has a return at each of its entry points. -/
theorem getElem_withDriver_entry (segment : Segment) (entry : EntryPoint) :
    (withDriver segment).get (MemoryMap.offsetOf entry.address) = retOpcode := by
  have hoffset : driverOffset entry.address < pageSize := Nat.mod_lt _ (Nat.succ_pos _)
  have hsize : pageSize = 0x4000 := rfl
  show (withDriver segment)[driverOffset entry.address] = retOpcode
  cases entry <;>
    simp [withDriver, EntryPoint.all, driverOffset, EntryPoint.address, hsize]

/-- **The driver module is installed**: it shows in page 1 of a flat map, with its signature and its
    entry points. -/
structure HasDriver (m : Machine) : Prop where
  flat : m.board.bus.IsFlat
  shows : Shows m.board ⟨m.board.bus.mapper, 2⟩
  signed : Signed m.board
  returns : ∀ entry : EntryPoint, m.peek entry.address = retOpcode

variable {m₀ m : Machine}

/-- **An installation into segment 2 shows at once**, on a machine that was reset. -/
theorem hasDriver_of_installDriver (hselected : m₀.board.bus.selected = #v[3, 2, 1, 0])
    (hslots : m₀.board.bus.slotSelect = 0xFF) (h : m₀.installDriver 2 = .ok m) :
    m.HasDriver := by
  have hbus : m.board.bus = m₀.board.bus.modifySegment 2 withDriver := by
    rw [(installDriver_eq_ok h).2]
    rfl
  have hlayout : m₀.board.bus.SameLayout m.board.bus := by
    rw [hbus]
    exact .modifySegment _ _ _
  -- after a reset page 1 shows segment 2
  have hflat := MemoryMap.isFlat_of_reset hselected hslots
  have hsegment : (m₀.board.bus.segmentOf 1).val = 2 := MemoryMap.segmentOf_of_reset hselected 1
  obtain ⟨segment, hfound⟩ : ∃ segment, m₀.board.bus.segments[2]? = some segment := by
    have hlt : 2 < m₀.board.bus.segments.size := Nat.lt_of_succ_lt m₀.board.bus.four_le
    exact ⟨_, Array.getElem?_eq_getElem hlt⟩
  refine ⟨hlayout.isFlat hflat, ⟨?device, ?block⟩, ?signed, ?returns⟩
  case device =>
    show m.board.bus.deviceInPage 1 = _
    rw [hlayout.deviceInPage, MemoryMap.deviceInPage, if_pos (hflat.shows 1), hlayout.mapper]
  case block =>
    show m.board.bus.blockInPage m.board.bus.mapper 1 = _
    rw [hlayout.blockInPage, MemoryMap.blockInPage, if_pos hlayout.mapper, hsegment]
    rfl
  case signed =>
    exact Board.signed_of_withDriver hbus (hflat.shows 1) hsegment.symm hfound
  case returns =>
    intro entry
    have hpage : MemoryMap.pageOf entry.address = 1 := by cases entry <;> rfl
    show m.board.bus.read entry.address = _
    have hselects : (m₀.board.bus.segmentOf (MemoryMap.pageOf entry.address)).val = 2 := by
      rw [hpage, hsegment]
    rw [← hselects] at hfound
    rw [hbus, MemoryMap.read_modifySegment 2 _ (hflat.shows _) hfound, if_pos hselects.symm]
    exact getElem_withDriver_entry _ entry

/-- A guard is no part of the board. -/
theorem HasDriver.attach (h : m.HasDriver) (guard : Guard) : (m.attach guard).HasDriver :=
  ⟨h.flat, h.shows, h.signed, h.returns⟩

/-- A guard that knows nothing, or this module, makes the machine serve its drive. -/
theorem HasDriver.serves (h : m.HasDriver) {guard : Guard} (hguard : m.guard = some guard)
    (htoken : guard.token = none ∨ guard.token = some ⟨m.board.bus.mapper, 2⟩) :
    m.Serves guard.drive where
  flat := h.flat
  guarded := by
    refine ⟨guard, ⟨m.board.bus.mapper, 2⟩, hguard, rfl, h.shows, ?_⟩
    rcases htoken with hnone | hsome
    · exact .inr ⟨hnone, h.signed⟩
    · exact .inl hsome

end Machine

/-! ## Section 2: Without a guard -/

namespace Aligned

variable {code rest : List UInt8} {offset limit : Nat} {run : Run} {r : CallRegisters}
  {view : Guest.View}

/-- **One operation without a guard**, in two instructions at most: a call enters a routine, and the
    routine returns. -/
theorem step (h : Aligned code (codeAddress offset) 0xF000 run r view) (host : Host)
    (hguard : run.guard = none) (hreturns : ∀ entry : EntryPoint, view entry.address = 0xC9)
    {step : DriverStep} (hop : code.drop offset = step.operation.code ++ rest)
    (hfit : code.length ≤ pageSize) (hlt : run.executed + 2 ≤ limit) :
    ∃ n next, n ≤ 2 ∧ run.Executes host limit next n ∧
      Aligned code (codeAddress (offset + step.operation.code.length)) 0xF000 next
        (step.loaded r) view := by
  cases step with
  | load target value =>
    obtain ⟨n, next, hn, hexecutes, -, haligned⟩ := h.load host hop hfit hlt
    exact ⟨n, next, hn, hexecutes, haligned⟩
  | call entry =>
    obtain ⟨entered, hexecutes, hreturn, -, -, haligned⟩ :=
      h.enter host hop hfit (Nat.lt_of_succ_lt hlt)
    -- the routine of the module is a return, and nobody answers in its place
    have hnot : ¬ entered.IsAnswered host := by
      rintro ⟨guard, hsome, -⟩
      exact nomatch (hexecutes.guard.trans hguard).symm.trans hsome
    have haway : ¬ IsReturnAddress entry.address := by
      cases entry <;> unfold IsReturnAddress <;> decide
    have hopcode : entered.board.bus.read entry.address = 0xC9 :=
      (haligned.memory _ haway).trans (hreturns entry)
    have hlt' : entered.executed < limit := hexecutes.executed ▸ hlt
    obtain ⟨next, hexecutes', hready, hbus, hregisters⟩ :=
      haligned.ready.ret hnot hopcode hreturn hlt'
    refine ⟨2, next, Nat.le_refl 2, hexecutes.trans hexecutes', hready,
      hregisters.trans haligned.registers, ?_⟩
    intro x hx
    rw [hbus]
    exact haligned.memory x hx

/-- **A whole program without a guard**, up to its halt. -/
theorem steps {steps : List DriverStep}
    (h : Aligned code (codeAddress offset) 0xF000 run r view) (host : Host)
    (hguard : run.guard = none) (hreturns : ∀ entry : EntryPoint, view entry.address = 0xC9)
    (hop : code.drop offset = Program.code (steps.map DriverStep.operation) ++ rest)
    (hfit : code.length ≤ pageSize) (hlt : run.executed + 2 * steps.length ≤ limit) :
    ∃ n last, n ≤ 2 * steps.length ∧ run.Executes host limit last n ∧
      Aligned code
        (codeAddress (offset + (Program.code (steps.map DriverStep.operation)).length)) 0xF000 last
        (steps.foldl DriverStep.loaded r) view := by
  -- on the operations, as under a guard
  induction steps generalizing offset run r with
  | nil => exact ⟨0, run, Nat.le_refl _, ⟨.here run, rfl, rfl, rfl⟩, h⟩
  | cons first others ih =>
    have hcode : Program.code ((first :: others).map DriverStep.operation) =
        first.operation.code ++ Program.code (others.map DriverStep.operation) := rfl
    rw [hcode, List.append_assoc] at hop
    rw [List.length_cons] at hlt
    have hfirst : run.executed + 2 ≤ limit := by omega
    obtain ⟨n, middle, hn, hexecutes, hmiddle⟩ := h.step host hguard hreturns hop hfit hfirst
    have hcount := hexecutes.executed
    have hop' := drop_behind hop
    have hlater : middle.executed + 2 * others.length ≤ limit := by omega
    obtain ⟨n', last, hn', hexecutes', hlast⟩ :=
      ih hmiddle (hexecutes.guard.trans hguard) hop' hlater
    refine ⟨n + n', last, ?_, hexecutes.trans hexecutes', ?_⟩
    · rw [List.length_cons]
      omega
    · rw [hcode, List.length_append, ← Nat.add_assoc]
      exact hlast

end Aligned

namespace Machine

variable {m : Machine} {steps : List DriverStep}

/-- **Without a guard** a program ends too. No call is answered: the registers are as loaded, and
    memory is left alone. -/
theorem HasDriver.runProgram?_unguarded (h : m.HasDriver) (hguard : m.guard = none) (host : Host)
    (hfit : (driverProgram steps).code.length ≤ pageSize)
    (hlimit : 2 * (driverProgram steps).length ≤ m.limit) :
    ∃ m' exit, m.runProgram? host (driverProgram steps) = some (m', exit) ∧ exit.reason = .halt ∧
      exit.pc = codeAddress ((driverProgram steps).code.length - 1) ∧ exit.serviced = #[] ∧
      Guest.registers m'.board = steps.foldl DriverStep.loaded resetRegisters ∧
      ∀ x, x ≠ 0xEFFE → x ≠ 0xEFFF →
        m'.peek x = (m.load programAddress (driverProgram steps).code).peek x := by
  have hstart := aligned_start h.flat hfit
  have hunguarded :
      ((m.load programAddress (driverProgram steps).code).start programAddress).guard = none := by
    show (m.load programAddress (driverProgram steps).code).guard = none
    rw [load_eq]
    exact hguard
  -- the program lies behind the module
  have hreturns : ∀ entry : EntryPoint,
      (m.load programAddress (driverProgram steps).code).peek entry.address = 0xC9 := by
    intro entry
    have hlow : entry.address.toNat < 0x8000 := by cases entry <;> decide
    rw [peek_load_program h.flat hfit (.inl hlow)]
    exact h.returns entry
  rw [length_driverProgram] at hlimit
  have hlt : ((m.load programAddress (driverProgram steps).code).start programAddress).executed +
      2 * steps.length ≤ m.limit := by
    show 0 + 2 * steps.length ≤ m.limit
    omega
  obtain ⟨n, before, hn, hexecutes, hbefore⟩ :=
    hstart.steps host hunguarded hreturns (code_driverProgram steps) hfit hlt
  have hexecuted : before.executed = 0 + n := hexecutes.executed
  rw [Nat.zero_add] at hbefore
  have hlt' : before.executed < m.limit := by omega
  obtain ⟨m', exit, hrun, hreason, hpc, hserviced, hregisters, hbus, -, -⟩ :=
    runProgram?_of_aligned host hfit hexecutes.reaches hlt' hbefore
  refine ⟨m', exit, hrun, hreason, hpc, hserviced.trans hexecutes.serviced, hregisters, ?_⟩
  intro x hlow hhigh
  show m'.board.bus.read x = _
  rw [hbus]
  exact hbefore.memory x fun hx => hx.elim hlow hhigh

end Machine

/-! ## Section 3: Programs and direct calls -/

/-- **Programs call the drive directly.** On a machine that was reset and has the driver installed,
    take any program of loads and calls that fits below page 3, with instructions enough for it.
    Under a guard that knows nothing or knows this module, and unless a call touches the program or
    the return address, the run halts on the halt of the program, one call is answered for each that
    the program makes, in order, and drive, registers, memory and answers are those of the same
    calls made directly. Without a guard it halts as well, and nothing is called. -/
theorem programs_call_directly {m₀ m : Machine} (hselected : m₀.board.bus.selected = #v[3, 2, 1, 0])
    (hslots : m₀.board.bus.slotSelect = 0xFF) (hinstalled : m₀.installDriver 2 = .ok m)
    (host : Host) (steps : List DriverStep)
    (hfit : (driverProgram steps).code.length ≤ 0x4000)
    (hlimit : 2 * (driverProgram steps).length ≤ m.limit) :
    (∀ guard : Guard, guard.token = none ∨ guard.token = some ⟨m.board.bus.mapper, 2⟩ →
      let direct := (m.attach guard).direct guard.drive steps
      Undisturbed host (driverProgram steps).code.length direct steps →
      ∃ m' exit, (m.attach guard).runProgram? host (driverProgram steps) = some (m', exit) ∧
        RanDirectly (driverProgram steps).code.length (direct.run host steps) m' exit ∧
        exit.serviced.toList.map Service.entry = steps.filterMap DriverStep.entry?) ∧
    (m.guard = none →
      ∃ m' exit, m.runProgram? host (driverProgram steps) = some (m', exit) ∧
        exit.reason = .halt ∧ exit.pc = codeAddress ((driverProgram steps).code.length - 1) ∧
        exit.serviced = #[] ∧
        Guest.registers m'.board = steps.foldl DriverStep.loaded resetRegisters ∧
        ∀ x, x ≠ 0xEFFE → x ≠ 0xEFFF →
          m'.peek x = (m.load Machine.programAddress (driverProgram steps).code).peek x) := by
  have hdriver := Machine.hasDriver_of_installDriver hselected hslots hinstalled
  constructor
  · intro guard htoken direct hsafe
    obtain ⟨m', exit, hrun, hran, -, -⟩ :=
      Machine.runProgram?_ranDirectly ((hdriver.attach guard).serves rfl htoken) host hfit hlimit
        hsafe
    refine ⟨m', exit, hrun, hran, ?_⟩
    rw [hran.serviced, Direct.services_run]
    rfl
  · intro hguard
    exact hdriver.runProgram?_unguarded hguard host hfit hlimit

/-- A search for everything, with its block at the start of page 3 and an empty text behind it. -/
def searchEverything : List DriverStep :=
  [.load .ix 0xC000, .load .iy 0xC100, .call .findFirst, .call .findNext]

/-- Both calls of the search are answered on a new machine. -/
theorem programs_call_directly_search :
    let host := Host.uniform threeFiles
    let guard : Guard := { drive := .new ⟨"/d"⟩ "D" }
    ∃ m m' exit, (Machine.new 4).installDriver 2 = .ok m ∧
      (m.attach guard).runProgram? host (driverProgram searchEverything) = some (m', exit) ∧
      exit.reason = .halt ∧ exit.pc = 0x800E ∧
      exit.serviced.toList.map Service.entry = [.findFirst, .findNext] := by
  intro host guard
  let m := (Machine.new 4).mapBus fun bus => bus.modifySegment 2 Machine.withDriver
  have hcount : (Machine.new 4).segmentCount = 4 := Array.size_replicate
  have hinstalled : (Machine.new 4).installDriver 2 = .ok m :=
    Machine.installDriver_of_lt (by rw [hcount]; decide)
  have hsafe : Undisturbed host (driverProgram searchEverything).code.length
      ((m.attach guard).direct guard.drive searchEverything) searchEverything := by
    rw [searchEverything, undisturbed_load, undisturbed_load, undisturbed_call, undisturbed_call]
    refine ⟨?first, ?next, undisturbed_nil _ _ _⟩
    case first =>
      exact keepsAway_of_search (by decide) (.inl rfl) ⟨by decide, by decide⟩
        fun _ => ⟨by decide, by decide⟩
    case next =>
      -- the block stays where it is
      apply keepsAway_of_search (by decide) (.inr rfl)
      · rw [Direct.ix_step_call]
        exact ⟨by decide, by decide⟩
      · exact nofun
  obtain ⟨m', exit, hrun, hran, hentries⟩ :=
    (programs_call_directly rfl rfl hinstalled host searchEverything (by decide) (by decide)).1
      guard (.inl rfl) hsafe
  exact ⟨m, m', exit, hinstalled, hrun, hran.reason, hran.pc, hentries⟩

end HostDrive

import HostDrive.Proofs.InfoBlock
import HostDrive.Proofs.Machine.Limits
import HostDrive.Proofs.Machine.DirectCalls
import HostDrive.Proofs.Machine.SegmentRegisters

/-!
# Programs That Set Up a Machine

Programs that load registers and send bytes to ports, and then halt. They may switch slots and
segments while they run, as long as the page that they run in keeps its segment: nothing that they
send changes what they are made of, so each register shows what was last put into it.

## Architecture

- `MemoryMap.selected_output` and `MemoryMap.slotSelect_output` are what a byte that is sent
  selects; `MemoryMap.read_output` says that page 2 goes on showing the same.
- `Machine.segments_load`: a program that is loaded fills the segment that page 2 shows.
- `Setup.step` is a step of such a program without a machine; `Run.Poised.send` is the step on a
  machine, and `Run.Poised.setup`, by induction over the program, the run.
- `Machine.setups_run` reads the outcome off `Setup.step` by `foldl_shows_last`.
-/

namespace HostDrive

/-! ## Section 1: What is selected -/

namespace MemoryMap

variable {map : MemoryMap} {port : UInt16}

theorem addresses_of_pageOfRegister? {page : Page}
    (h : pageOfRegister? (Bytes.low port) = some page) : Addresses port page := by
  unfold pageOfRegister? at h
  split at h
  · rename_i hle
    obtain rfl := Option.some.inj h
    have hlow := UInt8.le_iff_toNat_le.mp hle
    show (Bytes.low port).toNat = 0xFC + (Bytes.low port - segmentRegister).toNat
    rw [UInt8.toNat_sub_of_le _ _ hle]
    exact (Nat.add_sub_of_le hlow).symm
  · exact nomatch h

/-- **The register of a page** takes the bytes that are sent to it. -/
theorem selected_output (map : MemoryMap) (port : UInt16) (b : UInt8) (page : Page) :
    (map.output port b).selected.get page =
      if (Bytes.low port).toNat = 0xFC + page.val then b else map.selected.get page := by
  by_cases hport : (Bytes.low port).toNat = 0xFC + page.val
  · have haddresses : Addresses port page := hport
    have houtput : map.output port b = map.selectSegment page b := by
      unfold output
      simp only [haddresses.ne_slotRegister, haddresses.pageOfRegister?, Bool.false_eq_true,
        if_false]
    rw [if_pos hport, houtput]
    exact Vector.getElem_set_self page.isLt
  · rw [if_neg hport]
    unfold output
    simp only
    split
    · rfl
    · split
      · rename_i other hother
        -- another page takes the byte
        have hne : other.val ≠ page.val := by
          intro heq
          exact hport (Fin.ext heq ▸ addresses_of_pageOfRegister? hother)
        exact Vector.getElem_set_ne other.isLt page.isLt hne
      · rfl

/-- **The register of the slots** takes the bytes that are sent to it. -/
theorem slotSelect_output (map : MemoryMap) (port : UInt16) (b : UInt8) :
    (map.output port b).slotSelect =
      if Bytes.low port = slotRegister then b else map.slotSelect := by
  unfold output
  simp only [beq_iff_eq]
  split
  · rfl
  · split <;> rfl

/-- A page other than page 1 shows RAM. -/
theorem cell?_of_page {a : UInt16} (hpage : (pageOf a).val ≠ 1) :
    map.cell? a = some ⟨(map.segmentOf (pageOf a)).val, (offsetOf a).val⟩ := by
  have hshows : map.showsMapper (pageOf a) = true := by
    simp only [showsMapper, bne_iff_ne.mpr hpage, Bool.true_or]
  exact cell?_eq_some.mpr ⟨hshows, rfl, rfl⟩

/-- **Such a page goes on showing the same**, unless a byte is sent to its register. -/
theorem read_output {a : UInt16} (hpage : (pageOf a).val ≠ 1)
    (hport : (Bytes.low port).toNat ≠ 0xFC + (pageOf a).val) (b : UInt8) :
    (map.output port b).read a = map.read a := by
  have hsegments := map.segments_output port b
  have hselected := map.selected_output port b (pageOf a)
  rw [if_neg hport] at hselected
  have hsegment : ((map.output port b).segmentOf (pageOf a)).val =
      (map.segmentOf (pageOf a)).val := by
    show ((map.output port b).selected.get (pageOf a)).toNat % (map.output port b).segments.size = _
    rw [hselected, hsegments]
    rfl
  have hcell : (map.output port b).cell? a =
      some ⟨(map.segmentOf (pageOf a)).val, (offsetOf a).val⟩ := by
    rw [cell?_of_page hpage, hsegment]
  exact read_eq_of_cell? hsegments (cell?_of_page hpage) hcell

/-- A program of at most a page lies in page 2, each byte at its place. -/
theorem pageOf_codeAddress {offset : Nat} (h : offset < pageSize) :
    (pageOf (codeAddress offset)).val = 2 ∧ (offsetOf (codeAddress offset)).val = offset := by
  have htoNat := toNat_codeAddress (Nat.le_of_lt h)
  constructor
  · show (codeAddress offset).toNat / pageSize = 2
    rw [htoNat]
    simp only [pageSize] at *
    omega
  · show (codeAddress offset).toNat % pageSize = offset
    rw [htoNat]
    simp only [pageSize] at *
    omega

/-- So all of it lies in the segment that shows at its start. -/
theorem cell?_codeAddress (map : MemoryMap) {offset : Nat} (h : offset < pageSize) :
    map.cell? (codeAddress offset) =
      some ⟨(map.segmentOf (pageOf Machine.programAddress)).val, offset⟩ := by
  obtain ⟨hpage, hoffset⟩ := pageOf_codeAddress h
  have hsame : pageOf (codeAddress offset) = pageOf Machine.programAddress := Fin.ext hpage
  rw [cell?_of_page (by rw [hpage]; decide), hoffset, hsame]

end MemoryMap

/-! ## Section 2: Loaded programs -/

namespace Machine

open MemoryMap (pageOf)

/-- Filling sets the first byte, and fills what is behind it. -/
private theorem fillSegment_set (segment : Segment) {offset : Nat} {b : UInt8}
    (hlt : offset < pageSize) (rest : List UInt8) :
    fillSegment (segment.set offset b hlt) (offset + 1) rest =
      fillSegment segment offset (b :: rest) := by
  have hset : segment.set offset b hlt = segment.setIfInBounds offset b := by
    apply Vector.ext
    intro i hi
    rw [Vector.getElem_set, Vector.getElem_setIfInBounds]
  rw [hset, fillSegment]

/-- **Loading a program** fills the segment that page 2 shows, and no other. -/
theorem segments_load {m : Machine} {offset : Nat} {bytes : List UInt8}
    (hfit : offset + bytes.length ≤ pageSize) (n : Nat) :
    (m.load (codeAddress offset) bytes).board.bus.segments[n]? =
      if (m.board.bus.segmentOf (pageOf programAddress)).val = n then
        m.board.bus.segments[n]?.map fun s => fillSegment s offset bytes
      else m.board.bus.segments[n]? := by
  induction bytes generalizing m offset with
  | nil =>
    show m.board.bus.segments[n]? = _
    simp only [fillSegment, Option.map_id', ite_self]
  | cons b rest ih =>
    rw [List.length_cons] at hfit
    -- the first byte goes to its cell, which leaves the layout as it is
    have hlt : offset < pageSize := by omega
    have hcell := m.board.bus.cell?_codeAddress hlt
    have hlayout := MemoryMap.SameLayout.write m.board.bus (codeAddress offset) b
    have hpoke : (m.poke (codeAddress offset) b).board.bus =
        m.board.bus.write (codeAddress offset) b := rfl
    have hnext : codeAddress offset + 1 = codeAddress (offset + 1) :=
      (codeAddress_add offset 1).symm
    have hload : m.load (codeAddress offset) (b :: rest) =
        (m.poke (codeAddress offset) b).load (codeAddress (offset + 1)) rest := by
      rw [← hnext]
      rfl
    rw [hload, ih (by omega), hpoke, hlayout.segmentOf, MemoryMap.write_of_cell? hcell,
      MemoryMap.getElem?_segments_modifySegment]
    split
    · rw [Option.map_map]
      exact congrArg (Option.map · _) (funext fun s => fillSegment_set s _ rest)
    · rfl

/-- Nothing else changes by loading. -/
theorem sameLayout_load (m : Machine) (a : UInt16) (bytes : List UInt8) :
    m.board.bus.SameLayout (m.load a bytes).board.bus := by
  rw [load_eq]
  exact Board.sameLayout_store _ _ _

/-- **A program that is loaded shows**, whatever the pages select. -/
theorem peek_load_code {m : Machine} {code : List UInt8} (hfit : code.length ≤ pageSize) {i : Nat}
    (hi : i < code.length) : (m.load programAddress code).peek (codeAddress i) = code[i] := by
  have hlt : i < pageSize := Nat.lt_of_lt_of_le hi hfit
  have hlayout := m.sameLayout_load programAddress code
  obtain ⟨segment, hsegment⟩ : ∃ segment,
      m.board.bus.segments[(m.board.bus.segmentOf (pageOf programAddress)).val]? = some segment :=
    ⟨_, Array.getElem?_eq_getElem (Fin.isLt _)⟩
  have hcell : (m.load programAddress code).board.bus.cell? (codeAddress i) =
      some ⟨(m.board.bus.segmentOf (pageOf programAddress)).val, i⟩ :=
    (hlayout.cell? _).trans (m.board.bus.cell?_codeAddress hlt)
  have hfilled : (m.load programAddress code).board.bus.segments[
      (m.board.bus.segmentOf (pageOf programAddress)).val]? =
        some (fillSegment segment 0 code) := by
    have hall : 0 + code.length ≤ pageSize := by omega
    have hload := segments_load (m := m) hall (m.board.bus.segmentOf (pageOf programAddress)).val
    rw [if_pos rfl, hsegment] at hload
    exact hload
  have hbyte := MemoryMap.getElem?_segment hcell hfilled
  rw [Vector.getElem?_eq_getElem hlt, getElem_fillSegment, if_pos (Nat.zero_le _), Nat.sub_zero,
    List.getElem?_eq_getElem hi] at hbyte
  exact (Option.some.inj hbyte).symm

end Machine

/-! ## Section 3: Without a machine -/

/-- **One step of a program that sets up a machine.** -/
inductive SetupStep where
  | load (target : ArgumentPair) (value : UInt16)
  /-- Sends a byte to a port, by way of `A`. -/
  | send (port value : UInt8)
  deriving DecidableEq, Repr

namespace SetupStep

def operation : SetupStep → Operation
  | load target value => .load target value
  | send port value => .out port value

/-- The instructions that a step needs. -/
def instructions : SetupStep → Nat
  | load target _ => target.instructions
  | send _ _ => 2

/-- What a step loads into a register. -/
def loaded? (target : ArgumentPair) : SetupStep → Option UInt16
  | load other value => if other = target then some value else none
  | send _ _ => none

/-- What a step sends. -/
def sent? : SetupStep → Option UInt8
  | load _ _ => none
  | send _ value => some value

/-- What a step sends to a port. -/
def sentTo? (port : UInt8) : SetupStep → Option UInt8
  | load _ _ => none
  | send other value => if other = port then some value else none

end SetupStep

/-- The program of these steps, which halts behind them. -/
def setupProgram (steps : List SetupStep) : Program := steps.map SetupStep.operation ++ [.halt]

/-- The machine code of some steps. -/
def setupCode (steps : List SetupStep) : List UInt8 :=
  Program.code (steps.map SetupStep.operation)

/-- The instructions that some steps need. -/
def setupInstructions (steps : List SetupStep) : Nat := (steps.map SetupStep.instructions).sum

theorem code_setupProgram (steps : List SetupStep) :
    (setupProgram steps).code = setupCode steps ++ Operation.halt.code := by
  simp [setupProgram, setupCode, Program.code]

/-- **What a setup comes to**: registers, and what is selected. -/
structure Setup where
  registers : CallRegisters
  map : MemoryMap

namespace Setup

/-- A step without a machine: a load sets a register, a byte goes through `A` to its port. -/
def step (s : Setup) : SetupStep → Setup
  | .load target value => { s with registers := target.put value s.registers }
  | .send port value =>
    { registers := { s.registers with a := value }
      map := s.map.output (Bytes.word port value) value }

def run (s : Setup) (steps : List SetupStep) : Setup := steps.foldl step s

/-- The value of a register that a load can fill. -/
def pair (s : Setup) : ArgumentPair → UInt16
  | .de => s.registers.de
  | .hl => s.registers.hl
  | .ix => s.registers.ix
  | .iy => s.registers.iy

/-- What each step shows of its own, a run shows of the last step that gives a value. -/
private theorem run_shows_last {α : Type} {given : SetupStep → Option α} (get : Setup → α)
    (hstep : ∀ s i, get (step s i) = (given i).getD (get s)) (s : Setup) (steps : List SetupStep) :
    get (s.run steps) = (lastGiven given steps).getD (get s) :=
  foldl_shows_last (fun _ => True) get (fun _ _ _ => trivial) (fun s i _ => hstep s i) steps trivial

/-- **Registers show what was last loaded**, ... -/
theorem pair_run (s : Setup) (steps : List SetupStep) (target : ArgumentPair) :
    (s.run steps).pair target =
      (lastGiven (SetupStep.loaded? target) steps).getD (s.pair target) := by
  refine run_shows_last (fun s => s.pair target) ?_ s steps
  rintro s (⟨other, value⟩ | ⟨port, value⟩)
  · cases other <;> cases target <;> rfl
  · cases target <;> rfl

/-- ... `A` shows what was last sent, ... -/
theorem a_run (s : Setup) (steps : List SetupStep) :
    (s.run steps).registers.a = (lastGiven SetupStep.sent? steps).getD s.registers.a := by
  refine run_shows_last (fun s => s.registers.a) ?_ s steps
  rintro s (⟨target, value⟩ | ⟨port, value⟩)
  · cases target <;> rfl
  · rfl

/-- ... the register of the slots shows what was last sent to it, ... -/
theorem slotSelect_run (s : Setup) (steps : List SetupStep) :
    (s.run steps).map.slotSelect =
      (lastGiven (SetupStep.sentTo? slotRegister) steps).getD s.map.slotSelect := by
  refine run_shows_last (fun s => s.map.slotSelect) ?_ s steps
  rintro s (⟨target, value⟩ | ⟨port, value⟩)
  · rfl
  · show (s.map.output (Bytes.word port value) value).slotSelect = _
    rw [MemoryMap.slotSelect_output, Bytes.low_word, SetupStep.sentTo?]
    split <;> rfl

/-- ... and so do the registers of the segments. -/
theorem selected_run (s : Setup) (steps : List SetupStep) {port : UInt8} {page : Page}
    (hport : port.toNat = 0xFC + page.val) :
    (s.run steps).map.selected.get page =
      (lastGiven (SetupStep.sentTo? port) steps).getD (s.map.selected.get page) := by
  refine run_shows_last (fun s => s.map.selected.get page) ?_ s steps
  rintro s (⟨target, value⟩ | ⟨other, value⟩)
  · rfl
  · show (s.map.output (Bytes.word other value) value).selected.get page = _
    rw [MemoryMap.selected_output, Bytes.low_word, SetupStep.sentTo?, ← hport]
    simp only [UInt8.toNat_inj]
    split <;> rfl

/-- No byte of RAM or of read-only memory changes. -/
theorem memory_run (s : Setup) (steps : List SetupStep) :
    (s.run steps).map.segments = s.map.segments ∧ (s.run steps).map.roms = s.map.roms := by
  induction steps generalizing s with
  | nil => exact ⟨rfl, rfl⟩
  | cons first rest ih =>
    obtain ⟨hsegments, hroms⟩ := ih (s.step first)
    cases first with
    | load target value => exact ⟨hsegments, hroms⟩
    | send port value =>
      exact ⟨hsegments.trans (MemoryMap.segments_output ..),
        hroms.trans (MemoryMap.sameParts_output ..).roms⟩

end Setup

/-! ## Section 4: On a machine -/

/-- The setup that a board shows. -/
def Board.setup (b : Board) : Setup := ⟨b.registers, b.bus⟩

namespace Run

variable {host : Host} {limit : Nat} {run : Run} {code rest : List UInt8} {offset : Nat}
  {sp : UInt16}

/-- **A byte is sent** in two instructions. The program goes on showing, as its page keeps its
    segment. -/
theorem Poised.send (h : Poised code (codeAddress offset) sp none run) (host : Host)
    {port value : UInt8} (hport : port ≠ 0xFE)
    (hop : code.drop offset = (Operation.out port value).code ++ rest)
    (hfit : code.length ≤ pageSize) (hlt : run.executed + 2 ≤ limit) :
    ∃ next, Executes host limit run next 2 ∧ Poised code (codeAddress (offset + 4)) sp none next ∧
      next.board.setup = run.board.setup.step (.send port value) := by
  have hlength := congrArg List.length hop
  simp only [List.length_drop, List.length_append, Operation.code, List.length_cons,
    List.length_nil] at hlength
  -- first the byte goes to `A`, ...
  have hfirst : code.drop offset = [0x3E, value] ++ ([0xD3, port] ++ rest) := hop
  obtain ⟨middle, hloads, hmiddle, hloaded⟩ := h.step host
    (Z80.State.next_loadA (h.finds hfirst)) rfl ⟨rfl, rfl, rfl, rfl⟩ (fun _ _ => rfl) (by omega)
    (Nat.lt_of_succ_lt hlt)
  -- ... then from there to the port
  have hsecond : code.drop (offset + 2) = [0xD3, port] ++ rest := drop_behind hfirst
  have ha : middle.board.cpu.a = value := by
    rw [hloaded]
    rfl
  have hshows : ∀ i, i < code.length →
      (middle.board.bus.output (Bytes.word port middle.board.cpu.a) middle.board.cpu.a).read
        (codeAddress i) = middle.board.bus.read (codeAddress i) := by
    intro i hi
    obtain ⟨hpage, -⟩ := MemoryMap.pageOf_codeAddress (Nat.lt_of_lt_of_le hi hfit)
    apply MemoryMap.read_output
    · rw [hpage]
      decide
    · rw [Bytes.low_word, hpage]
      exact fun heq => hport (UInt8.toNat_inj.mp heq)
  have hlt' : middle.executed < limit := hloads.executed ▸ hlt
  have hmid : offset + 2 ≤ pageSize := by omega
  obtain ⟨next, hsends, hnext, hsent⟩ := hmiddle.step host
    (Z80.State.next_outputA (hmiddle.finds hsecond)) rfl ⟨rfl, rfl, rfl, rfl⟩ hshows hmid hlt'
  refine ⟨next, hloads.trans hsends, hnext, ?_⟩
  rw [hsent]
  show Setup.mk (Board.registers middle.board)
    (middle.board.bus.output (Bytes.word port middle.board.cpu.a) middle.board.cpu.a) = _
  rw [ha, hloaded]
  rfl

/-- No instructions. -/
theorem Executes.refl (host : Host) (limit : Nat) (run : Run) : Executes host limit run run 0 :=
  ⟨.here run, rfl, rfl, rfl⟩

/-- **The run** does what the steps do without a machine. -/
theorem Poised.setup {steps : List SetupStep} (h : Poised code (codeAddress offset) sp none run)
    (host : Host) (hports : ∀ value, .send 0xFE value ∉ steps)
    (hop : code.drop offset = setupCode steps ++ rest) (hfit : code.length ≤ pageSize)
    (hlt : run.executed + setupInstructions steps ≤ limit) :
    ∃ next, Executes host limit run next (setupInstructions steps) ∧
      Poised code (codeAddress (offset + (setupCode steps).length)) sp none next ∧
      next.board.setup = run.board.setup.run steps := by
  induction steps generalizing offset run with
  | nil => exact ⟨run, .refl host limit run, h, rfl⟩
  | cons first steps ih =>
    have hcode : setupCode (first :: steps) = first.operation.code ++ setupCode steps := rfl
    have hcount : setupInstructions (first :: steps) =
        first.instructions + setupInstructions steps := rfl
    rw [hcode, List.append_assoc] at hop
    rw [hcount] at hlt
    have hrest : ∀ value, .send 0xFE value ∉ steps :=
      fun value hmem => hports value (List.mem_cons_of_mem _ hmem)
    -- one step, ...
    obtain ⟨middle, hexecutes, hmiddle, hstep⟩ : ∃ middle,
        Executes host limit run middle first.instructions ∧
          Poised code (codeAddress (offset + first.operation.code.length)) sp none middle ∧
          middle.board.setup = run.board.setup.step first := by
      cases first with
      | load target value =>
        have hlt' : run.executed + target.instructions ≤ limit :=
          Nat.le_trans (Nat.add_le_add_left (Nat.le_add_right _ _) _) hlt
        obtain ⟨middle, hexecutes, hmiddle, hbus, hregisters⟩ := h.load host hop hfit hlt'
        refine ⟨middle, hexecutes, hmiddle, ?_⟩
        rw [Board.setup, hbus, hregisters]
        rfl
      | send port value =>
        have hport : port ≠ 0xFE := by
          rintro rfl
          exact hports value List.mem_cons_self
        exact h.send host hport hop hfit
          (Nat.le_trans (Nat.add_le_add_left (Nat.le_add_right _ _) _) hlt)
    -- ... and the others
    have hlt' : middle.executed + setupInstructions steps ≤ limit := by
      rw [hexecutes.executed]
      omega
    obtain ⟨next, hothers, hnext, hrun⟩ := ih hmiddle hrest (drop_behind hop) hlt'
    rw [Nat.add_assoc, ← List.length_append, ← hcode] at hnext
    refine ⟨next, ?_, hnext, ?_⟩
    · rw [hcount]
      exact hexecutes.trans hothers
    · rw [hrun, hstep]
      rfl

end Run

/-! ## Section 5: Setting up a machine -/

namespace Machine

/-- **Set up**: what a run of such a program comes to, if it has instructions enough. -/
structure SetUp (m : Machine) (steps : List SetupStep) (m' : Machine) (exit : Exit) : Prop where
  reason : exit.reason = .halt
  /-- The program counter is on the halt, which stands behind the steps. -/
  pc : exit.pc = 0x8000 + UInt16.ofNat (setupCode steps).length ∧ m'.board.cpu.pc = exit.pc
  serviced : exit.serviced = #[]
  loaded : ∀ target : ArgumentPair, m'.board.cpu.pair target.pair =
    (lastGiven (SetupStep.loaded? target) steps).getD 0
  sent : m'.board.cpu.a = (lastGiven SetupStep.sent? steps).getD 0xFF
  slots : m'.board.bus.slotSelect =
    (lastGiven (SetupStep.sentTo? 0xA8) steps).getD m.board.bus.slotSelect
  /-- The registers of the segments, that of page 2 among them, to which nothing is sent. -/
  selected : ∀ (port : UInt8) (page : Page), port.toNat = 0xFC + page.val →
    m'.board.bus.selected.get page =
      (lastGiven (SetupStep.sentTo? port) steps).getD (m.board.bus.selected.get page)
  /-- Memory is as it was once the program was loaded. -/
  segments : m'.board.bus.segments =
    (m.load programAddress (setupProgram steps).code).board.bus.segments
  roms : m'.board.bus.roms = m.board.bus.roms
  guard : m'.guard = m.guard

/-- With one instruction more than the steps need, the run comes to the halt. -/
theorem finish?_setup (host : Host) (m : Machine) {steps : List SetupStep}
    (hports : ∀ value, .send 0xFE value ∉ steps)
    (hfit : (setupProgram steps).code.length ≤ pageSize) :
    ∃ last, ((m.load programAddress (setupProgram steps).code).start programAddress).finish? host
        (setupInstructions steps + 1) = some (last, .halt) ∧
      last.executed = setupInstructions steps + 1 ∧
      last.board.cpu.pc = codeAddress (setupCode steps).length ∧
      last.board.setup = Setup.run
        ⟨resetRegisters, (m.load programAddress (setupProgram steps).code).board.bus⟩ steps ∧
      last.guard = m.guard ∧ last.serviced = #[] := by
  have hcode := code_setupProgram steps
  have hstart : ((m.load programAddress (setupProgram steps).code).start programAddress).Poised
      (setupProgram steps).code (codeAddress 0) stackTop none :=
    ⟨rfl, rfl, rfl, rfl, fun _ hi => peek_load_code hfit hi⟩
  have hleft : ((m.load programAddress (setupProgram steps).code).start programAddress).executed +
      setupInstructions steps ≤ setupInstructions steps + 1 := by
    show 0 + setupInstructions steps ≤ _
    omega
  obtain ⟨before, hexecutes, hbefore, hsetup⟩ := hstart.setup host hports hcode hfit hleft
  have hcount : before.executed = 0 + setupInstructions steps := hexecutes.executed
  have hop : (setupProgram steps).code.drop (0 + (setupCode steps).length) =
      Operation.halt.code ++ [] := by
    rw [hcode, Nat.zero_add, List.drop_left, List.append_nil]
  have hlast : before.executed < setupInstructions steps + 1 := by omega
  obtain ⟨last, hturn, hpc, hbus, hregisters, hguard, hserviced⟩ :=
    hbefore.halt host hop hfit hlast
  have hexecuted : last.executed = before.executed + 1 := by
    obtain ⟨-, -, -, hexecuted⟩ | ⟨hreason, -⟩ := Run.turn_stops hturn
    · exact hexecuted
    · exact nomatch hreason
  rw [Nat.zero_add] at hpc hcount
  refine ⟨last, Run.finish?_eq_some_iff.mpr ⟨before, hexecutes.reaches, hturn⟩, ?_, hpc, ?_, ?_, ?_⟩
  · rw [hexecuted, hcount]
  · rw [Board.setup, hregisters, hbus]
    exact hsetup
  · rw [hguard, hexecutes.guard, load_eq]
    rfl
  · rw [hserviced, hexecutes.serviced]
    rfl

/-- **The outcome** of a run that ends on the halt is that of the setup without a machine. -/
theorem setUp_of_setup {m : Machine} {steps : List SetupStep} {last : Run}
    (hpc : last.board.cpu.pc = codeAddress (setupCode steps).length)
    (hsetup : last.board.setup = Setup.run
      ⟨resetRegisters, (m.load programAddress (setupProgram steps).code).board.bus⟩ steps)
    (hguard : last.guard = m.guard) (hserviced : last.serviced = #[]) (limit : Nat)
    (nextDevice : DeviceId) :
    SetUp m steps ⟨last.board, last.clock, last.guard, limit, nextDevice⟩
      ⟨.halt, cyclesOf last.clock, last.board.cpu.pc, last.serviced⟩ := by
  have hregisters : ∀ target : ArgumentPair,
      last.board.cpu.pair target.pair = last.board.setup.pair target := by
    intro target
    cases target <;> rfl
  have hlayout := m.sameLayout_load programAddress (setupProgram steps).code
  have hmap : last.board.bus = _ := congrArg Setup.map hsetup
  obtain ⟨hsegments, hroms⟩ := Setup.memory_run
    ⟨resetRegisters, (m.load programAddress (setupProgram steps).code).board.bus⟩ steps
  refine {
    reason := rfl
    pc := ⟨hpc, rfl⟩
    serviced := hserviced
    loaded := ?loaded
    sent := ?sent
    slots := ?slots
    selected := ?selected
    segments := ?segments
    roms := ?roms
    guard := hguard }
  case loaded =>
    intro target
    rw [hregisters, hsetup, Setup.pair_run]
    cases target <;> rfl
  case sent =>
    exact (congrArg (fun s => s.registers.a) hsetup).trans (Setup.a_run _ _)
  case slots =>
    show last.board.bus.slotSelect = _
    rw [hmap, Setup.slotSelect_run, hlayout.slotSelect]
    rfl
  case selected =>
    intro port page hport
    show last.board.bus.selected.get page = _
    rw [hmap, Setup.selected_run _ _ hport, hlayout.selected]
  case segments =>
    show last.board.bus.segments = _
    rw [hmap]
    exact hsegments
  case roms =>
    show last.board.bus.roms = _
    rw [hmap]
    exact hroms.trans hlayout.roms

/-- **Programs of loads and port writes do what they say.** A program of such steps, of at most 16K
    with the halt behind them, is loaded to page 2 of any machine and run; it sends nothing to the
    register of page 2. It halts exactly if it may execute one instruction more than its steps need.
    Then the program counter is on the halt, nothing was answered, each register holds what was last
    loaded into it, `A` what was last sent, and the registers of slots and segments what was last
    sent to them, or else what they held before. No byte of memory changes while it runs. -/
theorem setups_run (host : Host) (m : Machine) {steps : List SetupStep}
    (hports : ∀ value, .send 0xFE value ∉ steps)
    (hfit : (setupProgram steps).code.length ≤ 0x4000) :
    ∃ m' exit, m.runProgram? host (setupProgram steps) = some (m', exit) ∧
      (setupInstructions steps < m.limit → SetUp m steps m' exit) ∧
      (m.limit ≤ setupInstructions steps → exit.reason = .instructionLimit) := by
  have hloaded : (m.load programAddress (setupProgram steps).code).limit = m.limit := by
    rw [load_eq]
  obtain ⟨last, hfinish, hexecuted, hpc, hsetup, hguard, hserviced⟩ :=
    finish?_setup host m hports hfit
  by_cases hlimit : setupInstructions steps < m.limit
  · have hrun := Run.finish?_of_halt hfinish hlimit
    rw [← hloaded] at hrun
    refine ⟨_, _, run?_of_finish? hrun, fun _ => ?_,
      fun hle => absurd hlimit (Nat.not_lt_of_le hle)⟩
    exact setUp_of_setup hpc hsetup hguard hserviced _ _
  · have hlt : m.limit < last.executed := by omega
    obtain ⟨last', hrun⟩ := Run.exists_finish?_of_lt hfinish hlt
    rw [← hloaded] at hrun
    exact ⟨_, _, run?_of_finish? hrun, fun hlt => absurd hlt hlimit, fun _ => rfl⟩

/-- Pages 0 and 2 show the same segment, and the program that runs there switches page 0 to another
    one, takes RAM out of page 1, and selects a segment for it all the same. -/
theorem setups_run_switching_pages :
    let host : Host := ⟨fun _ => false, fun _ => .ok []⟩
    let m := (Machine.new 4).selectSegment 2 3
    let steps : List SetupStep :=
      [.load .de 0x1234, .send 0xA8 0, .send 0xFC 1, .load .ix 0xABCD, .load .de 5, .send 0xFD 2]
    (∀ value, .send 0xFE value ∉ steps) ∧ (setupProgram steps).code.length ≤ 0x4000 ∧
      ∃ m' exit, m.runProgram? host (setupProgram steps) = some (m', exit) ∧
        exit.reason = .halt ∧ exit.pc = 0x8016 ∧ exit.serviced = #[] ∧
        m'.board.cpu.de = 5 ∧ m'.board.cpu.hl = 0 ∧ m'.board.cpu.ix = 0xABCD ∧
        m'.board.cpu.a = 2 ∧ m'.board.bus.slotSelect = 0 ∧
        ∀ page : Page, m'.board.bus.selected.get page = #v[1, 2, 3, 0].get page := by
  intro host m steps
  have hports : ∀ value, .send 0xFE value ∉ steps := by simp [steps]
  have hfit : (setupProgram steps).code.length ≤ 0x4000 := by decide
  obtain ⟨m', exit, hrun, hsetUp, -⟩ := setups_run host m hports hfit
  have h : SetUp m steps m' exit := hsetUp (by decide)
  refine ⟨hports, hfit, m', exit, hrun, h.reason, h.pc.1.trans (by decide), h.serviced,
    (h.loaded .de).trans (by decide), (h.loaded .hl).trans (by decide),
    (h.loaded .ix).trans (by decide), h.sent.trans (by decide), h.slots.trans (by decide), ?_⟩
  intro page
  rw [h.selected (0xFC + UInt8.ofNat page.val) page (by revert page; decide)]
  revert page
  decide

end Machine

end HostDrive

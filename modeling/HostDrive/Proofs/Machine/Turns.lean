import HostDrive.Machine.Run
import HostDrive.Proofs.Machine.Layout

/-!
# Turns of a Run

What one turn of a run can do, said once, and which runs a run comes by.

## Architecture

- `turn_cases` is the step: out of instructions, an answered call, or one instruction.
- `Reaches` is its closure over turns that do not stop the run.
- `finish?_eq_some_iff` ties the outcome of a run to the turns that lead there.
-/

namespace HostDrive

namespace Run

variable {host : Host} {limit : Nat}

/-! ## Section 1: One turn -/

/-- The run after its guard answered a call. -/
def answered (run : Run) (guard : Guard) (host : Host) (service : Service) : Run where
  board := (guard.fetch ⟨host, run.board⟩).2.2
  clock := run.clock
  guard := some (guard.fetch ⟨host, run.board⟩).1
  executed := run.executed
  serviced := run.serviced.push service

/-- The guard, if there is one, answers the next fetch. -/
def IsAnswered (host : Host) (run : Run) : Prop :=
  ∃ guard, run.guard = some guard ∧ guard.Services ⟨host, run.board⟩

theorem turn_of_limit {run : Run} (hlimit : limit ≤ run.executed) :
    run.turn host limit = (run, some .instructionLimit) := if_pos hlimit

theorem turn_of_unguarded {run : Run} (hlt : run.executed < limit) (hguard : run.guard = none) :
    run.turn host limit = run.executeOrStop := by
  obtain ⟨board, clock, guard, executed, serviced⟩ := run
  obtain rfl : guard = none := hguard
  exact if_neg (Nat.not_le_of_lt hlt)

theorem turn_of_services {run : Run} {guard : Guard} {entry : EntryPoint} {status : Status}
    (hlt : run.executed < limit) (hguard : run.guard = some guard)
    (hserviced : (guard.fetch ⟨host, run.board⟩).2.1 = .serviced entry status) :
    run.turn host limit = (run.answered guard host ⟨entry, status⟩, none) := by
  obtain ⟨board, clock, guard', executed, serviced⟩ := run
  obtain rfl : guard' = some guard := hguard
  have hfetch : (guard.beforeFetch host board).2.1 = .serviced entry status := hserviced
  unfold turn
  rw [if_neg (Nat.not_le_of_lt hlt)]
  simp only [hfetch]
  rfl

theorem turn_of_not_services {run : Run} {guard : Guard} (hlt : run.executed < limit)
    (hguard : run.guard = some guard) (hnot : ¬ guard.Services ⟨host, run.board⟩) :
    run.turn host limit = run.executeOrStop := by
  obtain ⟨board, clock, guard', executed, serviced⟩ := run
  obtain rfl : guard' = some guard := hguard
  have hquiet : guard.beforeFetch host board = (guard, .notHooked, board) ∨
      guard.beforeFetch host board = (guard, .passthrough, board) := by
    obtain ⟨-, hfetch⟩ | ⟨-, -, hfetch⟩ | ⟨entry, _, -, -, hfetch⟩ :=
      guard.fetch_cases ⟨host, board⟩
    · exact .inl hfetch
    · exact .inr hfetch
    · exact absurd ⟨entry, _, congrArg (·.2.1) hfetch⟩ hnot
  unfold turn
  rw [if_neg (Nat.not_le_of_lt hlt)]
  rcases hquiet with h | h <;> simp only [h]

/-- A fetch that is not answered comes to an instruction. -/
theorem turn_of_not_answered {run : Run} (hlt : run.executed < limit)
    (hnot : ¬ run.IsAnswered host) : run.turn host limit = run.executeOrStop := by
  cases hguard : run.guard with
  | none => exact turn_of_unguarded hlt hguard
  | some guard =>
    apply turn_of_not_services hlt hguard
    intro hservices
    exact hnot ⟨guard, hguard, hservices⟩

/-- **What a turn can do**: stop as the instructions are used up, let the guard answer a call, or
    execute one instruction. -/
theorem turn_cases (host : Host) (limit : Nat) (run : Run) :
    (limit ≤ run.executed ∧ run.turn host limit = (run, some .instructionLimit)) ∨
    (run.executed < limit ∧ ∃ guard service, run.guard = some guard ∧
      guard.Services ⟨host, run.board⟩ ∧
      run.turn host limit = (run.answered guard host service, none)) ∨
    (run.executed < limit ∧ ¬ run.IsAnswered host ∧
      run.turn host limit = run.executeOrStop) := by
  by_cases hlimit : limit ≤ run.executed
  · exact .inl ⟨hlimit, turn_of_limit hlimit⟩
  · have hlt := Nat.lt_of_not_le hlimit
    by_cases hanswered : run.IsAnswered host
    · obtain ⟨guard, hguard, entry, status, hserviced⟩ := hanswered
      exact .inr (.inl ⟨hlt, guard, ⟨entry, status⟩, hguard, ⟨entry, status, hserviced⟩,
        turn_of_services hlt hguard hserviced⟩)
    · exact .inr (.inr ⟨hlt, hanswered, turn_of_not_answered hlt hanswered⟩)

/-- A turn that executes an instruction counts it, and stops the run only if it was a halt. -/
theorem executeOrStop_cases (run : Run) :
    run.executeOrStop.1.executed = run.executed + 1 ∧
    (run.executeOrStop.2 = none ∨
      run.executeOrStop.2 = some .halt ∧ run.executeOrStop.1.board.cpu.halted = true) := by
  refine ⟨rfl, ?_⟩
  by_cases hhalted : run.execute.board.cpu.halted = true
  · exact .inr ⟨if_pos hhalted, hhalted⟩
  · exact .inl (if_neg hhalted)

/-- A turn that stops the run says why: the processor halted, or the instructions are used up. -/
theorem turn_stops {run last : Run} {reason : StopReason}
    (h : run.turn host limit = (last, some reason)) :
    (reason = .halt ∧ last.board.cpu.halted = true ∧ run.executed < limit ∧
      last.executed = run.executed + 1) ∨
    (reason = .instructionLimit ∧ last = run ∧ limit ≤ run.executed) := by
  obtain ⟨hlimit, hturn⟩ | ⟨-, _, _, -, -, hturn⟩ | ⟨hlt, -, hturn⟩ := turn_cases host limit run
  · obtain ⟨rfl, hreason⟩ := Prod.mk.inj (hturn.symm.trans h)
    exact .inr ⟨(Option.some.inj hreason).symm, rfl, hlimit⟩
  · exact nomatch (Prod.mk.inj (hturn.symm.trans h)).2
  · obtain ⟨hexecuted, hnone | ⟨hhalt, hhalted⟩⟩ := run.executeOrStop_cases
    · rw [hturn] at h
      exact nomatch hnone.symm.trans (congrArg Prod.snd h)
    · rw [hturn] at h
      rw [h] at hexecuted hhalt hhalted
      exact .inl ⟨Option.some.inj hhalt, hhalted, hlt, hexecuted⟩

/-! ## Section 2: The runs that a run comes by -/

/-- **Reached by turns** that do not stop the run. -/
inductive Reaches (host : Host) (limit : Nat) : Run → Run → Prop where
  | here (run : Run) : Reaches host limit run run
  | turn {run next last : Run} (hturn : run.turn host limit = (next, none))
      (hrest : Reaches host limit next last) : Reaches host limit run last

/-- A run ends as the runs that it comes by end. -/
theorem finish?_of_reaches {run last : Run} (h : Reaches host limit run last) :
    run.finish? host limit = last.finish? host limit := by
  induction h with
  | here => rfl
  | turn hturn _ ih =>
    rw [finish?, hturn]
    exact ih

/-- A run has an outcome exactly when it comes by a run whose turn stops it, with that outcome. -/
theorem finish?_eq_some_iff {run last : Run} {reason : StopReason} :
    run.finish? host limit = some (last, reason) ↔
      ∃ before, Reaches host limit run before ∧ before.turn host limit = (last, some reason) := by
  constructor
  · intro h
    -- what holds of every outcome that one turn settles or hands on holds of all outcomes
    refine finish?.partial_correctness host limit (fun run outcome => ∃ before,
      Reaches host limit run before ∧
        before.turn host limit = (outcome.1, some outcome.2)) ?_ run (last, reason) h
    intro finish ih run outcome houtcome
    cases hturn : run.turn host limit with
    | mk next reason? =>
      rw [hturn] at houtcome
      cases reason? with
      | some reason =>
        obtain rfl : (next, reason) = outcome := Option.some.inj houtcome
        exact ⟨run, .here run, hturn⟩
      | none =>
        obtain ⟨before, hreaches, hstop⟩ := ih next outcome houtcome
        exact ⟨before, .turn hturn hreaches, hstop⟩
  · rintro ⟨before, hreaches, hstop⟩
    rw [finish?_of_reaches hreaches, finish?, hstop]

/-- No turn takes back an executed instruction, and none goes past the limit. -/
theorem Reaches.executed_le {run last : Run} (h : Reaches host limit run last) :
    run.executed ≤ last.executed ∧ (run.executed ≤ limit → last.executed ≤ limit) := by
  induction h with
  | here => exact ⟨Nat.le_refl _, id⟩
  | @turn run next last hturn _ ih =>
    obtain ⟨hle, hlimit⟩ := ih
    obtain ⟨-, hstop⟩ | ⟨-, guard, service, -, -, hanswered⟩ | ⟨hlt, -, hexecute⟩ :=
      turn_cases host limit run
    · exact nomatch (Prod.mk.inj (hstop.symm.trans hturn)).2
    · obtain ⟨rfl, -⟩ := Prod.mk.inj (hanswered.symm.trans hturn)
      exact ⟨hle, hlimit⟩
    · have hexecuted := run.executeOrStop_cases.1
      rw [← hexecute, hturn] at hexecuted
      simp only at hexecuted
      exact ⟨by omega, fun _ => hlimit (by omega)⟩

end Run

end HostDrive

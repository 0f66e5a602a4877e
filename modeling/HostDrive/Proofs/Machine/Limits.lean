import HostDrive.Proofs.Machine.Operations
import HostDrive.Proofs.Machine.Termination

/-!
# Runs Under Larger Limits

A turn looks at the limit only to see whether instructions are left. So two runs of a machine that
may execute different numbers of instructions come by the same states until the smaller number is
used up: what halts before that halts in the same way under every larger limit, and what was
answered before that was answered under the larger limit too.

## Architecture

- `Run.turn_of_lt` is the step: while instructions are left under two limits, a turn is the same
  under both.
- `Run.finish?_of_halt` carries a halt to a larger limit, `Run.exists_finish?_of_le` an outcome to a
  smaller one.
- `Run.Reaches.serviced_prefix`: the log only grows, which compares the logs of both.
- `Machine.halts_under_larger_limit` puts them together.
-/

namespace HostDrive

namespace Run

variable {host : Host} {limit small large : Nat} {run last : Run}

/-! ## Section 1: Turns -/

/-- **The step**: while instructions are left, a turn does not depend on the limit. -/
theorem turn_of_lt (hsmall : run.executed < small) (hlarge : run.executed < large) :
    run.turn host large = run.turn host small := by
  unfold turn
  rw [if_neg (Nat.not_le_of_lt hsmall), if_neg (Nat.not_le_of_lt hlarge)]

/-- A turn that does not stop for the limit has instructions left. -/
theorem executed_lt_of_turn {reason? : Option StopReason}
    (hturn : run.turn host limit = (last, reason?)) (hreason : reason? ≠ some .instructionLimit) :
    run.executed < limit := by
  apply Nat.lt_of_not_le
  intro hlimit
  exact hreason (Prod.mk.inj (hturn.symm.trans (turn_of_limit hlimit))).2

/-- A run whose instructions are used up ends at once. -/
theorem finish?_of_limit (hlimit : limit ≤ run.executed) :
    run.finish? host limit = some (run, .instructionLimit) := by
  rw [finish?, turn_of_limit hlimit]

/-- A turn adds to the log at most. -/
theorem serviced_turn_prefix (host : Host) (limit : Nat) (run : Run) :
    run.serviced.toList <+: (run.turn host limit).1.serviced.toList := by
  obtain ⟨-, hturn⟩ | ⟨-, guard, service, -, -, hturn⟩ | ⟨-, -, hturn⟩ := turn_cases host limit run
  · exact hturn ▸ List.prefix_refl _
  · rw [hturn]
    show run.serviced.toList <+: (run.serviced.push service).toList
    rw [Array.toList_push]
    exact List.prefix_append _ _
  · have hlog : (run.turn host limit).1.serviced = run.serviced := congrArg (·.1.serviced) hturn
    exact hlog ▸ List.prefix_refl _

/-! ## Section 2: Runs -/

/-- **The log only grows** from turn to turn. -/
theorem Reaches.serviced_prefix (h : Reaches host limit run last) :
    run.serviced.toList <+: last.serviced.toList := by
  induction h with
  | here => exact List.prefix_refl _
  | @turn run next last hturn _ ih =>
    have hstep := serviced_turn_prefix host limit run
    rw [hturn] at hstep
    exact hstep.trans ih

/-- What a run comes by under a limit it comes by under a larger one. -/
theorem Reaches.of_le (h : Reaches host small run last) (hle : small ≤ large) :
    Reaches host large run last := by
  induction h with
  | here => exact .here _
  | turn hturn _ ih =>
    have hlt := executed_lt_of_turn hturn nofun
    exact .turn ((turn_of_lt hlt (Nat.lt_of_lt_of_le hlt hle)).trans hturn) ih

/-- **A halt stays a halt** under a larger limit, and leaves the same run. -/
theorem finish?_of_halt (h : run.finish? host small = some (last, .halt)) (hle : small ≤ large) :
    run.finish? host large = some (last, .halt) := by
  obtain ⟨before, hreaches, hstop⟩ := finish?_eq_some_iff.mp h
  have hlt := executed_lt_of_turn hstop nofun
  exact finish?_eq_some_iff.mpr ⟨before, hreaches.of_le hle,
    (turn_of_lt hlt (Nat.lt_of_lt_of_le hlt hle)).trans hstop⟩

/-- A run that ends has at least the log that it started with. -/
theorem serviced_prefix_of_finish? {reason : StopReason}
    (h : run.finish? host limit = some (last, reason)) :
    run.serviced.toList <+: last.serviced.toList := by
  obtain ⟨before, hreaches, hstop⟩ := finish?_eq_some_iff.mp h
  have hlast := serviced_turn_prefix host limit before
  rw [hstop] at hlast
  exact hreaches.serviced_prefix.trans hlast

/-- **A run that ends under a limit ends under a smaller one**, with a part of the log at least. It
    halts under the smaller one only if it halts under both. -/
theorem exists_finish?_of_le {reason : StopReason}
    (h : run.finish? host large = some (last, reason)) (hle : small ≤ large) :
    ∃ last' reason', run.finish? host small = some (last', reason') ∧
      last'.serviced.toList <+: last.serviced.toList ∧ (reason' = .halt → reason = .halt) := by
  obtain ⟨before, hreaches, hstop⟩ := finish?_eq_some_iff.mp h
  -- on the turns under the larger limit: where the smaller one is used up, the run ends there
  induction hreaches with
  | here run =>
    by_cases hlt : run.executed < small
    · have hturn := (turn_of_lt hlt (Nat.lt_of_lt_of_le hlt hle)).symm.trans hstop
      exact ⟨last, reason, finish?_eq_some_iff.mpr ⟨run, .here run, hturn⟩, List.prefix_refl _, id⟩
    · exact ⟨run, .instructionLimit, finish?_of_limit (Nat.le_of_not_lt hlt),
        serviced_prefix_of_finish? h, nofun⟩
  | @turn run next before hturn _ ih =>
    by_cases hlt : run.executed < small
    · have hsame := (turn_of_lt hlt (Nat.lt_of_lt_of_le hlt hle)).symm.trans hturn
      rw [finish?_of_reaches (.turn hturn (.here next))] at h
      rw [finish?_of_reaches (.turn hsame (.here next))]
      exact ih h hstop
    · exact ⟨run, .instructionLimit, finish?_of_limit (Nat.le_of_not_lt hlt),
        serviced_prefix_of_finish? h, nofun⟩

/-- **A run that halts needs all its instructions**: with fewer it ends as they are used up. -/
theorem exists_finish?_of_lt (h : run.finish? host large = some (last, .halt))
    (hlt : small < last.executed) :
    ∃ last', run.finish? host small = some (last', .instructionLimit) := by
  have hcount : ∀ {limit}, run.finish? host limit = some (last, .halt) → last.executed ≤ limit := by
    intro limit hfinish
    obtain ⟨before, -, hstop⟩ := finish?_eq_some_iff.mp hfinish
    obtain ⟨-, -, hleft, hexecuted⟩ | ⟨hreason, -⟩ := turn_stops hstop
    · rw [hexecuted]
      exact hleft
    · exact nomatch hreason
  have hle : small ≤ large := Nat.le_of_lt (Nat.lt_of_lt_of_le hlt (hcount h))
  obtain ⟨last', reason', hfinish, -⟩ := exists_finish?_of_le h hle
  cases reason' with
  | instructionLimit => exact ⟨last', hfinish⟩
  | halt =>
    -- a halt under the smaller limit would be the same halt
    have hsame := (finish?_of_halt hfinish hle).symm.trans h
    obtain ⟨rfl, -⟩ := Prod.mk.inj (Option.some.inj hsame)
    exact absurd (hcount hfinish) (Nat.not_le_of_lt hlt)

end Run

/-! ## Section 3: Machines -/

namespace Machine

/-- **A machine under two limits.** If a run of the machine halts under a limit, it halts under
    every larger one, with the same outcome, and leaves the same machine and the same guard. If a
    run ends under a limit, it ends under every smaller one; what was answered under the smaller
    limit is the first part of what was answered under the larger one, and if even the larger limit
    was used up, so was the smaller one. -/
theorem halts_under_larger_limit (host : Host) (m : Machine) (address : UInt16) {small large : Nat}
    (hle : small ≤ large) :
    (∀ m' exit, { m with limit := small }.run? host address = some (m', exit) →
      exit.reason = .halt →
      { m with limit := large }.run? host address = some ({ m' with limit := large }, exit)) ∧
    ∀ m' exit, { m with limit := large }.run? host address = some (m', exit) →
      ∃ m'' exit', { m with limit := small }.run? host address = some (m'', exit') ∧
        exit'.serviced.toList <+: exit.serviced.toList ∧
        (exit.reason = .instructionLimit → exit'.reason = .instructionLimit) := by
  constructor
  · intro m' exit hrun hhalt
    obtain ⟨last, hfinish, -⟩ := run?_eq_some hrun
    rw [hhalt] at hfinish
    rw [run?_of_finish? hfinish] at hrun
    obtain ⟨rfl, rfl⟩ := Prod.mk.inj (Option.some.inj hrun)
    exact run?_of_finish? (m := { m with limit := large }) (Run.finish?_of_halt hfinish hle)
  · intro m' exit hrun
    obtain ⟨last, hfinish, -, -, hserviced⟩ := run?_eq_some hrun
    obtain ⟨last', reason', hfinish', hpart, hhalt⟩ := Run.exists_finish?_of_le hfinish hle
    refine ⟨_, _, run?_of_finish? (m := { m with limit := small }) hfinish', ?_, ?_⟩
    · rw [hserviced]
      exact hpart
    · intro hlimit
      cases reason' with
      | halt => exact nomatch hlimit.symm.trans (hhalt rfl)
      | instructionLimit => rfl

/-- A machine that finds a halt where it starts needs one instruction, and with five it does the
    same. A machine with the driver module that starts with a call uses up one instruction behind
    it; with none the call is not answered. -/
theorem halts_under_larger_limit_of_one :
    let host : Host := ⟨fun _ => false, fun _ => .ok []⟩
    let m := (Machine.new 4).load programAddress (Program.code [.halt])
    (1 ≤ 5 ∧ ∃ m' exit, { m with limit := 1 }.run? host programAddress = some (m', exit) ∧
      exit.reason = .halt ∧
      { m with limit := 5 }.run? host programAddress = some ({ m' with limit := 5 }, exit)) ∧
    let guarded : Machine :=
      { (Machine.new 4).attach ⟨Drive.new ⟨"/none"⟩ "L", none⟩ with limit := 1 }
    ∃ m₁ m' exit m'' exit', guarded.installDriver 2 = .ok m₁ ∧
      { m₁ with limit := 1 }.run? host 0x4020 = some (m', exit) ∧
      exit.reason = .instructionLimit ∧ exit.serviced = #[⟨.alloc, .ok⟩] ∧
      { m₁ with limit := 0 }.run? host 0x4020 = some (m'', exit') ∧
      exit'.reason = .instructionLimit ∧ exit'.serviced.toList <+: [⟨.alloc, .ok⟩] := by
  intro host m
  constructor
  · have hle : 1 ≤ 5 := by decide
    have hflat : (Machine.new 4).board.bus.IsFlat := MemoryMap.isFlat_of_reset rfl rfl
    have hpoised : (m.start programAddress).Poised (Program.code [.halt]) (codeAddress 0) stackTop
        none := by
      refine ⟨rfl, rfl, rfl, rfl, fun i hi => ?_⟩
      exact peek_load_add hflat programAddress (by decide) hi
    have hop : (Program.code [.halt]).drop 0 = Operation.halt.code ++ [] := rfl
    obtain ⟨last, hturn, -⟩ := hpoised.halt host hop (by decide) Nat.zero_lt_one
    have hfinish : (m.start programAddress).finish? host 1 = some (last, .halt) :=
      Run.finish?_eq_some_iff.mpr ⟨_, .here _, hturn⟩
    have hrun := run?_of_finish? (m := { m with limit := 1 }) hfinish
    exact ⟨hle, _, _, hrun, rfl,
      (halts_under_larger_limit host m programAddress hle).1 _ _ hrun rfl⟩
  · obtain ⟨m₁, m', exit, hinstall, hrun, hlimit, -, -, -, hreason, hserviced⟩ :=
      run?_installed host (Drive.new ⟨"/none"⟩ "L")
    have hsame : { m₁ with limit := 1 } = m₁ := by
      rw [← hlimit]
    rw [← hsame] at hrun
    obtain ⟨m'', exit', hrun', hpart, hused⟩ :=
      (halts_under_larger_limit host m₁ 0x4020 (Nat.zero_le 1)).2 m' exit hrun
    rw [hserviced] at hpart
    exact ⟨m₁, m', exit, m'', exit', hinstall, hrun, hreason, hserviced, hrun', hused hreason,
      hpart⟩

end Machine

end HostDrive

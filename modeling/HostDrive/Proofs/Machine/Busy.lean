import HostDrive.Proofs.Machine.Turns

/-!
# Drives Kept Busy

An answered call does not count as an instruction, so the limit on instructions alone does not end a
run: if every return address that the answered calls pop is an entry point again, the drive answers
forever. That is the only way in which a run can fail to end.

## Architecture

- `Guard.afterFetches` is guard and board after some fetches, with no instruction in between.
- `KeptBusy` is the condition: instructions are left, a call is answered, and the program counter
  never leaves the entry points.
- `KeptBusy.finish?_eq_none`: a turn keeps the condition, so no turn stops the run.
- `exists_finish?_of_not_keptBusy`: without it some fetch is not answered and an instruction is
  executed, which can happen only as often as the limit says.
-/

namespace HostDrive

/-! ## Section 1: Answered without end -/

namespace Guard

/-- Guard and board after a fetch. -/
def next (host : Host) (s : Guard × Board) : Guard × Board :=
  ((s.1.fetch ⟨host, s.2⟩).1, (s.1.fetch ⟨host, s.2⟩).2.2)

/-- Guard and board after a number of fetches. -/
def afterFetches (host : Host) : Nat → Guard × Board → Guard × Board
  | 0, s => s
  | n + 1, s => afterFetches host n (next host s)

/-- The guard knows the token that the driver's page shows. -/
def Knows (s : Guard × Board) (token : Token) : Prop := s.1.token = some token ∧ Shows s.2 token

variable {host : Host} {s : Guard × Board} {token : Token}

/-- An answered fetch leaves a guard that knows what shows. -/
theorem exists_knows_next (h : s.1.Services ⟨host, s.2⟩) : ∃ token, Knows (next host s) token := by
  obtain ⟨-, token, hshows, hknown⟩ := services_iff.mp h
  refine ⟨token, token_fetch.mpr ?_, shows_fetch hshows⟩
  rcases hknown with hknown | ⟨hunknown, hsigned⟩
  · exact .inl hknown
  · exact .inr ⟨hunknown, h, hshows, hsigned⟩

/-- What is known and shows stays so. -/
theorem Knows.next (h : Knows s token) : Knows (next host s) token :=
  ⟨token_fetch.mpr (.inl h.1), shows_fetch h.2⟩

theorem Knows.afterFetches (h : Knows s token) (n : Nat) : Knows (afterFetches host n s) token := by
  induction n generalizing s with
  | zero => exact h
  | succ n ih => exact ih h.next

/-- A guard that knows what shows answers at every entry point. -/
theorem Knows.services (h : Knows s token) (hpc : s.2.cpu.pc ∈ entryAddresses) :
    s.1.Services ⟨host, s.2⟩ :=
  services_iff.mpr ⟨hpc, token, h.2, .inl h.1⟩

end Guard

namespace Run

/-- **Kept busy**: instructions are left, but the guard answers a call now, and whatever return
    address that call and the later ones pop from the stack, it is an entry point again. -/
structure KeptBusy (host : Host) (limit : Nat) (run : Run) : Prop where
  left : run.executed < limit
  busy : ∃ guard, run.guard = some guard ∧ guard.Services ⟨host, run.board⟩ ∧
    ∀ n, (Guard.afterFetches host n (guard, run.board)).2.cpu.pc ∈ entryAddresses

variable {host : Host} {limit : Nat}

/-- A turn of a run that is kept busy keeps it busy. -/
theorem KeptBusy.turn {run : Run} (h : run.KeptBusy host limit) :
    ∃ next, run.turn host limit = (next, none) ∧ next.KeptBusy host limit := by
  obtain ⟨hleft, guard, hguard, hservices, hpc⟩ := h
  obtain ⟨token, hknows⟩ := Guard.exists_knows_next (s := (guard, run.board)) hservices
  have hnext : (guard.fetch ⟨host, run.board⟩).1.Services
      ⟨host, (guard.fetch ⟨host, run.board⟩).2.2⟩ := hknows.services (hpc 1)
  obtain ⟨entry, status, hserviced⟩ := hservices
  exact ⟨run.answered guard host ⟨entry, status⟩, turn_of_services hleft hguard hserviced,
    hleft, _, rfl, hnext, fun n => hpc (n + 1)⟩

theorem KeptBusy.of_reaches {run last : Run} (h : run.KeptBusy host limit)
    (hreaches : Reaches host limit run last) : last.KeptBusy host limit := by
  induction hreaches with
  | here => exact h
  | turn hturn _ ih =>
    obtain ⟨next, hnext, hbusy⟩ := h.turn
    obtain ⟨rfl, -⟩ := Prod.mk.inj (hturn.symm.trans hnext)
    exact ih hbusy

/-- **A run that is kept busy never ends.** -/
theorem KeptBusy.finish?_eq_none {run : Run} (h : run.KeptBusy host limit) :
    run.finish? host limit = none := by
  cases hfinish : run.finish? host limit with
  | none => rfl
  | some outcome =>
    obtain ⟨before, hreaches, hstop⟩ := finish?_eq_some_iff.mp hfinish
    obtain ⟨next, hturn, -⟩ := (h.of_reaches hreaches).turn
    exact nomatch (Prod.mk.inj (hstop.symm.trans hturn)).2

/-! ## Section 2: All other runs end -/

theorem Reaches.trans {run next last : Run} (h : Reaches host limit run next)
    (h' : Reaches host limit next last) : Reaches host limit run last := by
  induction h with
  | here => exact h'
  | turn hturn _ ih => exact .turn hturn (ih h')

/-- Where the program counter leaves the entry points, or the guard keeps out before, the run comes
    by a fetch that is not answered, with no instruction executed on the way. -/
theorem exists_not_answered_of_pc {n : Nat} {run : Run} {guard : Guard}
    (hlt : run.executed < limit) (hguard : run.guard = some guard)
    (hpc : (Guard.afterFetches host n (guard, run.board)).2.cpu.pc ∉ entryAddresses) :
    ∃ last, Reaches host limit run last ∧ last.executed = run.executed ∧
      ¬ last.IsAnswered host := by
  -- on the number of fetches: either this one is answered and the next is nearer, or it is the one
  induction n generalizing run guard with
  | zero =>
    refine ⟨run, .here run, rfl, ?_⟩
    rintro ⟨guard', -, hservices⟩
    exact hpc (Guard.services_iff.mp hservices).1
  | succ n ih =>
    by_cases hservices : guard.Services ⟨host, run.board⟩
    · obtain ⟨entry, status, hserviced⟩ := hservices
      have hturn := turn_of_services hlt hguard hserviced
      obtain ⟨last, hreaches, hexecuted, hnot⟩ : ∃ last,
          Reaches host limit (run.answered guard host ⟨entry, status⟩) last ∧
            last.executed = run.executed ∧ ¬ last.IsAnswered host := ih hlt rfl hpc
      exact ⟨last, .turn hturn hreaches, hexecuted, hnot⟩
    · refine ⟨run, .here run, rfl, ?_⟩
      rintro ⟨guard', hguard', hservices'⟩
      obtain rfl : guard = guard' := Option.some.inj (hguard.symm.trans hguard')
      exact hservices hservices'

/-- A run with instructions left that is not kept busy comes by a fetch that is not answered. -/
theorem exists_not_answered {run : Run} (hlt : run.executed < limit)
    (hbusy : ¬ run.KeptBusy host limit) :
    ∃ last, Reaches host limit run last ∧ last.executed = run.executed ∧
      ¬ last.IsAnswered host := by
  by_cases hanswered : run.IsAnswered host
  · obtain ⟨guard, hguard, hservices⟩ := hanswered
    by_cases hpc : ∀ n, (Guard.afterFetches host n (guard, run.board)).2.cpu.pc ∈ entryAddresses
    · exact absurd ⟨hlt, guard, hguard, hservices, hpc⟩ hbusy
    · obtain ⟨n, hn⟩ := Classical.not_forall.mp hpc
      exact exists_not_answered_of_pc hlt hguard hn
  · exact ⟨run, .here run, rfl, hanswered⟩

/-- **Every other run ends.** The measure is the number of instructions left. -/
theorem exists_finish?_of_not_keptBusy {run : Run}
    (h : ∀ last, Reaches host limit run last → ¬ last.KeptBusy host limit) :
    ∃ outcome, run.finish? host limit = some outcome := by
  -- a turn may leave the number of instructions as it is, so the induction goes from one executed
  -- instruction to the next, over all the answered calls between them
  induction hleft : limit - run.executed using Nat.strongRecOn generalizing run with
  | ind left ih =>
    by_cases hlimit : limit ≤ run.executed
    · exact ⟨_, by rw [finish?, turn_of_limit hlimit]⟩
    · have hlt := Nat.lt_of_not_le hlimit
      obtain ⟨last, hreaches, hexecuted, hnot⟩ := exists_not_answered hlt (h run (.here run))
      have hturn : last.turn host limit = last.executeOrStop :=
        turn_of_not_answered (hexecuted ▸ hlt) hnot
      rw [finish?_of_reaches hreaches]
      rcases hnext : last.executeOrStop with ⟨next, reason?⟩
      have hcount : next.executed = last.executed + 1 :=
        (congrArg (·.1.executed) hnext).symm.trans last.executeOrStop_cases.1
      cases reason? with
      | some reason => exact ⟨_, by rw [finish?, hturn, hnext]⟩
      | none =>
        have hstep : Reaches host limit last next := .turn (hturn.trans hnext) (.here next)
        rw [finish?_of_reaches hstep]
        exact ih (limit - next.executed) (by omega)
          (fun final hfinal => h final (hreaches.trans (hstep.trans hfinal))) rfl

end Run

end HostDrive

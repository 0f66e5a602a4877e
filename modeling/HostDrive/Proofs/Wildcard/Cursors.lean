import HostDrive.Proofs.Wildcard.Grammar

/-!
# Matching with Two Cursors

The matcher cuts a pattern into pieces. The same work can be done in place, with one cursor in the
pattern and one in the name: at a mismatch both go back, but only to the star that was passed last,
which then takes one more byte. This module says what such a scan does at each turn, and that it
comes to the answer of the matcher:

- no cursor ever points behind an end, so no turn goes **astray**;
- the scan ends, after no more turns than the product of the lengths has room for;
- forgetting all stars but the last loses no match.

## Architecture

- `Cursors.turn` is one turn and `Cursors.after` a run. `Moves` lists what a turn can do.
- `OnTrack` is the invariant: since the last star both cursors have gone by the same number of
  bytes, and by no other star.
- `Remains` says what is left to be matched. A turn keeps it (`Moves.remains`) and uses up
  `turnsLeft` (`Moves.turnsLeft_lt`).
- From these `OnTrack.exists_decided`, by induction on the turns that are left.
-/

namespace HostDrive.Wildcard

open Text (utf8)

/-! ## Section 1: Turns -/

/-- Where a scan stands. -/
structure Cursors where
  /-- Position in the pattern. -/
  pattern : Nat
  /-- Position in the name. -/
  name : Nat
  /-- Position of the star passed last, and the place in the name where its run ends so far. -/
  retry : Option (Nat × Nat)

/-- What a turn of a scan comes to. -/
inductive Turn where
  | goOn (c : Cursors)
  | decided (matched : Bool)
  /-- A cursor points behind an end, and there is nothing to be read. -/
  | astray

namespace Cursors

def start : Cursors := ⟨0, 0, none⟩

/-- After a mismatch the star passed last takes one more byte. Without a star there is no match. -/
def fallBack (c : Cursors) : Turn :=
  match c.retry with
  | some (starAt, place) => .goOn ⟨starAt + 1, place + 1, some (starAt, place + 1)⟩
  | none => .decided false

/-- One turn: a step over a star, a step over a byte that fits, or back to the last star. At the end
    of the name only stars may be left in the pattern. -/
def turn (pattern name : List UInt8) (c : Cursors) : Turn :=
  if c.name < name.length then
    match name[c.name]? with
    | none => .astray
    | some b =>
      match pattern[c.pattern]? with
      | none => c.fallBack
      | some p =>
        if p = star then .goOn ⟨c.pattern + 1, c.name, some (c.pattern, c.name)⟩
        else if takes p b then .goOn { c with pattern := c.pattern + 1, name := c.name + 1 }
        else c.fallBack
  else if c.pattern ≤ pattern.length then .decided ((pattern.drop c.pattern).all (· == star))
  else .astray

/-- Where a scan is after so many turns, unless it has ended before. -/
def after (pattern name : List UInt8) : Nat → Cursors → Turn
  | 0, c => .goOn c
  | turns + 1, c =>
    match c.turn pattern name with
    | .goOn c' => after pattern name turns c'
    | .decided matched => .decided matched
    | .astray => .astray

/-- Where the piece that is being compared starts, in the pattern and in the name. -/
def anchor (c : Cursors) : Nat × Nat :=
  match c.retry with
  | some (starAt, place) => (starAt + 1, place)
  | none => (0, 0)

end Cursors

variable {pattern name : List UInt8} {c c' : Cursors}

/-- **The invariant of a scan**: both cursors are within bounds, have gone by the same number of
    bytes since the piece began, and the pattern has no star between its beginning and the
    cursor. -/
structure OnTrack (pattern name : List UInt8) (c : Cursors) : Prop where
  anchor_le : c.anchor.1 ≤ c.pattern
  inStep : c.pattern + c.anchor.2 = c.name + c.anchor.1
  pattern_le : c.pattern ≤ pattern.length
  name_le : c.name ≤ name.length
  piece : ∃ piece, star ∉ piece ∧ pattern.drop c.anchor.1 = piece ++ pattern.drop c.pattern

theorem onTrack_start : OnTrack pattern name .start where
  anchor_le := Nat.le_refl _
  inStep := rfl
  pattern_le := Nat.zero_le _
  name_le := Nat.zero_le _
  piece := ⟨[], List.not_mem_nil, rfl⟩

/-- The pattern has nothing at the cursor that takes the next byte of the name. -/
def Mismatch (pattern name : List UInt8) (c : Cursors) : Prop :=
  ∃ b, name[c.name]? = some b ∧
    ∀ p, pattern[c.pattern]? = some p → p ≠ star ∧ takes p b = false

/-- **What a turn can do.** -/
inductive Moves (pattern name : List UInt8) (c : Cursors) : Turn → Prop
  | passStar (hname : c.name < name.length) (hp : pattern[c.pattern]? = some star) :
      Moves pattern name c (.goOn ⟨c.pattern + 1, c.name, some (c.pattern, c.name)⟩)
  | passByte {p b : UInt8} (hb : name[c.name]? = some b) (hp : pattern[c.pattern]? = some p)
      (hstar : p ≠ star) (htakes : takes p b = true) :
      Moves pattern name c (.goOn { c with pattern := c.pattern + 1, name := c.name + 1 })
  | goBack {starAt place : Nat} (hmiss : Mismatch pattern name c)
      (hretry : c.retry = some (starAt, place)) :
      Moves pattern name c (.goOn ⟨starAt + 1, place + 1, some (starAt, place + 1)⟩)
  | giveUp (hmiss : Mismatch pattern name c) (hretry : c.retry = none) :
      Moves pattern name c (.decided false)
  | finish (hname : c.name = name.length) :
      Moves pattern name c (.decided ((pattern.drop c.pattern).all (· == star)))

/-- Going back is all that is left after a mismatch. -/
private theorem moves_fallBack (hmiss : Mismatch pattern name c) :
    Moves pattern name c c.fallBack := by
  unfold Cursors.fallBack
  split
  · rename_i hretry
    exact .goBack hmiss hretry
  · rename_i hretry
    exact .giveUp hmiss hretry

/-- **A scan on its track does nothing else**, and never goes astray. -/
theorem OnTrack.moves (h : OnTrack pattern name c) :
    Moves pattern name c (c.turn pattern name) := by
  unfold Cursors.turn
  split
  · rename_i hname
    rw [List.getElem?_eq_getElem hname]
    have hb := List.getElem?_eq_getElem hname
    cases hp : pattern[c.pattern]? with
    | none => exact moves_fallBack ⟨_, hb, fun p hp' => nomatch hp.symm.trans hp'⟩
    | some p =>
      simp only
      split
      · rename_i hstar
        exact .passStar hname (hstar ▸ hp)
      · rename_i hstar
        split
        · rename_i htakes
          exact .passByte hb hp hstar htakes
        · rename_i htakes
          refine moves_fallBack ⟨_, hb, fun p' hp' => ?_⟩
          obtain rfl : p = p' := Option.some.inj (hp.symm.trans hp')
          exact ⟨hstar, Bool.eq_false_iff.mpr htakes⟩
  · rename_i hname
    rw [if_pos h.pattern_le]
    exact .finish (Nat.le_antisymm h.name_le (Nat.le_of_not_lt hname))

/-! ## Section 2: The invariant -/

/-- A position with a byte is within bounds, and the byte is the next one there. -/
private theorem drop_of_getElem? {s : List UInt8} {k : Nat} {b : UInt8} (h : s[k]? = some b) :
    k < s.length ∧ s.drop k = b :: s.drop (k + 1) := by
  obtain ⟨hk, rfl⟩ := List.getElem?_eq_some_iff.mp h
  exact ⟨hk, List.drop_eq_getElem_cons hk⟩

/-- **A turn keeps the track.** -/
theorem Moves.onTrack (hmoves : Moves pattern name c (.goOn c')) (h : OnTrack pattern name c) :
    OnTrack pattern name c' := by
  cases hmoves with
  | passStar hname hp =>
    -- a new piece begins behind the star
    exact ⟨Nat.le_refl _, Nat.add_comm _ _, (drop_of_getElem? hp).1, h.name_le,
      [], List.not_mem_nil, rfl⟩
  | @passByte p b hb hp hstar htakes =>
    obtain ⟨piece, hpiece, hdrop⟩ := h.piece
    obtain ⟨hlt, hp⟩ := drop_of_getElem? hp
    refine ⟨Nat.le_succ_of_le h.anchor_le, ?_, hlt, (drop_of_getElem? hb).1, ?_⟩
    · exact (Nat.succ_add _ _).trans ((congrArg Nat.succ h.inStep).trans (Nat.succ_add _ _).symm)
    · refine ⟨piece.concat p, ?_, hdrop.trans ?_⟩
      · simpa [hpiece] using Ne.symm hstar
      · rw [hp, List.concat_append]
  | goBack hmiss hretry =>
    obtain ⟨b, hb, -⟩ := hmiss
    have hlt := (drop_of_getElem? hb).1
    have hanchor := h.anchor_le
    have hstep := h.inStep
    have hpattern := h.pattern_le
    simp only [Cursors.anchor, hretry] at hanchor hstep
    exact ⟨Nat.le_refl _, Nat.add_comm _ _, hanchor.trans hpattern, by simp only; omega,
      [], List.not_mem_nil, rfl⟩

/-- Bound on the turns of the rest of a scan. -/
def turnsLeft (pattern name : List UInt8) (c : Cursors) : Nat :=
  (name.length + 1 - c.anchor.2) * (pattern.length + 2 - c.anchor.1) - (c.pattern - c.anchor.1)

/-- A rectangle that gets narrower loses more than the step that it had taken. -/
private theorem mul_lt_of_narrower {a a' b b' k : Nat} (ha : a' ≤ a) (hpos : 0 < a)
    (hb : b' + (k + 1) ≤ b) : a' * b' < a * b - k := by
  have hlow : a' * b' ≤ a * b' := Nat.mul_le_mul_right _ ha
  have hwide : a * b' + a * (k + 1) ≤ a * b := Nat.mul_add .. ▸ Nat.mul_le_mul_left _ hb
  have hstep : k + 1 ≤ a * (k + 1) := Nat.le_mul_of_pos_left _ hpos
  omega

/-- So does one that loses a row, if the row is longer than the step. -/
private theorem mul_lt_of_lower {a a' b k : Nat} (ha : a' + 1 ≤ a) (hk : k < b) :
    a' * b < a * b - k := by
  have hrow : a' * b + b ≤ a * b := Nat.succ_mul .. ▸ Nat.mul_le_mul_right _ ha
  omega

/-- On its track a scan has a turn left, to decide. -/
theorem OnTrack.turnsLeft_pos (h : OnTrack pattern name c) : 0 < turnsLeft pattern name c := by
  obtain ⟨hanchor, hstep, hpattern, hname, -⟩ := h
  have hlower : (name.length - c.anchor.2) * (pattern.length + 2 - c.anchor.1) <
      turnsLeft pattern name c := mul_lt_of_lower (by omega) (by omega)
  exact Nat.zero_lt_of_lt hlower

/-- **A turn uses up a turn.** A byte that fits brings the cursors nearer to the end of the piece,
    going back gives up a place of the name, and a star gives up all that stands before it. -/
theorem Moves.turnsLeft_lt (hmoves : Moves pattern name c (.goOn c')) (h : OnTrack pattern name c) :
    turnsLeft pattern name c' < turnsLeft pattern name c := by
  have hpos := h.turnsLeft_pos
  obtain ⟨hanchor, hstep, hpattern, hname, -⟩ := h
  cases hmoves with
  | passStar hlt hp =>
    show (name.length + 1 - c.name) * (pattern.length + 2 - (c.pattern + 1)) -
      (c.pattern + 1 - (c.pattern + 1)) < _
    rw [Nat.sub_self, Nat.sub_zero]
    exact mul_lt_of_narrower (by omega) (by omega) (by omega)
  | passByte hb hp hstar htakes =>
    unfold turnsLeft at hpos ⊢
    show (name.length + 1 - c.anchor.2) * (pattern.length + 2 - c.anchor.1) -
      (c.pattern + 1 - c.anchor.1) < _
    omega
  | @goBack starAt place hmiss hretry =>
    have hplace : c.anchor = (starAt + 1, place) := by rw [Cursors.anchor, hretry]
    rw [turnsLeft, turnsLeft, hplace]
    rw [hplace] at hanchor hstep
    show (name.length + 1 - (place + 1)) * (pattern.length + 2 - (starAt + 1)) -
      (starAt + 1 - (starAt + 1)) < _
    rw [Nat.sub_self, Nat.sub_zero]
    exact mul_lt_of_lower (by omega) (by omega)

/-! ## Section 3: What is left to be matched -/

/-- **What is left to be matched**: what stands behind the cursors, or else the piece again, at a
    later place of the name. -/
def Remains (pattern name : List UInt8) (c : Cursors) : Prop :=
  Matches (pattern.drop c.pattern) (name.drop c.name) ∨
    c.retry.isSome ∧ Matches (star :: pattern.drop c.anchor.1) (name.drop (c.anchor.2 + 1))

/-- A mismatch rules out what stands behind the cursors. -/
theorem Mismatch.not_matches (h : Mismatch pattern name c) :
    ¬ Matches (pattern.drop c.pattern) (name.drop c.name) := by
  obtain ⟨b, hb, hmiss⟩ := h
  obtain ⟨-, hname⟩ := drop_of_getElem? hb
  intro hmatch
  rw [hname] at hmatch
  cases hp : pattern[c.pattern]? with
  | none =>
    rw [List.drop_eq_nil_of_le (List.getElem?_eq_none_iff.mp hp)] at hmatch
    exact nomatch matches_nil_iff.mp hmatch
  | some p =>
    obtain ⟨hstar, htakes⟩ := hmiss p hp
    rw [(drop_of_getElem? hp).2, matches_cons_iff hstar] at hmatch
    obtain ⟨b', rest, heq, htakes', -⟩ := hmatch
    obtain ⟨rfl, -⟩ := List.cons.inj heq
    exact Bool.false_ne_true (htakes.symm.trans htakes')

/-- **The last star is enough.** If the piece fits at a later place, what stands behind the cursor
    in the pattern matches some end of what stands behind the cursor in the name. -/
theorem OnTrack.exists_suffix_of_later (h : OnTrack pattern name c)
    (hlater : Matches (star :: pattern.drop c.anchor.1) (name.drop (c.anchor.2 + 1))) :
    ∃ rest, rest <:+ name.drop c.name ∧ Matches (pattern.drop c.pattern) rest := by
  obtain ⟨hanchor, hstep, hpattern, hname, piece, hpiece, hdrop⟩ := h
  obtain ⟨place, hplace, hmatch⟩ := matches_star_iff.mp hlater
  rw [hdrop, matches_append_iff hpiece] at hmatch
  obtain ⟨left, hfits, hmatch⟩ := hmatch
  obtain ⟨-, rfl⟩ := afterPiece_eq_some hfits
  -- the piece is as long as the way that the cursors have gone by since it began
  have hlength : c.name = c.anchor.2 + piece.length := by
    have := congrArg List.length hdrop
    simp only [List.length_drop, List.length_append] at this
    omega
  refine ⟨_, (drop_suffix_drop hplace piece.length).trans ?_, hmatch⟩
  rw [List.drop_drop, hlength]
  exact List.drop_suffix_drop_left name (by omega)

/-- **A turn keeps what is left to be matched.** -/
theorem Moves.remains (hmoves : Moves pattern name c (.goOn c')) (h : OnTrack pattern name c) :
    Remains pattern name c ↔ Remains pattern name c' := by
  cases hmoves with
  | passStar hname hp =>
    have hpattern := (drop_of_getElem? hp).2
    have htail : (name.drop c.name).tail = name.drop (c.name + 1) := List.tail_drop
    -- what the star before this one could make up for, this one can
    have hlater : c.retry.isSome ∧
        Matches (star :: pattern.drop c.anchor.1) (name.drop (c.anchor.2 + 1)) →
        Matches (pattern.drop c.pattern) (name.drop c.name) := by
      rintro ⟨-, hlater⟩
      obtain ⟨rest, hsuffix, hmatch⟩ := h.exists_suffix_of_later hlater
      rw [hpattern] at hmatch ⊢
      exact hmatch.of_suffix hsuffix
    calc
      Remains pattern name c ↔ Matches (pattern.drop c.pattern) (name.drop c.name) :=
        or_iff_left_of_imp hlater
      _ ↔ Matches (pattern.drop (c.pattern + 1)) (name.drop c.name) ∨
          Matches (star :: pattern.drop (c.pattern + 1)) (name.drop (c.name + 1)) := by
        rw [hpattern, matches_star_iff_or_tail, htail]
      _ ↔ Remains pattern name ⟨c.pattern + 1, c.name, some (c.pattern, c.name)⟩ :=
        or_congr_right (and_iff_right rfl).symm
  | passByte hb hp hstar htakes =>
    -- only what stands behind the cursors has changed
    apply or_congr_left
    rw [(drop_of_getElem? hp).2, (drop_of_getElem? hb).2, matches_cons_iff hstar]
    constructor
    · rintro ⟨b, rest, heq, -, hmatch⟩
      obtain ⟨-, rfl⟩ := List.cons.inj heq
      exact hmatch
    · intro hmatch
      exact ⟨_, _, rfl, htakes, hmatch⟩
  | @goBack starAt place hmiss hretry =>
    have hplace : c.anchor = (starAt + 1, place) := by rw [Cursors.anchor, hretry]
    have htail : (name.drop (place + 1)).tail = name.drop (place + 1 + 1) := List.tail_drop
    calc
      Remains pattern name c ↔
          Matches (star :: pattern.drop (starAt + 1)) (name.drop (place + 1)) := by
        rw [Remains, hplace, hretry, or_iff_right hmiss.not_matches]
        exact and_iff_right rfl
      _ ↔ Matches (pattern.drop (starAt + 1)) (name.drop (place + 1)) ∨
          Matches (star :: pattern.drop (starAt + 1)) (name.drop (place + 1 + 1)) := by
        rw [matches_star_iff_or_tail, htail]
      _ ↔ Remains pattern name ⟨starAt + 1, place + 1, some (starAt, place + 1)⟩ :=
        or_congr_right (and_iff_right rfl).symm

/-- **A decision is the right one.** -/
theorem Moves.decided_iff {matched : Bool} (hmoves : Moves pattern name c (.decided matched))
    (h : OnTrack pattern name c) : matched = true ↔ Remains pattern name c := by
  cases hmoves with
  | giveUp hmiss hretry =>
    rw [Remains, hretry, or_iff_right hmiss.not_matches]
    simp
  | finish hname =>
    have hend : name.drop c.name = [] := List.drop_eq_nil_of_le (Nat.le_of_eq hname.symm)
    rw [← matches_nil_right_iff, ← hend]
    refine (or_iff_left_of_imp ?_).symm
    -- at the end of the name no later place leaves more than nothing
    rintro ⟨-, hlater⟩
    obtain ⟨rest, hsuffix, hmatch⟩ := h.exists_suffix_of_later hlater
    rw [hend] at hsuffix ⊢
    obtain rfl := List.suffix_nil.mp hsuffix
    exact hmatch

/-! ## Section 4: Whole scans -/

/-- **A scan ends with the right answer**, after no more turns than are left. -/
theorem OnTrack.exists_decided (h : OnTrack pattern name c) :
    ∃ turns ≤ turnsLeft pattern name c, ∃ matched,
      Cursors.after pattern name turns c = .decided matched ∧
      (matched = true ↔ Remains pattern name c) := by
  induction hleft : turnsLeft pattern name c using Nat.strong_induction_on generalizing c with
  | _ left ih =>
    have hmoves := h.moves
    cases hturn : c.turn pattern name with
    | astray =>
      rw [hturn] at hmoves
      exact nomatch hmoves
    | decided matched =>
      rw [hturn] at hmoves
      exact ⟨1, hleft ▸ h.turnsLeft_pos, matched, by rw [Cursors.after, hturn],
        hmoves.decided_iff h⟩
    | goOn c' =>
      rw [hturn] at hmoves
      have hlt := hmoves.turnsLeft_lt h
      obtain ⟨turns, hturns, matched, hafter, hmatched⟩ :=
        ih _ (hleft ▸ hlt) (hmoves.onTrack h) rfl
      refine ⟨turns + 1, by omega, matched, ?_, hmatched.trans (hmoves.remains h).symm⟩
      rw [Cursors.after, hturn]
      exact hafter

/-- **The scan comes to the answer of the matcher**, for every half of a pattern and of a name. -/
theorem exists_after_eq_glob (pattern name : List UInt8) :
    ∃ turns ≤ (name.length + 1) * (pattern.length + 2),
      Cursors.after pattern name turns .start = .decided (glob pattern name) := by
  have htrack : OnTrack pattern name .start := onTrack_start
  obtain ⟨turns, hturns, matched, hafter, hmatched⟩ := htrack.exists_decided
  have hremains : Remains pattern name .start ↔ Matches pattern name :=
    or_iff_left_of_imp fun h => nomatch h.1
  rw [hremains, ← glob_iff_matches, ← Bool.eq_iff_iff] at hmatched
  exact ⟨turns, hturns, hmatched ▸ hafter⟩

/-- The star has to take a second byte before the rest fits. -/
example : Cursors.after (utf8 "*ab") (utf8 "aab") 7 .start = .decided true := by rfl

/-- **The matcher decides the grammar of wildcards.** A name matches a pattern exactly if their
    bases and their extensions, cut at the last dot, do; and a scan with two cursors that goes back
    to the last star alone ends with the same answer for each half, never reads behind an end, and
    needs no more turns than the product of the lengths allows. -/
theorem matcher_decides_grammar (pattern name : String) :
    (isMatch pattern name = true ↔
      ∃ base extension base' extension',
        Cut pattern base extension ∧ Cut name base' extension' ∧
        Matches (utf8 base) (utf8 base') ∧ Matches (utf8 extension) (utf8 extension')) ∧
    ∀ half text : List UInt8, ∃ turns ≤ (text.length + 1) * (half.length + 2),
      Cursors.after half text turns .start = .decided (glob half text) :=
  ⟨isMatch_iff_matches pattern name, exists_after_eq_glob⟩

end HostDrive.Wildcard

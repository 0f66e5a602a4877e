import HostDrive.Proofs.GuestPath

/-!
# Runs of a Text

What is left of a text when separators are all that they are: the longest stretches of other
characters, in their order. Which separators stand between them, and how many, makes no difference.

## Architecture

- `IsRuns` says what the runs of a text are, and `isRuns_iff` that `Text.runs` finds them.
- `Reseparated` relates texts that differ in their separators only; `Reseparated.runs` and
  `Reseparated.startsSeparated` are what such texts have in common.
- `replaceAll_of_not_infix` and `replaceAll_append`: a search and replace touches nothing but what
  it looks for.
-/

namespace HostDrive.Text

variable {isSeparator : Char → Bool}

/-! ## Section 1: What runs are -/

/-- **The runs of a text.** Each ends at a separator or at the end of the text, so none could be
    longer. -/
inductive IsRuns (isSeparator : Char → Bool) : List Char → List (List Char) → Prop
  | nil : IsRuns isSeparator [] []
  | separator {c : Char} {s : List Char} {parts : List (List Char)} (hc : isSeparator c = true)
      (hs : IsRuns isSeparator s parts) : IsRuns isSeparator (c :: s) parts
  | run {part s : List Char} {parts : List (List Char)} (hne : part ≠ [])
      (hpart : ∀ c ∈ part, isSeparator c = false) (hend : ∀ c ∈ s.head?, isSeparator c = true)
      (hs : IsRuns isSeparator s parts) : IsRuns isSeparator (part ++ s) (part :: parts)

/-- A separator cuts a text in two, each with its own runs. -/
theorem runs_append_cons {c : Char} (hc : isSeparator c = true) (s t : List Char) :
    runs isSeparator (s ++ c :: t) = runs isSeparator s ++ runs isSeparator t := by
  rw [runs, pieces_append_cons hc, List.filter_append]
  rfl

theorem runs_cons {c : Char} (hc : isSeparator c = true) (s : List Char) :
    runs isSeparator (c :: s) = runs isSeparator s := by
  apply (runs_append_cons hc [] s).trans
  rfl

/-- A text without separators is one run. -/
theorem runs_of_not_separator {s : List Char} (hne : s ≠ [])
    (h : ∀ c ∈ s, isSeparator c = false) : runs isSeparator s = [s] := by
  simp [runs, pieces_of_not_separator h, hne]

/-- A run is not empty and has no separator in it. -/
theorem forall_mem_runs {s part : List Char} (h : part ∈ runs isSeparator s) :
    part ≠ [] ∧ ∀ c ∈ part, isSeparator c = false := by
  obtain ⟨hmem, hne⟩ := List.mem_filter.mp h
  exact ⟨by simpa using hne, fun c hc => (forall_mem_pieces hmem c hc).1⟩

/-- Only the characters of a text matter for its runs. -/
theorem runs_congr {f g : Char → Bool} {s : List Char} (h : ∀ c ∈ s, f c = g c) :
    runs f s = runs g s := by
  have hpieces : pieces f s = pieces g s := by
    induction s with
    | nil => rfl
    | cons c s ih =>
      obtain ⟨hc, hs⟩ := List.forall_mem_cons.mp h
      rw [pieces, pieces, hc, ih hs]
  rw [runs, runs, hpieces]

theorem IsRuns.runs_eq {s : List Char} {parts : List (List Char)} (h : IsRuns isSeparator s parts) :
    runs isSeparator s = parts := by
  induction h with
  | nil => rfl
  | separator hc _ ih => rw [runs_cons hc, ih]
  | @run part s parts hne hpart hend _ ih =>
    cases s with
    | nil =>
      obtain rfl : parts = [] := by simpa [runs, pieces] using ih.symm
      rw [List.append_nil, runs_of_not_separator hne hpart]
    | cons c s =>
      -- the separator behind the run belongs to neither side
      have hc : isSeparator c = true := hend c rfl
      rw [runs_cons hc] at ih
      rw [runs_append_cons hc, runs_of_not_separator hne hpart, ih, List.singleton_append]

/-- Every text has runs. -/
theorem exists_isRuns (isSeparator : Char → Bool) (s : List Char) :
    ∃ parts, IsRuns isSeparator s parts := by
  -- from the end, where a character either makes the first run longer or starts a new one
  induction s with
  | nil => exact ⟨[], .nil⟩
  | cons c s ih =>
    obtain ⟨parts, h⟩ := ih
    by_cases hc : isSeparator c = true
    · exact ⟨parts, .separator hc h⟩
    · have hnot : ∀ d ∈ [c], isSeparator d = false := by simpa using hc
      cases h with
      | nil => exact ⟨[[c]], .run (s := []) (by simp) hnot (by simp) .nil⟩
      | @separator d s _ hd hs =>
        exact ⟨[c] :: parts, .run (by simp) hnot (by simpa using hd) (.separator hd hs)⟩
      | @run part s rest hne hpart hend hs =>
        refine ⟨(c :: part) :: rest, .run (List.cons_ne_nil c part) ?_ hend hs⟩
        simpa using ⟨by simpa using hc, hpart⟩

/-- **The runs of a text are found**, and there are no others. -/
theorem isRuns_iff {s : List Char} {parts : List (List Char)} :
    IsRuns isSeparator s parts ↔ runs isSeparator s = parts := by
  constructor
  · exact IsRuns.runs_eq
  · rintro rfl
    obtain ⟨parts, h⟩ := exists_isRuns isSeparator s
    rw [h.runs_eq]
    exact h

/-- A character that is no separator is in a run. -/
theorem exists_mem_runs {s : List Char} {c : Char} (hc : c ∈ s) (hnot : isSeparator c = false) :
    ∃ part ∈ runs isSeparator s, c ∈ part := by
  obtain ⟨parts, h⟩ := exists_isRuns isSeparator s
  rw [h.runs_eq]
  induction h with
  | nil => exact nomatch hc
  | separator hd _ ih =>
    rcases List.mem_cons.mp hc with rfl | hc
    · exact absurd hd (by simp [hnot])
    · exact ih hc
  | @run part s parts _ _ _ _ ih =>
    rcases List.mem_append.mp hc with hc | hc
    · exact ⟨part, by simp, hc⟩
    · obtain ⟨p, hp, hcp⟩ := ih hc
      exact ⟨p, List.mem_cons_of_mem _ hp, hcp⟩

/-! ## Section 2: Texts that differ in separators -/

/-- **Texts that differ in their separators only**: in which ones are used, in how often one is
    repeated, and in those behind everything else. -/
inductive Reseparated (isSeparator : Char → Bool) : List Char → List Char → Prop
  | refl (s : List Char) : Reseparated isSeparator s s
  | other {c d : Char} (hc : isSeparator c = true) (hd : isSeparator d = true) (s t : List Char) :
      Reseparated isSeparator (s ++ c :: t) (s ++ d :: t)
  | repeated {c d : Char} (hc : isSeparator c = true) (hd : isSeparator d = true)
      (s t : List Char) : Reseparated isSeparator (s ++ c :: d :: t) (s ++ c :: t)
  | trailing {c : Char} (hc : isSeparator c = true) {s : List Char} (hne : s ≠ []) :
      Reseparated isSeparator (s ++ [c]) s
  | symm {s t : List Char} (h : Reseparated isSeparator s t) : Reseparated isSeparator t s
  | trans {s t u : List Char} (h : Reseparated isSeparator s t)
      (h' : Reseparated isSeparator t u) : Reseparated isSeparator s u

/-- Such texts have the same runs. -/
theorem Reseparated.runs {s t : List Char} (h : Reseparated isSeparator s t) :
    runs isSeparator s = Text.runs isSeparator t := by
  induction h with
  | refl => rfl
  | other hc hd => rw [runs_append_cons hc, runs_append_cons hd]
  | repeated hc hd => rw [runs_append_cons hc, runs_append_cons hc, runs_cons hd]
  | trailing hc =>
    rw [runs_append_cons hc]
    exact List.append_nil _
  | symm _ ih => exact ih.symm
  | trans _ _ ih ih' => exact ih.trans ih'

/-- Such texts start with a separator both or neither. -/
theorem Reseparated.startsSeparated {s t : List Char} (h : Reseparated isSeparator s t) :
    s.head?.any isSeparator = t.head?.any isSeparator := by
  induction h with
  | refl => rfl
  | other hc hd s => cases s <;> simp [hc, hd]
  | repeated hc hd s => cases s <;> simp
  | @trailing c hc s hne =>
    cases s with
    | nil => exact absurd rfl hne
    | cons d s => rfl
  | symm _ ih => exact ih.symm
  | trans _ _ ih ih' => exact ih.trans ih'

/-! ## Section 3: Replacement -/

variable {pattern replacement : List Char}

/-- What is not there is not replaced. -/
theorem replaceAll_of_not_infix {s : List Char} (h : ¬ pattern <:+: s) :
    replaceAll pattern replacement s = s := by
  unfold replaceAll
  induction s with
  | nil => rfl
  | cons c s ih =>
    have hhere : ¬ pattern.isPrefixOf (c :: s) = true := by
      rw [List.isPrefixOf_iff_prefix]
      exact fun hstart => h hstart.isInfix
    have hlater : ¬ pattern <:+: s := fun hinfix => h (List.infix_cons hinfix)
    rw [replaceFrom, if_neg hhere, ih hlater]

/-- The characters of an occurrence are dropped, up to its end. -/
private theorem replaceFrom_append (s t : List Char) :
    replaceFrom pattern replacement s.length (s ++ t) = replaceFrom pattern replacement 0 t := by
  induction s with
  | nil => rfl
  | cons c s ih => exact ih

/-- What a text starts with is replaced, and the search goes on behind it. -/
theorem replaceAll_append (hne : pattern ≠ []) (s : List Char) :
    replaceAll pattern replacement (pattern ++ s) =
      replacement ++ replaceAll pattern replacement s := by
  cases pattern with
  | nil => exact absurd rfl hne
  | cons c pattern =>
    have hhere : (c :: pattern).isPrefixOf (c :: (pattern ++ s)) = true := by
      rw [List.isPrefixOf_iff_prefix]
      exact List.prefix_append (c :: pattern) s
    rw [replaceAll, List.cons_append, replaceFrom, if_pos hhere, List.length_cons,
      Nat.add_sub_cancel, replaceFrom_append, replaceAll]

end HostDrive.Text

import HostDrive.Proofs.Guest.Text
import HostDrive.Proofs.Wildcard

/-!
# The Grammar of Wildcards

What it means that a half of a pattern matches a half of a name, said byte by byte and without any
order in which places are tried. The matcher settles one piece of the pattern after the other, each
at the first place where it fits; no match is lost by that, as the star behind a piece can skip
whatever a later place would have left.

## Architecture

- `Matches` is the grammar, with a rule for each kind of pattern byte; `matches_star_iff` and
  `matches_cons_iff` read the rules backwards.
- `matches_append_iff`: a piece without stars takes as many bytes as it has.
- `afterFirst_eq_some`, `exists_afterFirst`: the first place of a piece is as good as any other.
- From these `globBehind_iff_matches`, by induction over the pieces, and `glob_iff_matches`.
- `Cut` is a text cut at its last dot, and `exists_cut`, `Cut.cutExtension` say that the matcher
  cuts there.
-/

namespace HostDrive.Wildcard

open Text (upperByte utf8)

/-! ## Section 1: The grammar -/

/-- **A pattern matches a byte string.** -/
inductive Matches : List UInt8 → List UInt8 → Prop
  | empty : Matches [] []
  /-- A star takes any run of bytes, also an empty one. -/
  | run {pattern name : List UInt8} (taken : List UInt8) (h : Matches pattern name) :
      Matches (star :: pattern) (taken ++ name)
  /-- A question mark takes any one byte. -/
  | any {pattern name : List UInt8} (b : UInt8) (h : Matches pattern name) :
      Matches (anyOne :: pattern) (b :: name)
  /-- Any other byte takes itself, whatever the case. -/
  | literal {pattern name : List UInt8} {p b : UInt8} (hstar : p ≠ star) (hone : p ≠ anyOne)
      (hcase : upperByte p = upperByte b) (h : Matches pattern name) :
      Matches (p :: pattern) (b :: name)

variable {pattern piece name left : List UInt8}

theorem matches_nil_iff : Matches [] name ↔ name = [] := by
  constructor
  · intro h
    cases h
    rfl
  · rintro rfl
    exact .empty

/-- A star leaves the rest of the pattern some end of the name. -/
theorem matches_star_iff :
    Matches (star :: pattern) name ↔ ∃ rest, rest <:+ name ∧ Matches pattern rest := by
  constructor
  · intro h
    cases h with
    | run taken h => exact ⟨_, List.suffix_append _ _, h⟩
    | literal hstar => exact absurd rfl hstar
  · rintro ⟨rest, ⟨taken, rfl⟩, h⟩
    exact .run taken h

/-- A byte other than a star takes the first byte of the name. -/
theorem matches_cons_iff {p : UInt8} (hp : p ≠ star) :
    Matches (p :: pattern) name ↔
      ∃ b rest, name = b :: rest ∧ takes p b = true ∧ Matches pattern rest := by
  constructor
  · intro h
    cases h with
    | run => exact absurd rfl hp
    | any b h => exact ⟨b, _, rfl, rfl, h⟩
    | literal _ _ hcase h => exact ⟨_, _, rfl, by simp [takes, hcase], h⟩
  · rintro ⟨b, rest, rfl, htakes, h⟩
    by_cases hone : p = anyOne
    · rw [hone]
      exact .any b h
    · have hcase : upperByte p = upperByte b := by simpa [takes, hone] using htakes
      exact .literal hp hone hcase h

/-- What a star can make up for is skipped: it matches everything that ends in a match. -/
theorem Matches.of_suffix (h : Matches (star :: pattern) name) {longer : List UInt8}
    (hsuffix : name <:+ longer) : Matches (star :: pattern) longer := by
  obtain ⟨rest, hrest, hmatch⟩ := matches_star_iff.mp h
  exact matches_star_iff.mpr ⟨rest, hrest.trans hsuffix, hmatch⟩

/-- A star takes nothing, or else it takes the first byte and goes on. -/
theorem matches_star_iff_or_tail :
    Matches (star :: pattern) name ↔
      Matches pattern name ∨ Matches (star :: pattern) name.tail := by
  constructor
  · intro h
    obtain ⟨rest, hsuffix, hmatch⟩ := matches_star_iff.mp h
    cases name with
    | nil => exact .inr h
    | cons b name =>
      rcases List.suffix_cons_iff.mp hsuffix with rfl | hsuffix
      · exact .inl hmatch
      · exact .inr (matches_star_iff.mpr ⟨rest, hsuffix, hmatch⟩)
  · rintro (hmatch | hmatch)
    · exact matches_star_iff.mpr ⟨_, List.suffix_refl _, hmatch⟩
    · exact hmatch.of_suffix (List.tail_suffix name)

/-- Only stars match nothing. -/
theorem matches_nil_right_iff : Matches pattern [] ↔ pattern.all (· == star) = true := by
  induction pattern with
  | nil => simp [matches_nil_iff]
  | cons p pattern ih =>
    by_cases hp : p = star
    · subst hp
      simp [matches_star_iff, ih]
    · simp [matches_cons_iff hp, hp]

/-! ## Section 2: Pieces -/

/-- A piece takes as many bytes as it has. -/
theorem afterPiece_eq_some (h : afterPiece piece name = some left) :
    piece.length ≤ name.length ∧ left = name.drop piece.length := by
  induction piece generalizing name with
  | nil => exact ⟨Nat.zero_le _, (Option.some.inj h).symm⟩
  | cons p piece ih =>
    cases name with
    | nil => cases h
    | cons b name =>
      rw [afterPiece] at h
      split at h
      · obtain ⟨hlength, hleft⟩ := ih h
        exact ⟨Nat.succ_le_succ hlength, hleft⟩
      · cases h

/-- **A piece without stars** is matched by what it takes, and leaves the rest to the rest. -/
theorem matches_append_iff (hpiece : star ∉ piece) :
    Matches (piece ++ pattern) name ↔
      ∃ left, afterPiece piece name = some left ∧ Matches pattern left := by
  induction piece generalizing name with
  | nil => simp [afterPiece]
  | cons p piece ih =>
    obtain ⟨hp, hrest⟩ := not_or.mp (mt List.mem_cons.mpr hpiece)
    rw [List.cons_append, matches_cons_iff (Ne.symm hp)]
    cases name with
    | nil => simp [afterPiece]
    | cons b name =>
      rw [afterPiece]
      by_cases htakes : takes p b = true
      · rw [if_pos htakes, ← ih hrest]
        simp [htakes]
      · rw [if_neg htakes]
        simp [htakes]

/-- A piece of its own has to use up the name. -/
theorem matches_piece_iff (hpiece : star ∉ piece) :
    Matches piece name ↔ afterPiece piece name = some [] := by
  have happend : Matches (piece ++ []) name ↔ _ := matches_append_iff hpiece
  rw [List.append_nil] at happend
  simp [happend, matches_nil_iff]

/-- The first place where a piece fits is a place where it fits. -/
theorem afterFirst_eq_some (h : afterFirst piece name = some left) :
    ∃ rest, rest <:+ name ∧ afterPiece piece rest = some left := by
  induction name with
  | nil => exact ⟨[], List.suffix_refl _, h⟩
  | cons b name ih =>
    rw [afterFirst] at h
    split at h
    · rename_i first hfirst
      exact ⟨b :: name, List.suffix_refl _, by rw [hfirst, h]⟩
    · obtain ⟨rest, hsuffix, hfits⟩ := ih h
      exact ⟨rest, hsuffix.trans (List.suffix_cons b name), hfits⟩

/-- Ends of a byte string stay ends when both lose as many bytes in front. -/
theorem drop_suffix_drop {rest : List UInt8} (h : rest <:+ name) (count : Nat) :
    rest.drop count <:+ name.drop count := by
  rw [List.suffix_iff_eq_drop.mp h, List.drop_drop, Nat.add_comm, ← List.drop_drop]
  exact List.drop_suffix _ _

/-- **The first place leaves most.** Wherever a piece fits, there is a first place where it fits,
    and what is left behind any other place is an end of what is left behind that one. -/
theorem exists_afterFirst {rest : List UInt8} (hsuffix : rest <:+ name)
    (h : afterPiece piece rest = some left) :
    ∃ most, afterFirst piece name = some most ∧ left <:+ most := by
  induction name with
  | nil =>
    obtain rfl := List.suffix_nil.mp hsuffix
    exact ⟨left, h, List.suffix_refl _⟩
  | cons b name ih =>
    rw [afterFirst]
    cases hfirst : afterPiece piece (b :: name) with
    | some most =>
      -- both places leave what is behind the same number of bytes
      obtain ⟨-, rfl⟩ := afterPiece_eq_some h
      obtain ⟨-, rfl⟩ := afterPiece_eq_some hfirst
      exact ⟨_, rfl, drop_suffix_drop hsuffix _⟩
    | none =>
      rcases List.suffix_cons_iff.mp hsuffix with rfl | hsuffix
      · rw [hfirst] at h
        exact nomatch h
      · exact ih hsuffix

/-- A piece at the end of a name fits there or nowhere. -/
theorem endsWith_iff :
    endsWith piece name = true ↔ ∃ rest, rest <:+ name ∧ afterPiece piece rest = some [] := by
  rw [endsWith, beq_iff_eq]
  constructor
  · intro h
    exact ⟨_, List.drop_suffix _ _, h⟩
  · rintro ⟨rest, hsuffix, h⟩
    -- nothing is left, so the place is as far from the end as the piece is long
    obtain ⟨hlength, hleft⟩ := afterPiece_eq_some h
    have hle : rest.length ≤ piece.length := List.drop_eq_nil_iff.mp hleft.symm
    rw [← Nat.le_antisymm hle hlength, ← List.suffix_iff_eq_drop.mp hsuffix]
    exact h

/-! ## Section 3: The matcher -/

/-- Pieces joined to a pattern again, with a star in front of each. -/
def behindStars (pieces : List (List UInt8)) : List UInt8 := pieces.flatMap (star :: ·)

/-- The pieces of a pattern have no stars in them, and joined they are the pattern. -/
theorem cutAtStars_spec (pattern : List UInt8) :
    (cutAtStars pattern).1 ++ behindStars (cutAtStars pattern).2 = pattern ∧
      star ∉ (cutAtStars pattern).1 ∧ ∀ piece ∈ (cutAtStars pattern).2, star ∉ piece := by
  induction pattern with
  | nil => exact ⟨rfl, List.not_mem_nil, List.forall_mem_nil _⟩
  | cons p pattern ih =>
    obtain ⟨hjoin, hfirst, hpieces⟩ := ih
    rw [cutAtStars]
    by_cases hp : p = star
    · -- the piece that was begun stands behind this star
      subst hp
      rw [if_pos (beq_self_eq_true star)]
      refine ⟨congrArg (star :: ·) hjoin, List.not_mem_nil, ?_⟩
      exact List.forall_mem_cons.mpr ⟨hfirst, hpieces⟩
    · rw [if_neg (by simpa using hp)]
      exact ⟨congrArg (p :: ·) hjoin, List.not_mem_cons_of_ne_of_not_mem (Ne.symm hp) hfirst,
        hpieces⟩

/-- **Piece by piece is enough**, each at its first place and the last one at the end. -/
theorem globBehind_iff_matches {pieces : List (List UInt8)}
    (hpieces : ∀ piece ∈ pieces, star ∉ piece) (name : List UInt8) :
    globBehind pieces name = true ↔ Matches (behindStars pieces) name := by
  induction pieces generalizing name with
  | nil => simp [globBehind, behindStars, matches_nil_iff]
  | cons piece more ih =>
    obtain ⟨hpiece, hmore⟩ := List.forall_mem_cons.mp hpieces
    have hjoin : behindStars (piece :: more) = star :: (piece ++ behindStars more) := rfl
    rw [hjoin, matches_star_iff]
    cases more with
    | nil =>
      rw [globBehind, endsWith_iff]
      simp only [behindStars, List.flatMap_nil, List.append_nil, matches_piece_iff hpiece]
    | cons next more =>
      simp only [matches_append_iff hpiece]
      rw [globBehind]
      constructor
      · intro h
        split at h
        · rename_i left hfirst
          obtain ⟨rest, hsuffix, hfits⟩ := afterFirst_eq_some hfirst
          exact ⟨rest, hsuffix, left, hfits, (ih hmore left).mp h⟩
        · exact absurd h Bool.false_ne_true
      · rintro ⟨rest, hsuffix, left, hfits, hmatch⟩
        obtain ⟨most, hfirst, hleft⟩ := exists_afterFirst hsuffix hfits
        -- the next star skips what this place would have skipped
        rw [hfirst]
        exact (ih hmore most).mpr (hmatch.of_suffix hleft)

/-- **The matcher decides the grammar.** -/
theorem glob_iff_matches (pattern name : List UInt8) :
    glob pattern name = true ↔ Matches pattern name := by
  obtain ⟨hjoin, hfirst, hpieces⟩ := cutAtStars_spec pattern
  conv_rhs => rw [← hjoin]
  rw [matches_append_iff hfirst, glob]
  cases afterPiece (cutAtStars pattern).1 name with
  | none => simp
  | some left => simpa using globBehind_iff_matches hpieces left

/-! ## Section 4: Bases and extensions -/

/-- **A text cut at its last dot** into a base and an extension, which is empty if there is no
    dot. -/
inductive Cut : String → String → String → Prop
  | dotted (base extension : String) (h : '.' ∉ extension.toList) :
      Cut (base ++ "." ++ extension) base extension
  | plain (base : String) (h : '.' ∉ base.toList) : Cut base base ""

/-- Only a dot has the byte of the dot. -/
private theorem dot_not_mem_utf8 {s : String} (h : '.' ∉ s.toList) : dot ∉ utf8 s := by
  intro hmem
  rcases Text.mem_utf8_cases hmem with ⟨c, hc, hascii, hbyte⟩ | ⟨-, hhigh⟩
  · have hnat : c.toNat = 46 := by
      have := congrArg UInt8.toNat hbyte
      simp only [dot, UInt8.reduceToNat, UInt8.toNat_ofNat'] at this
      omega
    obtain rfl : c = '.' := by rw [← Char.ofNat_toNat c, hnat]
    exact h hc
  · exact absurd hhigh (by decide)

/-- There is always a cut. -/
theorem exists_cut (s : String) : ∃ base extension, Cut s base extension := by
  by_cases hdot : '.' ∈ s.toList
  · -- the last dot is the first one from behind
    obtain ⟨behind, before, hreverse, hnot⟩ :=
      List.eq_append_cons_of_mem (List.mem_reverse.mpr hdot)
    have hchars : s.toList = before.reverse ++ '.' :: behind.reverse := by
      simpa using congrArg List.reverse hreverse
    have hs : s = String.ofList before.reverse ++ "." ++ String.ofList behind.reverse := by
      apply String.toList_inj.mp
      simp [hchars]
    rw [hs]
    exact ⟨_, _, .dotted _ _ (by simpa using hnot)⟩
  · exact ⟨s, "", .plain s hdot⟩

/-- **The matcher cuts at the last dot too**, and there is no other cut. -/
theorem Cut.cutExtension {s base extension : String} (h : Cut s base extension) :
    Wildcard.cutExtension (utf8 s) = (utf8 base, utf8 extension) := by
  cases h with
  | dotted _ _ hnot =>
    have hdot : utf8 "." = [dot] := by decide
    rw [Text.utf8_append, Text.utf8_append, hdot, List.append_assoc, List.singleton_append]
    exact cutExtension_append (dot_not_mem_utf8 hnot)
  | plain _ hnot => exact cutExtension_of_not_mem (dot_not_mem_utf8 hnot)

/-- Whole names, half by half. -/
theorem isMatch_iff_matches (pattern name : String) :
    isMatch pattern name = true ↔
      ∃ base extension base' extension',
        Cut pattern base extension ∧ Cut name base' extension' ∧
        Matches (utf8 base) (utf8 base') ∧ Matches (utf8 extension) (utf8 extension') := by
  constructor
  · intro h
    obtain ⟨base, extension, hcut⟩ := exists_cut pattern
    obtain ⟨base', extension', hcut'⟩ := exists_cut name
    rw [isMatch, hcut.cutExtension, hcut'.cutExtension, Bool.and_eq_true] at h
    exact ⟨base, extension, base', extension', hcut, hcut', (glob_iff_matches _ _).mp h.1,
      (glob_iff_matches _ _).mp h.2⟩
  · rintro ⟨base, extension, base', extension', hcut, hcut', hbase, hextension⟩
    rw [isMatch, hcut.cutExtension, hcut'.cutExtension, Bool.and_eq_true]
    exact ⟨(glob_iff_matches _ _).mpr hbase, (glob_iff_matches _ _).mpr hextension⟩

end HostDrive.Wildcard

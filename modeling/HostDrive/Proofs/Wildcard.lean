import HostDrive.Proofs.NameCase
import HostDrive.GuestPath
import HostDrive.Wildcard
import Mathlib.Data.List.TakeWhile

/-!
# Names as Patterns

A short name has no stars or question marks in it, so taken as a pattern it matches itself, whatever
the case, and no other name. The pattern of two stars with a dot between them matches everything.

## Architecture

- `glob_iff_of_literal`: a half without wildcards matches a half with the same bytes, case aside.
- `exists_cutAtDot` takes a short name apart into such halves, also in upper case.
- `isMatch_iff_sameIgnoringCase` puts the halves together, `isMatch_matchAll` needs neither.
-/

namespace HostDrive.Wildcard

open Text (IsPlainChar upperByte upperBytes utf8)

/-! ## Section 1: Halves without wildcards -/

/-- A byte that a pattern takes literally. -/
def IsLiteral (b : UInt8) : Prop := b ≠ star ∧ b ≠ anyOne

theorem cutAtStars_of_literal {pattern : List UInt8} (h : ∀ b ∈ pattern, IsLiteral b) :
    cutAtStars pattern = (pattern, []) := by
  induction pattern with
  | nil => rfl
  | cons p pattern ih =>
    have hp : p ≠ star := (h p List.mem_cons_self).1
    rw [cutAtStars, ih fun b hb => h b (List.mem_cons_of_mem _ hb)]
    simp only [beq_iff_eq, hp, if_false]

theorem takes_iff_of_literal {p b : UInt8} (h : IsLiteral p) :
    takes p b = true ↔ upperByte p = upperByte b := by
  simp [takes, h.2]

/-- A piece that uses up a whole name agrees with it byte by byte. -/
theorem afterPiece_eq_nil_iff {piece name : List UInt8} (h : ∀ b ∈ piece, IsLiteral b) :
    afterPiece piece name = some [] ↔ piece.map upperByte = name.map upperByte := by
  induction piece generalizing name with
  | nil => cases name <;> simp [afterPiece]
  | cons p piece ih =>
    cases name with
    | nil => simp [afterPiece]
    | cons b name =>
      have htakes := takes_iff_of_literal (b := b) (h p List.mem_cons_self)
      have hrest : afterPiece piece name = some [] ↔
          piece.map upperByte = name.map upperByte :=
        ih fun c hc => h c (List.mem_cons_of_mem _ hc)
      rw [afterPiece, List.map_cons, List.map_cons, List.cons.injEq, ← htakes, ← hrest]
      by_cases htake : takes p b = true
      · simp only [htake, if_true, true_and]
      · simp only [htake, if_false, false_and, reduceCtorEq]

/-- **A half without wildcards** matches a half with the same bytes, case aside. -/
theorem glob_iff_of_literal {pattern name : List UInt8} (h : ∀ b ∈ pattern, IsLiteral b) :
    glob pattern name = true ↔ pattern.map upperByte = name.map upperByte := by
  rw [← afterPiece_eq_nil_iff h, glob, cutAtStars_of_literal h]
  cases afterPiece pattern name with
  | none => simp
  | some left => simp [globBehind]

/-! ## Section 2: Bases and extensions -/

/-- The byte of the dot between base and extension. -/
def dot : UInt8 := 0x2E

theorem cutExtension_of_not_mem {s : List UInt8} (h : dot ∉ s) : cutExtension s = (s, []) := by
  have hwhole : s.reverse.takeWhile (· != 0x2E) = s.reverse := by
    apply List.takeWhile_eq_self_iff.mpr
    intro b hb
    rw [bne_iff_ne]
    rintro rfl
    exact h (List.mem_reverse.mp hb)
  simp [cutExtension, hwhole]

theorem cutExtension_append {base extension : List UInt8} (h : dot ∉ extension) :
    cutExtension (base ++ dot :: extension) = (base, extension) := by
  have htail : (base ++ dot :: extension).reverse.takeWhile (· != 0x2E) = extension.reverse := by
    rw [List.reverse_append, List.reverse_cons, List.append_assoc,
      List.takeWhile_append_of_pos, List.singleton_append, List.takeWhile_cons_of_neg]
    · exact List.append_nil _
    · decide
    · intro b hb
      rw [bne_iff_ne]
      rintro rfl
      exact h (List.mem_reverse.mp hb)
  have hne : ¬ extension.length = (base ++ dot :: extension).length := by
    simp only [List.length_append, List.length_cons]
    omega
  have hbase : (base ++ dot :: extension).length - extension.length - 1 = base.length := by
    simp only [List.length_append, List.length_cons]
    omega
  simp only [cutExtension, htail, List.reverse_reverse, beq_iff_eq, hne, if_false, hbase,
    List.take_left']

/-- The byte of a character that names are made of. -/
private theorem byte_of_isNameChar {c : Char} (h : ShortName.isNameChar c = true) :
    IsLiteral (UInt8.ofNat c.toNat) ∧ UInt8.ofNat c.toNat ≠ dot ∧
      upperByte (UInt8.ofNat c.toNat) ≠ dot := by
  have hall : ∀ n : Fin 128, ShortName.isNameChar (Char.ofNat n.val) = true →
      (UInt8.ofNat n.val ≠ star ∧ UInt8.ofNat n.val ≠ anyOne) ∧ UInt8.ofNat n.val ≠ dot ∧
        upperByte (UInt8.ofNat n.val) ≠ dot := by decide
  have hplain := ShortName.isPlainChar_of_isNameChar h
  have hc := hall ⟨c.toNat, hplain.2⟩
  simp only [Char.ofNat_toNat] at hc
  exact hc h

/-- A base and an extension without dots are what a cut finds. -/
theorem cutExtension_glue {base extension : List UInt8} (hbase : dot ∉ base)
    (hextension : dot ∉ extension) :
    cutExtension (ShortName.glue dot base extension) = (base, extension) := by
  cases extension with
  | nil => exact cutExtension_of_not_mem hbase
  | cons b extension => exact cutExtension_append hextension

/-- **A short name at its dot**: two parts that are taken literally, and that are cut in the same
    way when the name is in upper case. -/
theorem exists_cutAtDot {s : String} (h : ShortName.isLegal s = true) :
    ∃ base extension, utf8 s = ShortName.glue dot base extension ∧ (∀ b ∈ base, IsLiteral b) ∧
      (∀ b ∈ extension, IsLiteral b) ∧ cutExtension (utf8 s) = (base, extension) ∧
      cutExtension (upperBytes s) = (base.map upperByte, extension.map upperByte) := by
  obtain ⟨base, extension, hname, -, -, hbase, hextension⟩ := ShortName.exists_parts h
  have hbytes : ∀ part : List Char, (∀ c ∈ part, ShortName.isNameChar c = true) →
      ∀ b ∈ part.map fun c => UInt8.ofNat c.toNat, IsLiteral b ∧ b ≠ dot ∧ upperByte b ≠ dot := by
    intro part hpart b hb
    obtain ⟨c, hc, rfl⟩ := List.mem_map.mp hb
    exact byte_of_isNameChar (hpart c hc)
  have hdots : ∀ part : List UInt8, (∀ b ∈ part, IsLiteral b ∧ b ≠ dot ∧ upperByte b ≠ dot) →
      dot ∉ part ∧ dot ∉ part.map upperByte := by
    intro part hpart
    refine ⟨fun hmem => (hpart dot hmem).2.1 rfl, fun hmem => ?_⟩
    obtain ⟨b, hb, heq⟩ := List.mem_map.mp hmem
    exact (hpart b hb).2.2 heq
  have hutf8 : utf8 s = ShortName.glue dot (base.map fun c => UInt8.ofNat c.toNat)
      (extension.map fun c => UInt8.ofNat c.toNat) := by
    rw [Text.utf8_of_plain s (ShortName.isLegal_bounds h).2, hname, ShortName.map_glue]
    rfl
  have hupper := congrArg (List.map upperByte) hutf8
  rw [ShortName.map_glue] at hupper
  refine ⟨_, _, hutf8, fun b hb => (hbytes base hbase b hb).1,
    fun b hb => (hbytes extension hextension b hb).1, ?plain, ?upper⟩
  case plain =>
    rw [hutf8]
    exact cutExtension_glue (hdots _ (hbytes base hbase)).1
      (hdots _ (hbytes extension hextension)).1
  case upper =>
    rw [upperBytes, hupper]
    exact cutExtension_glue (hdots _ (hbytes base hbase)).2
      (hdots _ (hbytes extension hextension)).2

/-! ## Section 3: Whole names -/

/-- **A short name is a pattern for itself**, whatever the case, and for no other name. -/
theorem isMatch_iff_sameIgnoringCase {pattern name : String}
    (hpattern : ShortName.isLegal pattern = true) (hname : ShortName.isLegal name = true) :
    isMatch pattern name = true ↔ Text.sameIgnoringCase name pattern = true := by
  obtain ⟨base, extension, hglue, hbase, hextension, hcut, hupper⟩ := exists_cutAtDot hpattern
  obtain ⟨base', extension', hglue', -, -, hcut', hupper'⟩ := exists_cutAtDot hname
  have hhalves : isMatch pattern name = true ↔
      base.map upperByte = base'.map upperByte ∧
        extension.map upperByte = extension'.map upperByte := by
    rw [isMatch, hcut, hcut', Bool.and_eq_true, glob_iff_of_literal hbase,
      glob_iff_of_literal hextension]
  rw [hhalves, ← Text.upperBytes_eq_iff (ShortName.isLegal_bounds hname).2
    (ShortName.isLegal_bounds hpattern).2]
  constructor
  · -- equal halves make equal names
    rintro ⟨hbases, hextensions⟩
    rw [upperBytes, upperBytes, hglue, hglue', ShortName.map_glue, ShortName.map_glue, hbases,
      hextensions]
  · -- equal names are cut alike
    intro heq
    rw [heq, hupper] at hupper'
    exact Prod.mk.inj hupper'

/-- **The pattern for everything** matches every name. -/
theorem isMatch_matchAll (name : String) : isMatch GuestPath.matchAll name = true := by
  have hhalf : ∀ s : List UInt8, glob [star] s = true := by
    intro s
    show endsWith [] s = true
    simp [endsWith, afterPiece]
  have hcut : cutExtension (utf8 GuestPath.matchAll) = ([star], [star]) := by decide
  rw [isMatch, hcut, hhalf, hhalf]
  rfl

end HostDrive.Wildcard

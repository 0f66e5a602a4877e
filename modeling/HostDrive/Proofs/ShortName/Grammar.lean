import HostDrive.Proofs.Guest.Text
import HostDrive.Proofs.NameCase

/-!
# The Grammar of Short Names

Which texts are names for the guest, said without any way to find it out: a base, and behind a
single dot an extension if there is one. The check cuts a name at its first dot; that is the only
dot there can be, as no part has one, so the check decides the grammar.

## Architecture

- `NameChar`, `Part` and `Named` are the grammar, from characters to whole names.
- `isNameChar_iff`, `isPart_iff_part` and `isLegalChars_iff` say level by level that the check
  decides it.
- `Named.chars` and `Named.not_reserved` are what a name is made of; `names_decided` puts it all
  together.
-/

namespace HostDrive.ShortName

open Text (sameIgnoringCase)

/-! ## Section 1: The grammar -/

/-- The punctuation of names. -/
def marks : String := "-$&#%()@^\x7b\x7d\x27\x60!"

/-- **A character of names.** -/
inductive NameChar (c : Char) : Prop
  | upper (h : 'A' ≤ c ∧ c ≤ 'Z')
  | lower (h : 'a' ≤ c ∧ c ≤ 'z')
  | digit (h : '0' ≤ c ∧ c ≤ '9')
  | mark (h : c ∈ marks.toList)

/-- **A part of a name**: one to `longest` characters. -/
structure Part (longest : Nat) (part : List Char) : Prop where
  pos : 1 ≤ part.length
  le : part.length ≤ longest
  chars : ∀ c ∈ part, NameChar c

/-- **A short name**: a base, and nothing else or a dot and an extension behind it. -/
inductive Named : List Char → Prop
  | base {base : List Char} (hbase : Part 8 base) : Named base
  | extended {base extension : List Char} (hbase : Part 8 base) (hextension : Part 3 extension) :
      Named (base ++ '.' :: extension)

/-! ## Section 2: The check decides the grammar -/

/-- Letters and digits are three ranges, and both lists of punctuation are the same. -/
theorem isNameChar_iff {c : Char} : isNameChar c = true ↔ NameChar c := by
  have hmarks : marks.toList = punctuation := by decide
  have hranges : c.isAlphanum = true ↔
      ('A' ≤ c ∧ c ≤ 'Z') ∨ ('a' ≤ c ∧ c ≤ 'z') ∨ ('0' ≤ c ∧ c ≤ '9') := by
    unfold Char.isAlphanum Char.isAlpha Char.isUpper Char.isLower Char.isDigit
    simp [Char.le_def, or_assoc]
  rw [isNameChar, Bool.or_eq_true, hranges, List.contains_iff_mem]
  constructor
  · rintro ((h | h | h) | h)
    · exact .upper h
    · exact .lower h
    · exact .digit h
    · exact .mark (hmarks ▸ h)
  · intro h
    cases h with
    | upper h => exact .inl (.inl h)
    | lower h => exact .inl (.inr (.inl h))
    | digit h => exact .inl (.inr (.inr h))
    | mark h => exact .inr (hmarks ▸ h)

theorem isPart_iff_part {longest : Nat} {part : List Char} :
    isPart longest part = true ↔ Part longest part := by
  simp only [isPart, Bool.and_eq_true, Bool.not_eq_true', List.isEmpty_eq_false_iff,
    decide_eq_true_eq, List.all_eq_true, isNameChar_iff]
  constructor
  · rintro ⟨⟨hne, hle⟩, hchars⟩
    exact ⟨List.length_pos_iff.mpr hne, hle, hchars⟩
  · rintro ⟨hpos, hle, hchars⟩
    exact ⟨⟨List.length_pos_iff.mp hpos, hle⟩, hchars⟩

/-- A part has no dot, so the first dot of a name is behind its base. -/
private theorem Part.not_dot {longest : Nat} {part : List Char} (h : Part longest part) :
    ∀ c ∈ part, (c != '.') = true := by
  have hdot : isNameChar '.' = false := by decide
  intro c hc
  rw [bne_iff_ne]
  rintro rfl
  exact absurd (isNameChar_iff.mpr (h.chars _ hc)) (by simp [hdot])

/-- **The check decides the grammar.** -/
theorem isLegalChars_iff {name : List Char} : isLegalChars name = true ↔ Named name := by
  constructor
  · intro h
    have hsplit : name.takeWhile (· != '.') ++ name.dropWhile (· != '.') = name :=
      List.takeWhile_append_dropWhile
    obtain ⟨hbase, hrest⟩ := Bool.and_eq_true_iff.mp h
    rw [← hsplit]
    cases hdrop : name.dropWhile (· != '.') with
    | nil =>
      rw [List.append_nil]
      exact .base (isPart_iff_part.mp hbase)
    | cons d extension =>
      -- what the base ends at is a dot
      obtain rfl : d = '.' := by
        have := List.head?_dropWhile_not (· != '.') name
        simpa [hdrop] using this
      rw [hdrop] at hrest
      exact .extended (isPart_iff_part.mp hbase) (isPart_iff_part.mp hrest)
  · intro h
    cases h with
    | base hbase =>
      have htake : name.takeWhile (· != '.') = name := List.takeWhile_eq_self_iff.mpr hbase.not_dot
      have hdrop : name.dropWhile (· != '.') = [] := List.dropWhile_eq_nil_iff.mpr hbase.not_dot
      simp [isLegalChars, htake, hdrop, isPart_iff_part.mpr hbase]
    | @extended base extension hbase hextension =>
      have htake : (base ++ '.' :: extension).takeWhile (· != '.') = base := by
        simp [List.takeWhile_append_of_pos hbase.not_dot]
      have hdrop : (base ++ '.' :: extension).dropWhile (· != '.') = '.' :: extension := by
        simp [List.dropWhile_append_of_pos hbase.not_dot]
      simp [isLegalChars, htake, hdrop, isPart_iff_part.mpr hbase, isPart_iff_part.mpr hextension]

/-! ## Section 3: What names do not hold -/

/-- The characters that a path or a pattern gives a meaning of their own, and the zero character
    that ends a text. -/
def reserved : List Char := ['\\', '/', ':', '*', '?', '\x00']

/-- A name is made of characters of names, and of the one dot. -/
theorem Named.chars {name : List Char} (h : Named name) : ∀ c ∈ name, NameChar c ∨ c = '.' := by
  intro c hc
  cases h with
  | base hbase => exact .inl (hbase.chars c hc)
  | extended hbase hextension =>
    rcases List.mem_append.mp hc with hc | hc
    · exact .inl (hbase.chars c hc)
    · rcases List.mem_cons.mp hc with hdot | hc
      · exact .inr hdot
      · exact .inl (hextension.chars c hc)

/-- Nothing reserved is in a name. -/
theorem Named.not_reserved {name : List Char} (h : Named name) : ∀ c ∈ name, c ∉ reserved := by
  have hreserved : reserved.all (fun d => !isNameChar d && d != '.') = true := by decide
  intro c hc hmem
  obtain ⟨hnot, hdot⟩ : isNameChar c = false ∧ c ≠ '.' := by
    simpa using List.all_eq_true.mp hreserved c hmem
  rcases h.chars c hc with hchar | hdot'
  · exact absurd (isNameChar_iff.mpr hchar) (by simp [hnot])
  · exact hdot hdot'

/-- **The check of names decides their grammar.** A text is a name exactly if it is a base of one to
    eight characters, or such a base, a dot and an extension of one to three, all of them letters,
    digits and marks. So whatever is a name is ASCII and takes twelve bytes at most, holds nothing
    reserved, does not stand for a directory itself or for the one above, and is a name in any other
    case too. -/
theorem names_decided (s : String) :
    (isLegal s = true ↔ Named s.toList) ∧
    (isLegal s = true →
      Text.isAscii s = true ∧ s.utf8ByteSize ≤ 12 ∧ (∀ c ∈ s.toList, c ∉ reserved) ∧
      s ≠ "." ∧ s ≠ ".." ∧
      ∀ t : String, sameIgnoringCase t s = true → isLegal t = true) := by
  refine ⟨isLegalChars_iff, fun h => ?_⟩
  obtain ⟨hlength, hplain⟩ := isLegal_bounds h
  have hname : GuestPath.IsPlainName s := isPlainName_of_isLegal h
  refine ⟨Text.isAscii_of_plain hplain, ?bytes, (isLegalChars_iff.mp h).not_reserved,
    hname.ne_here, hname.ne_above, ?case⟩
  case bytes =>
    -- an ASCII character is one byte
    rw [← Text.length_utf8, Text.length_utf8_of_plain hplain, ← String.length_toList]
    exact hlength
  case case =>
    intro t hsame
    exact isLegal_of_sameIgnoringCase hsame h

/-- A name with every kind of character in it, and as long as a name can be. -/
theorem names_decided_longest :
    Named "aZ-$&09!.\x7b\x60x".toList ∧ isLegal "aZ-$&09!.\x7b\x60x" = true ∧
      isLegal "Az-$&09!.\x7b\x60X" = true := by
  have hlegal : isLegal "aZ-$&09!.\x7b\x60x" = true := by decide
  obtain ⟨hgrammar, hbounds⟩ := names_decided "aZ-$&09!.\x7b\x60x"
  obtain ⟨-, -, -, -, -, hcase⟩ := hbounds hlegal
  exact ⟨hgrammar.mp hlegal, hlegal, hcase _ (by decide)⟩

/-- A line end behind a name is no part of it, and it is not dropped either. -/
example : isLegal "GAME.ROM\n" = false := by decide

end HostDrive.ShortName

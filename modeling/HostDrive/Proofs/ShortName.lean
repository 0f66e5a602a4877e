import HostDrive.ShortName
import HostDrive.Text.Ascii

/-!
# Short Names as Bytes

A short name is made of few ASCII characters and holds no zero byte, so nothing of it is lost on its
way through the name field of a block: its bytes in upper case, read as Latin-1, are the name in
upper case.
-/

namespace HostDrive

/-! ## Section 1: ASCII texts -/

namespace Text

/-- A character that a byte other than zero can stand for. -/
def IsPlainChar (c : Char) : Prop := 0 < c.toNat ∧ c.toNat < 128

instance (c : Char) : Decidable (IsPlainChar c) := inferInstanceAs (Decidable (_ ∧ _))

/-- The text in upper case, ASCII letters only. -/
def upper (s : String) : String := String.ofList (s.toList.map Char.toUpper)

theorem utf8EncodeChar_of_ascii {c : Char} (h : c.toNat < 128) :
    String.utf8EncodeChar c = [UInt8.ofNat c.toNat] := by
  have hsize : c.utf8Size = 1 := by
    rw [Char.utf8Size_eq_one_iff, UInt32.le_iff_toNat_le]
    exact Nat.le_of_lt_succ h
  rw [String.utf8EncodeChar_eq_singleton hsize]
  rfl

/-- ASCII characters are one byte each. -/
theorem utf8_of_ascii (s : String) (h : ∀ c ∈ s.toList, c.toNat < 128) :
    utf8 s = s.toList.map fun c => UInt8.ofNat c.toNat := by
  unfold utf8
  generalize s.toList = chars at h
  induction chars with
  | nil => rfl
  | cons c rest ih =>
    rw [List.flatMap_cons, utf8EncodeChar_of_ascii (h c (by simp)),
      ih fun c' hc' => h c' (List.mem_cons_of_mem c hc')]
    rfl

theorem utf8_of_plain (s : String) (h : ∀ c ∈ s.toList, IsPlainChar c) :
    utf8 s = s.toList.map fun c => UInt8.ofNat c.toNat :=
  utf8_of_ascii s fun c hc => (h c hc).2

/-- Case mapping on the byte of a plain character is case mapping on the character, and it leads to
    no zero byte. -/
private theorem upperByte_of_isPlainChar {c : Char} (h : IsPlainChar c) :
    Char.ofUInt8 (upperByte (UInt8.ofNat c.toNat)) = c.toUpper ∧
      upperByte (UInt8.ofNat c.toNat) ≠ 0 := by
  -- there are few enough of them to look at each
  have hall : ∀ n : Fin 128, 0 < n.val →
      Char.ofUInt8 (upperByte (UInt8.ofNat n.val)) = (Char.ofNat n.val).toUpper ∧
        upperByte (UInt8.ofNat n.val) ≠ 0 := by decide
  simpa using hall ⟨c.toNat, h.2⟩ h.1

/-- The upper-case bytes of a plain text, read as Latin-1, are the text in upper case. -/
theorem latin1_upperBytes (s : String) (h : ∀ c ∈ s.toList, IsPlainChar c) :
    latin1 (upperBytes s) = upper s := by
  simp only [latin1, upperBytes, upper, utf8_of_plain s h, List.map_map]
  congr 1
  apply List.map_congr_left
  intro c hc
  exact (upperByte_of_isPlainChar (h c hc)).1

theorem ne_zero_of_mem_upperBytes {s : String} (h : ∀ c ∈ s.toList, IsPlainChar c) :
    ∀ b ∈ upperBytes s, b ≠ 0 := by
  intro b hb
  simp only [upperBytes, utf8_of_plain s h, List.map_map, List.mem_map] at hb
  obtain ⟨c, hc, rfl⟩ := hb
  exact (upperByte_of_isPlainChar (h c hc)).2

end Text

/-! ## Section 2: Legal names -/

namespace ShortName

open Text (IsPlainChar)

/-- Letters, digits and the punctuation of names are plain. -/
theorem isPlainChar_of_isNameChar {c : Char} (h : isNameChar c = true) : IsPlainChar c := by
  rcases Bool.or_eq_true _ _ |>.mp h with halpha | hpunct
  · -- letters and digits lie in three ranges below 128
    have hranges : ((decide (c.val ≥ 65 ∧ c.val ≤ 90) ||
        decide (c.val ≥ 97) && decide (c.val ≤ 122)) ||
        decide (c.val ≥ 48) && decide (c.val ≤ 57)) = true := halpha
    simp only [Bool.or_eq_true, Bool.and_eq_true, decide_eq_true_eq, ge_iff_le,
      UInt32.le_iff_toNat_le, UInt32.reduceToNat] at hranges
    simp only [IsPlainChar, Char.toNat]
    omega
  · have hall : ∀ d ∈ punctuation, IsPlainChar d := by simp [punctuation, IsPlainChar]
    exact hall c (by simpa using hpunct)

private theorem isPart_iff {longest : Nat} {part : List Char} :
    isPart longest part = true ↔
      part ≠ [] ∧ part.length ≤ longest ∧ ∀ c ∈ part, isNameChar c = true := by
  simp [isPart, and_assoc]

/-- A base and an extension with a dot between them, or the base alone. -/
def glue {α : Type} (dot : α) (base : List α) : List α → List α
  | [] => base
  | c :: extension => base ++ dot :: c :: extension

theorem map_glue {α β : Type} (f : α → β) (dot : α) (base extension : List α) :
    (glue dot base extension).map f = glue (f dot) (base.map f) (extension.map f) := by
  cases extension <;> simp [glue]

/-- **The parts of a legal name**: a base, with nothing behind it or with a dot and the
    extension. -/
theorem exists_parts {name : String} (h : isLegal name = true) :
    ∃ base extension, name.toList = glue '.' base extension ∧
      base.length ≤ 8 ∧ extension.length ≤ 3 ∧
      (∀ c ∈ base, isNameChar c = true) ∧ (∀ c ∈ extension, isNameChar c = true) := by
  have hsplit : name.toList.takeWhile (· != '.') ++ name.toList.dropWhile (· != '.') =
      name.toList := List.takeWhile_append_dropWhile
  obtain ⟨hbase, hrest⟩ := Bool.and_eq_true_iff.mp h
  obtain ⟨-, hlen, hchars⟩ := isPart_iff.mp hbase
  rw [← hsplit]
  match hext : name.toList.dropWhile (· != '.') with
  | [] => exact ⟨_, [], List.append_nil _, hlen, Nat.zero_le _, hchars, List.forall_mem_nil _⟩
  | dot :: extension =>
    rw [hext] at hrest
    obtain ⟨hne, hlen', hchars'⟩ := isPart_iff.mp hrest
    have hdot : dot = '.' := by
      have := List.head?_dropWhile_not (· != '.') name.toList
      simpa [hext] using this
    refine ⟨_, extension, ?_, hlen, hlen', hchars, hchars'⟩
    cases extension with
    | nil => exact absurd rfl hne
    | cons c extension => rw [hdot, glue]

/-- **Legal names are short and plain.** Base, dot and extension make at most twelve characters,
    each of them one nonzero byte. -/
theorem isLegal_bounds {name : String} (h : isLegal name = true) :
    name.toList.length ≤ 12 ∧ ∀ c ∈ name.toList, IsPlainChar c := by
  obtain ⟨base, extension, hname, hlen, hlen', hchars, hchars'⟩ := exists_parts h
  rw [hname]
  cases extension with
  | nil => exact ⟨by simp only [glue]; omega, fun c hc => isPlainChar_of_isNameChar (hchars c hc)⟩
  | cons d extension =>
    refine ⟨by simp only [glue, List.length_append, List.length_cons] at *; omega, ?_⟩
    intro c hc
    rcases List.mem_append.mp hc with hc | hc
    · exact isPlainChar_of_isNameChar (hchars c hc)
    · rcases List.mem_cons.mp hc with rfl | hc
      · decide
      · exact isPlainChar_of_isNameChar (hchars' c hc)

end ShortName

end HostDrive

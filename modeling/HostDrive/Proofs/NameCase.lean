import HostDrive.Proofs.GuestPath
import Mathlib.Algebra.Group.Nat.Defs
import Mathlib.Data.List.Nodup
import Mathlib.Data.List.Perm.Subperm

/-!
# Names That Differ in Case

The guest is told names in upper case, and the host finds them again without regard to case. Nothing
is lost on the way: texts that agree but for case have the same bytes in upper case, and a text that
agrees with a short name is a short name too.

## Main statements

- `Text.upperBytes_eq_iff`: both ways to compare texts without regard to case come to the same
- `Text.sameIgnoringCase_upper`: a name in upper case is the same name
- `Text.length_le_of_sameIgnoringCase`: few texts differ in case alone
- `ShortName.isLegal_of_sameIgnoringCase`: the grammar of names does not look at case
- `ShortName.isPlainName_of_isLegal`: a short name leads one level down
-/

namespace HostDrive

/-! ## Section 1: Characters and bytes -/

namespace Text

/-- Case mapping stays among the plain characters, and so does the way back. -/
theorem isPlainChar_toLower_iff {c : Char} : IsPlainChar c.toLower ↔ IsPlainChar c := by
  constructor
  · intro h
    unfold Char.toLower at h
    split at h
    · -- an upper-case letter is plain anyway
      rename_i hupper
      simp only [ge_iff_le, UInt32.le_iff_toNat_le, Char.reduceVal, UInt32.reduceToNat] at hupper
      simp only [IsPlainChar, Char.toNat]
      omega
    · exact h
  · have hall : ∀ n : Fin 128, 0 < n.val → IsPlainChar (Char.ofNat n.val).toLower := by decide
    intro h
    simpa using hall ⟨c.toNat, h.2⟩ h.1

/-- Upper case on bytes forgets what lower case on characters forgets. -/
private theorem upperByte_toLower {c : Char} (h : IsPlainChar c) :
    upperByte (UInt8.ofNat c.toLower.toNat) = upperByte (UInt8.ofNat c.toNat) ∧
      (Char.ofUInt8 (upperByte (UInt8.ofNat c.toNat))).toLower = c.toLower := by
  have hall : ∀ n : Fin 128, 0 < n.val →
      upperByte (UInt8.ofNat (Char.ofNat n.val).toLower.toNat) = upperByte (UInt8.ofNat n.val) ∧
        (Char.ofUInt8 (upperByte (UInt8.ofNat n.val))).toLower = (Char.ofNat n.val).toLower := by
    decide
  simpa using hall ⟨c.toNat, h.2⟩ h.1

/-- Two plain characters agree but for case exactly if their bytes agree in upper case. -/
theorem upperByte_eq_iff {c d : Char} (hc : IsPlainChar c) (hd : IsPlainChar d) :
    upperByte (UInt8.ofNat c.toNat) = upperByte (UInt8.ofNat d.toNat) ↔ c.toLower = d.toLower := by
  constructor
  · intro h
    rw [← (upperByte_toLower hc).2, h, (upperByte_toLower hd).2]
  · intro h
    rw [← (upperByte_toLower hc).1, h, (upperByte_toLower hd).1]

/-! ## Section 2: Texts -/

/-- A text that agrees with a plain one is plain. -/
theorem isPlainChar_of_sameIgnoringCase {s t : String} (h : sameIgnoringCase s t = true)
    (ht : ∀ c ∈ t.toList, IsPlainChar c) : ∀ c ∈ s.toList, IsPlainChar c := by
  intro c hc
  have hlower : c.toLower ∈ t.toList.map Char.toLower := by
    have hmaps : s.toList.map Char.toLower = t.toList.map Char.toLower := by
      simpa [sameIgnoringCase] using h
    rw [← hmaps]
    exact List.mem_map_of_mem hc
  obtain ⟨d, hd, heq⟩ := List.mem_map.mp hlower
  rw [← isPlainChar_toLower_iff, ← heq, isPlainChar_toLower_iff]
  exact ht d hd

/-- **Equal but for case**: plain texts agree exactly if their bytes agree in upper case. -/
theorem upperBytes_eq_iff {s t : String} (hs : ∀ c ∈ s.toList, IsPlainChar c)
    (ht : ∀ c ∈ t.toList, IsPlainChar c) :
    upperBytes s = upperBytes t ↔ sameIgnoringCase s t = true := by
  rw [upperBytes, upperBytes, utf8_of_plain s hs, utf8_of_plain t ht, List.map_map, List.map_map,
    sameIgnoringCase, beq_iff_eq]
  generalize s.toList = cs at hs
  generalize t.toList = ds at ht
  -- character by character, in step
  induction cs generalizing ds with
  | nil => cases ds <;> simp
  | cons c cs ih =>
    cases ds with
    | nil => simp
    | cons d ds =>
      have hhead := upperByte_eq_iff (hs c List.mem_cons_self) (ht d List.mem_cons_self)
      have htail := ih (fun c' hc' => hs c' (List.mem_cons_of_mem _ hc')) ds
        fun d' hd' => ht d' (List.mem_cons_of_mem _ hd')
      simp only [List.map_cons, List.cons.injEq, Function.comp_apply]
      exact and_congr hhead htail

/-- A plain text in upper case agrees with the text itself. -/
theorem sameIgnoringCase_upper {s : String} (hs : ∀ c ∈ s.toList, IsPlainChar c) :
    sameIgnoringCase (upper s) s = true := by
  have hchars : ∀ n : Fin 128, (Char.ofNat n.val).toUpper.toLower = (Char.ofNat n.val).toLower := by
    decide
  rw [sameIgnoringCase, beq_iff_eq, upper, String.toList_ofList, List.map_map]
  apply List.map_congr_left
  intro c hc
  have hcase := hchars ⟨c.toNat, (hs c hc).2⟩
  rw [Char.ofNat_toNat] at hcase
  exact hcase

/-! ## Section 3: How many texts agree -/

/-- All texts that agree with one but for case: two choices for each character at most. -/
def spellings : List Char → List (List Char)
  | [] => [[]]
  | c :: rest => (spellings rest).map (c.toLower :: ·) ++
      (spellings rest).map (c.toLower.toUpper :: ·)

theorem length_spellings (s : List Char) : (spellings s).length = 2 ^ s.length := by
  induction s with
  | nil => rfl
  | cons c s ih =>
    rw [spellings, List.length_append, List.length_map, List.length_map, ih, List.length_cons]
    omega

/-- There are no others. -/
private theorem mem_spellings {s t : List Char} (hs : ∀ c ∈ s, IsPlainChar c)
    (h : s.map Char.toLower = t.map Char.toLower) : s ∈ spellings t := by
  have hall : ∀ n : Fin 128, Char.ofNat n.val = (Char.ofNat n.val).toLower ∨
      Char.ofNat n.val = (Char.ofNat n.val).toLower.toUpper := by decide
  induction t generalizing s with
  | nil =>
    obtain rfl : s = [] := List.map_eq_nil_iff.mp h
    exact List.mem_singleton_self _
  | cons d t ih =>
    match s with
    | [] => exact absurd h (by simp)
    | c :: s =>
      obtain ⟨hhead, htail⟩ := List.cons.inj h
      have hrest := ih (fun c' hc' => hs c' (List.mem_cons_of_mem _ hc')) htail
      have hc := hall ⟨c.toNat, (hs c List.mem_cons_self).2⟩
      rw [Char.ofNat_toNat, hhead] at hc
      rw [spellings, List.mem_append]
      -- the character itself is in lower case, or else it is in upper case
      rcases hc with hlower | hupper
      · left
        rw [hlower]
        exact List.mem_map_of_mem hrest
      · right
        rw [hupper]
        exact List.mem_map_of_mem hrest

/-- **Few texts agree with a plain one**: no more than two for each character. -/
theorem length_le_of_sameIgnoringCase {names : List String} {name : String}
    (hnodup : names.Nodup) (hplain : ∀ c ∈ name.toList, IsPlainChar c)
    (hsame : ∀ s ∈ names, sameIgnoringCase s name = true) : names.length ≤ 2 ^ name.length := by
  have hsub : names.map String.toList ⊆ spellings name.toList := by
    intro chars hchars
    obtain ⟨s, hs, rfl⟩ := List.mem_map.mp hchars
    apply mem_spellings (isPlainChar_of_sameIgnoringCase (hsame s hs) hplain)
    simpa [sameIgnoringCase] using hsame s hs
  have hnodup' : (names.map String.toList).Nodup :=
    List.Nodup.map (fun s t heq => String.toList_inj.mp heq) hnodup
  have hlength := (hnodup'.subperm hsub).length_le
  rw [List.length_map, length_spellings, String.length_toList] at hlength
  exact hlength

end Text

/-! ## Section 4: Short names -/

namespace ShortName

open Text (IsPlainChar sameIgnoringCase)

/-- Case does not decide which characters names are made of. -/
theorem isNameChar_of_toLower_eq {c d : Char} (h : c.toLower = d.toLower)
    (hd : isNameChar d = true) : isNameChar c = true := by
  have hall : ∀ n : Fin 128,
      isNameChar (Char.ofNat n.val).toLower = isNameChar (Char.ofNat n.val) := by decide
  have hplain : IsPlainChar d := isPlainChar_of_isNameChar hd
  have hplain' : IsPlainChar c := by
    rw [← Text.isPlainChar_toLower_iff, h, Text.isPlainChar_toLower_iff]
    exact hplain
  have hc' : isNameChar c.toLower = isNameChar c := by simpa using hall ⟨c.toNat, hplain'.2⟩
  have hd' : isNameChar d.toLower = isNameChar d := by simpa using hall ⟨d.toNat, hplain.2⟩
  rw [← hc', h, hd', hd]

private theorem isPart_of_map_toLower_eq {longest : Nat} {p q : List Char}
    (h : p.map Char.toLower = q.map Char.toLower) (hq : isPart longest q = true) :
    isPart longest p = true := by
  have hlength : p.length = q.length := by simpa using congrArg List.length h
  simp only [isPart, Bool.and_eq_true, Bool.not_eq_true', List.isEmpty_eq_false_iff,
    decide_eq_true_eq, List.all_eq_true] at hq ⊢
  obtain ⟨⟨hne, hle⟩, hchars⟩ := hq
  refine ⟨⟨?_, hlength ▸ hle⟩, ?_⟩
  · rintro rfl
    exact hne (List.length_eq_zero_iff.mp hlength.symm)
  · intro c hc
    have hlower : c.toLower ∈ q.map Char.toLower := h ▸ List.mem_map_of_mem hc
    obtain ⟨d, hd, heq⟩ := List.mem_map.mp hlower
    exact isNameChar_of_toLower_eq heq.symm (hchars d hd)

/-- **The grammar of names does not look at case.** -/
theorem isLegal_of_sameIgnoringCase {s t : String} (h : sameIgnoringCase s t = true)
    (ht : isLegal t = true) : isLegal s = true := by
  have hmaps : s.toList.map Char.toLower = t.toList.map Char.toLower := by
    simpa [sameIgnoringCase] using h
  -- a dot has no case, so both names are cut at the same place
  have hdot : (fun c : Char => c != '.') = (fun c => c != '.') ∘ Char.toLower := by
    funext c
    rw [Function.comp_apply, Bool.eq_iff_iff, bne_iff_ne, bne_iff_ne]
    exact not_congr (Text.toLower_eq_iff (by decide)).symm
  have htake : (s.toList.takeWhile (· != '.')).map Char.toLower =
      (t.toList.takeWhile (· != '.')).map Char.toLower := by
    rw [hdot, ← List.takeWhile_map, ← List.takeWhile_map, hmaps]
  have hdrop : (s.toList.dropWhile (· != '.')).map Char.toLower =
      (t.toList.dropWhile (· != '.')).map Char.toLower := by
    rw [hdot, ← List.dropWhile_map, ← List.dropWhile_map, hmaps]
  unfold isLegal isLegalChars at ht ⊢
  rw [Bool.and_eq_true] at ht ⊢
  refine ⟨isPart_of_map_toLower_eq htake ht.1, ?_⟩
  have hrest := ht.2
  revert hdrop hrest
  cases t.toList.dropWhile (· != '.') with
  | nil =>
    intro hdrop hrest
    rw [List.map_eq_nil_iff.mp hdrop]
  | cons d extension =>
    intro hdrop hrest
    cases hs : s.toList.dropWhile (· != '.') with
    | nil => rfl
    | cons c extension' =>
      rw [hs] at hdrop
      exact isPart_of_map_toLower_eq (List.cons.inj hdrop).2 hrest

/-- **A short name is a name for the guest too**, with no colon in it. -/
theorem isPlainName_of_isLegal {s : String} (h : isLegal s = true) : GuestPath.IsPlainName s := by
  have hchars : ∀ c ∈ s.toList, c ≠ '\\' ∧ c ≠ '/' ∧ c ≠ ':' := by
    have hall : ∀ c, isNameChar c = true → c ≠ '\\' ∧ c ≠ '/' ∧ c ≠ ':' := by
      intro c hc
      refine ⟨?_, ?_, ?_⟩ <;> rintro rfl <;> exact absurd hc (by decide)
    obtain ⟨base, extension, hname, -, -, hbase, hextension⟩ := exists_parts h
    rw [hname]
    intro c hc
    cases extension with
    | nil => exact hall c (hbase c hc)
    | cons d extension =>
      rcases List.mem_append.mp hc with hc | hc
      · exact hall c (hbase c hc)
      · rcases List.mem_cons.mp hc with rfl | hc
        · decide
        · exact hall c (hextension c hc)
  refine ⟨⟨?empty, ?here, ?above, fun c hc => ⟨(hchars c hc).1, (hchars c hc).2.1⟩⟩,
    fun c hc => (hchars c hc).2.2⟩
  case empty =>
    rintro rfl
    exact absurd h (by decide)
  case here =>
    rintro rfl
    exact absurd h (by decide)
  case above =>
    rintro rfl
    exact absurd h (by decide)

end ShortName

end HostDrive

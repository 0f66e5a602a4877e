import HostDrive.Proofs.Guest.Memory
import HostDrive.Proofs.ShortName
import Mathlib.Data.List.TakeWhile

/-!
# Texts in Guest Memory

Whatever the guest's memory holds, a text read from it is short and made of plain characters: bytes
outside ASCII have become question marks, and the reader stops before a zero byte. The other way
round, a text that was written is heard up to its first zero character, as far as the limit goes:
of ASCII characters all of that, and a text of plain characters as it was.
-/

namespace HostDrive

/-! ## Section 1: Plain texts as bytes -/

namespace Text

/-- Whatever byte the guest has, what stands for it is plain. -/
theorem isPlainChar_plainByte {b : UInt8} (hb : b ≠ 0) :
    IsPlainChar (Char.ofUInt8 (plainByte b)) := by
  have hpos : 0 < b.toNat := UInt8.pos_iff_ne_zero.mpr hb
  unfold plainByte
  split
  · rename_i hlt
    exact ⟨hpos, hlt⟩
  · decide

/-- The byte of an ASCII character is that character, is shown as it is, and is zero only for the
    zero character. -/
private theorem byte_of_ascii {c : Char} (h : c.toNat < 128) :
    Char.ofUInt8 (UInt8.ofNat c.toNat) = c ∧
      plainByte (UInt8.ofNat c.toNat) = UInt8.ofNat c.toNat ∧
      (UInt8.ofNat c.toNat != 0) = (c != '\x00') := by
  have hall : ∀ n : Fin 128,
      Char.ofUInt8 (UInt8.ofNat n.val) = Char.ofNat n.val ∧
        plainByte (UInt8.ofNat n.val) = UInt8.ofNat n.val ∧
        (UInt8.ofNat n.val != 0) = (Char.ofNat n.val != '\x00') := by decide
  simpa using hall ⟨c.toNat, h⟩

variable {s : String}

theorem ascii_of_plain (h : ∀ c ∈ s.toList, IsPlainChar c) : ∀ c ∈ s.toList, c.toNat < 128 :=
  fun c hc => (h c hc).2

theorem length_utf8_of_ascii (h : ∀ c ∈ s.toList, c.toNat < 128) : (utf8 s).length = s.length := by
  rw [utf8_of_ascii s h, List.length_map, String.length_toList]

theorem length_utf8_of_plain (h : ∀ c ∈ s.toList, IsPlainChar c) :
    (utf8 s).length = s.length :=
  length_utf8_of_ascii (ascii_of_plain h)

/-- ASCII characters are shown as they are. -/
theorem map_plainByte_utf8 (h : ∀ c ∈ s.toList, c.toNat < 128) :
    (utf8 s).map plainByte = utf8 s := by
  rw [utf8_of_ascii s h, List.map_map]
  exact List.map_congr_left fun c hc => (byte_of_ascii (h c hc)).2.1

/-- The bytes of a text of ASCII characters are its characters. -/
theorem latin1_utf8 (h : ∀ c ∈ s.toList, c.toNat < 128) : latin1 (utf8 s) = s := by
  have hchars : (s.toList.map fun c => Char.ofUInt8 (UInt8.ofNat c.toNat)) = s.toList.map id :=
    List.map_congr_left fun c hc => (byte_of_ascii (h c hc)).1
  rw [latin1, utf8_of_ascii s h, List.map_map]
  exact (congrArg String.ofList (hchars.trans (List.map_id _))).trans String.ofList_toList

theorem isAscii_of_plain (h : ∀ c ∈ s.toList, IsPlainChar c) : isAscii s = true :=
  List.all_eq_true.mpr fun c hc => decide_eq_true (h c hc).2

/-- No byte of a character outside ASCII could be taken for one of an ASCII character. -/
private theorem le_of_mem_utf8EncodeChar {c : Char} (hc : 128 ≤ c.toNat) {b : UInt8}
    (hb : b ∈ String.utf8EncodeChar c) : 128 ≤ b.toNat := by
  -- two, three or four bytes, each of them with its highest bit set
  have hlead : ¬ c.val.toNat ≤ 127 := Nat.not_le_of_lt hc
  simp only [String.utf8EncodeChar, hlead, if_false] at hb
  split at hb
  · simp only [List.mem_cons, List.not_mem_nil, or_false] at hb
    rcases hb with rfl | rfl <;> simp <;> omega
  · split at hb
    · simp only [List.mem_cons, List.not_mem_nil, or_false] at hb
      rcases hb with rfl | rfl | rfl <;> simp <;> omega
    · simp only [List.mem_cons, List.not_mem_nil, or_false] at hb
      rcases hb with rfl | rfl | rfl | rfl <;> simp <;> omega

theorem plainByte_of_le {b : UInt8} (h : 128 ≤ b.toNat) : plainByte b = questionMark := by
  apply if_neg
  rw [UInt8.lt_iff_toNat_lt]
  exact Nat.not_lt_of_le h

theorem plainByte_of_lt {b : UInt8} (h : b.toNat < 128) : plainByte b = b :=
  if_pos (UInt8.lt_iff_toNat_lt.mpr h)

/-- What stands for a byte stands for itself. -/
@[simp] theorem plainByte_plainByte (b : UInt8) : plainByte (plainByte b) = plainByte b := by
  rcases Nat.lt_or_ge b.toNat 128 with hlow | hhigh
  · rw [plainByte_of_lt hlow, plainByte_of_lt hlow]
  · rw [plainByte_of_le hhigh]
    rfl

/-- Nothing but a zero byte is shown as one. -/
theorem plainByte_bne_zero (b : UInt8) : (plainByte b != 0) = (b != 0) := by
  rcases Nat.lt_or_ge b.toNat 128 with hlow | hhigh
  · rw [plainByte_of_lt hlow]
  · have hne : b ≠ 0 := by
      rintro rfl
      exact absurd hhigh (by decide)
    rw [plainByte_of_le hhigh, bne_iff_ne.mpr hne]
    rfl

/-- **What the guest is shown for a byte**: the ASCII character with this number, or a question
    mark if there is none. -/
def shownChar (b : UInt8) : Char := if b.toNat ≤ 0x7F then Char.ofNat b.toNat else '?'

theorem ofUInt8_plainByte (b : UInt8) : Char.ofUInt8 (plainByte b) = shownChar b := by
  rcases Nat.lt_or_ge b.toNat 128 with hlow | hhigh
  · have hall : ∀ n : Fin 128, Char.ofUInt8 (UInt8.ofNat n.val) = Char.ofNat n.val := by decide
    rw [plainByte_of_lt hlow, shownChar, if_pos (Nat.le_of_lt_succ hlow)]
    simpa using hall ⟨b.toNat, hlow⟩
  · rw [plainByte_of_le hhigh, shownChar, if_neg (Nat.not_le_of_lt hhigh)]
    rfl

/-- **What a byte of a text is**: an ASCII character of it, or part of a character that the guest
    cannot show. -/
theorem mem_utf8_cases {b : UInt8} (hb : b ∈ utf8 s) :
    (∃ c ∈ s.toList, c.toNat < 128 ∧ b = UInt8.ofNat c.toNat) ∨
      (∃ c ∈ s.toList, 128 ≤ c.toNat) ∧ 128 ≤ b.toNat := by
  obtain ⟨c, hc, hmem⟩ := List.mem_flatMap.mp hb
  by_cases hascii : c.toNat < 128
  · rw [utf8EncodeChar_of_ascii hascii] at hmem
    exact .inl ⟨c, hc, hascii, List.mem_singleton.mp hmem⟩
  · have hle := Nat.le_of_not_lt hascii
    exact .inr ⟨⟨c, hc, hle⟩, le_of_mem_utf8EncodeChar hle hmem⟩

/-- A character outside ASCII leaves bytes outside ASCII. -/
theorem exists_mem_utf8 {c : Char} (hc : c ∈ s.toList) (hhigh : 128 ≤ c.toNat) :
    ∃ b ∈ utf8 s, 128 ≤ b.toNat := by
  have hne : String.utf8EncodeChar c ≠ [] := by
    apply List.ne_nil_of_length_pos
    rw [String.length_utf8EncodeChar]
    exact c.utf8Size_pos
  obtain ⟨b, hb⟩ := List.exists_mem_of_ne_nil _ hne
  exact ⟨b, List.mem_flatMap.mpr ⟨c, hc, hb⟩, le_of_mem_utf8EncodeChar hhigh hb⟩

/-- Only a zero character has a zero byte. -/
theorem ne_zero_of_mem_utf8EncodeChar {c : Char} (hc : c ≠ '\x00') {b : UInt8}
    (hb : b ∈ String.utf8EncodeChar c) : b ≠ 0 := by
  by_cases hascii : c.toNat < 128
  · rw [utf8EncodeChar_of_ascii hascii] at hb
    rw [List.mem_singleton.mp hb]
    exact bne_iff_ne.mp ((byte_of_ascii hascii).2.2.trans (bne_iff_ne.mpr hc))
  · rintro rfl
    exact absurd (le_of_mem_utf8EncodeChar (Nat.le_of_not_lt hascii) hb) (by decide)

theorem utf8_append (s t : String) : utf8 (s ++ t) = utf8 s ++ utf8 t := by
  rw [utf8, String.toList_append, List.flatMap_append]
  rfl

/-- A character takes four bytes at most, and one at least. -/
theorem length_utf8_bounds (s : String) :
    s.length ≤ (utf8 s).length ∧ (utf8 s).length ≤ 4 * s.length := by
  rw [← String.length_toList, utf8]
  induction s.toList with
  | nil => exact ⟨Nat.le_refl _, Nat.le_refl _⟩
  | cons c cs ih =>
    have hpos := c.utf8Size_pos
    have hfour := c.utf8Size_le_four
    rw [List.flatMap_cons, List.length_append, String.length_utf8EncodeChar, List.length_cons]
    omega

/-- The bytes of a text are those that the host counts. -/
theorem length_utf8 (s : String) : (utf8 s).length = s.utf8ByteSize := by
  rw [String.utf8ByteSize, ← String.utf8Encode_toList, List.utf8Encode, List.size_toByteArray]
  rfl

/-! ## Section 2: Texts with zero characters -/

/-- A text up to its first zero character. -/
def untilZero (s : String) : String := String.ofList (s.toList.takeWhile (· != '\x00'))

theorem untilZero_eq_iff : untilZero s = s ↔ '\x00' ∉ s.toList := by
  rw [untilZero, ← String.toList_inj, String.toList_ofList, List.takeWhile_eq_self_iff]
  constructor
  · exact fun h hmem => absurd (h _ hmem) (by decide)
  · exact fun h c hc => bne_iff_ne.mpr fun heq => h (heq ▸ hc)

theorem untilZero_of_plain (h : ∀ c ∈ s.toList, IsPlainChar c) : untilZero s = s :=
  untilZero_eq_iff.mpr fun hmem => absurd (h _ hmem) (by decide)

theorem length_untilZero_le (s : String) : (untilZero s).length ≤ s.length := by
  rw [← String.length_toList, ← String.length_toList, untilZero, String.toList_ofList]
  exact (List.takeWhile_prefix _).length_le

/-- What stands before the first zero character of an ASCII text is plain. -/
theorem plain_untilZero (h : ∀ c ∈ s.toList, c.toNat < 128) :
    ∀ c ∈ (untilZero s).toList, IsPlainChar c := by
  intro c hc
  rw [untilZero, String.toList_ofList] at hc
  have hne : c ≠ '\x00' := by simpa using List.mem_takeWhile_imp hc
  exact ⟨Nat.pos_of_ne_zero fun hzero => hne (Char.toNat_inj.mp hzero),
    h c ((List.takeWhile_prefix _).subset hc)⟩

/-- **Zero bytes stand for zero characters**: the bytes before the first one are those of the
    characters before the first one. -/
theorem takeWhile_utf8 (s : String) : (utf8 s).takeWhile (· != 0) = utf8 (untilZero s) := by
  rw [utf8, utf8, untilZero, String.toList_ofList]
  induction s.toList with
  | nil => rfl
  | cons c chars ih =>
    rw [List.flatMap_cons, List.takeWhile_cons]
    by_cases hzero : c = '\x00'
    · subst hzero
      rfl
    · -- no byte of this character ends the bytes
      have hbytes : ∀ b ∈ String.utf8EncodeChar c, (b != 0) = true := fun b hb =>
        bne_iff_ne.mpr (ne_zero_of_mem_utf8EncodeChar hzero hb)
      rw [List.takeWhile_append_of_pos hbytes, ih, if_pos (bne_iff_ne.mpr hzero),
        List.flatMap_cons]

end Text

/-! ## Section 3: Reading and writing -/

namespace Guest

open Text (IsPlainChar)

theorem length_readPlain_le (view : View) (start : UInt16) (limit : Nat) :
    (readPlain view start limit).length ≤ limit := by
  induction limit generalizing start with
  | zero => exact Nat.le_refl _
  | succ limit ih =>
    simp only [readPlain]
    split
    · exact Nat.zero_le _
    · exact Nat.succ_le_succ (ih (start + 1))

theorem isPlainChar_of_mem_readPlain {view : View} {start : UInt16} {limit : Nat} {b : UInt8}
    (h : b ∈ readPlain view start limit) : IsPlainChar (Char.ofUInt8 b) := by
  induction limit generalizing start with
  | zero => exact absurd h List.not_mem_nil
  | succ limit ih =>
    simp only [readPlain] at h
    split at h
    · exact absurd h List.not_mem_nil
    · rename_i hzero
      rcases List.mem_cons.mp h with rfl | hrest
      · exact Text.isPlainChar_plainByte fun heq => hzero (by simpa using heq)
      · exact ih hrest

/-- **What a guest can give as a text** is no longer than the limit, and plain. -/
theorem readText_bounds (view : View) (start : UInt16) (limit : Nat) :
    (readText view start limit).length ≤ limit ∧
      ∀ c ∈ (readText view start limit).toList, IsPlainChar c := by
  constructor
  · rw [readText, Text.latin1, String.length_ofList, List.length_map]
    exact length_readPlain_le view start limit
  · intro c hc
    rw [readText, Text.latin1, String.toList_ofList] at hc
    obtain ⟨b, hb, rfl⟩ := List.mem_map.mp hc
    exact isPlainChar_of_mem_readPlain hb

/-! ## Section 4: What is heard of a text -/

/-- What a reader with this limit makes of a text: its first bytes, with a question mark for each
    byte outside ASCII. -/
def heard (limit : Nat) (s : String) : String :=
  Text.latin1 (((Text.utf8 s).take limit).map Text.plainByte)

theorem toList_heard (limit : Nat) (s : String) :
    (heard limit s).toList = ((Text.utf8 s).take limit).map Text.shownChar := by
  rw [heard, Text.latin1, String.toList_ofList, List.map_map]
  exact List.map_congr_left fun b _ => Text.ofUInt8_plainByte b

/-- A plain text is heard as it is, if it is no longer than the limit. -/
theorem heard_of_plain {limit : Nat} {s : String} (hplain : ∀ c ∈ s.toList, IsPlainChar c)
    (hlimit : s.length ≤ limit) : heard limit s = s := by
  have hlength := Text.length_utf8_of_plain hplain
  have hascii := Text.ascii_of_plain hplain
  rw [heard, List.take_of_length_le (hlength ▸ hlimit), Text.map_plainByte_utf8 hascii,
    Text.latin1_utf8 hascii]

/-- Texts within the limit are heard one after the other. -/
theorem heard_append {limit : Nat} {s t : String}
    (hlimit : (Text.utf8 (s ++ t)).length ≤ limit) :
    heard limit (s ++ t) = heard limit s ++ heard limit t := by
  have hlengths : (Text.utf8 s).length + (Text.utf8 t).length ≤ limit := by
    rw [← List.length_append, ← Text.utf8_append]
    exact hlimit
  have hs : (Text.utf8 s).take limit = Text.utf8 s := List.take_of_length_le (by omega)
  have ht : (Text.utf8 t).take limit = Text.utf8 t := List.take_of_length_le (by omega)
  have hst : (Text.utf8 (s ++ t)).take limit = Text.utf8 (s ++ t) := List.take_of_length_le hlimit
  rw [heard, heard, heard, hs, ht, hst, Text.utf8_append, Text.latin1, List.map_append,
    List.map_append, String.ofList_append]
  rfl

/-- Nothing is heard but characters of the text and question marks. -/
theorem mem_heard {limit : Nat} {s : String} {c : Char} (h : c ∈ (heard limit s).toList) :
    c = '?' ∨ c ∈ s.toList := by
  rw [heard, Text.latin1, String.toList_ofList, List.map_map] at h
  obtain ⟨b, hb, rfl⟩ := List.mem_map.mp h
  rcases Text.mem_utf8_cases (List.mem_of_mem_take hb) with ⟨c, hc, hascii, rfl⟩ | ⟨-, hhigh⟩
  · right
    rw [Function.comp_apply, (Text.byte_of_ascii hascii).2.1, (Text.byte_of_ascii hascii).1]
    exact hc
  · left
    rw [Function.comp_apply, Text.plainByte_of_le hhigh]
    rfl

/-- Without a question mark nothing was lost. -/
theorem heard_of_not_mem {limit : Nat} {s : String} (hzero : ∀ c ∈ s.toList, c.toNat ≠ 0)
    (hlimit : (Text.utf8 s).length ≤ limit) (h : '?' ∉ (heard limit s).toList) :
    heard limit s = s := by
  have hplain : ∀ c ∈ s.toList, IsPlainChar c := by
    intro c hc
    refine ⟨Nat.pos_of_ne_zero (hzero c hc), Nat.lt_of_not_le fun hhigh => h ?_⟩
    obtain ⟨b, hb, hbhigh⟩ := Text.exists_mem_utf8 hc hhigh
    have hmark : Char.ofUInt8 (Text.plainByte b) = '?' := by
      rw [Text.plainByte_of_le hbhigh]
      rfl
    rw [heard, List.take_of_length_le hlimit, Text.latin1, String.toList_ofList, ← hmark,
      List.map_map]
    exact List.mem_map_of_mem hb
  rw [Text.length_utf8_of_plain hplain] at hlimit
  exact heard_of_plain hplain hlimit

/-! ## Section 5: Texts that were written -/

theorem length_plainText (s : String) : (plainText s).length = s.utf8ByteSize + 1 := by
  rw [plainText, List.length_append, List.length_map, Text.length_utf8, List.length_singleton]

theorem length_plainText_of_ascii {s : String} (h : ∀ c ∈ s.toList, c.toNat < 128) :
    (plainText s).length = s.length + 1 := by
  rw [length_plainText, ← Text.length_utf8, Text.length_utf8_of_ascii h]

/-- **A text is read up to its first zero character**, where memory holds it as it was written, and
    of that the reader hears as much as its limit allows. -/
theorem readText_of_holds_plainText {view : View} {start : UInt16} {s : String}
    (h : readBlock view start (plainText s).length = plainText s) (limit : Nat) :
    readText view start limit = heard limit (Text.untilZero s) := by
  have hbytes : ∀ i (hi : i < (plainText s).length),
      view (start + UInt16.ofNat i) = (plainText s)[i] := by
    intro i hi
    rw [← getElem_readBlock view start (plainText s).length i (by simpa using hi)]
    simp only [h]
  have hshown : ((Text.utf8 s).map Text.plainByte).takeWhile (· != 0) =
      (Text.utf8 (Text.untilZero s)).map Text.plainByte := by
    rw [List.takeWhile_map, ← Text.takeWhile_utf8]
    congr 2
    exact funext Text.plainByte_bne_zero
  have hsame : Text.plainByte ∘ Text.plainByte = Text.plainByte := funext Text.plainByte_plainByte
  rw [readText, readPlain_eq view start _ limit hbytes, hshown, ← List.map_take, List.map_map,
    hsame, heard]

/-- **A text of ASCII characters is read up to its first zero character**, where memory holds it and
    the limit is high enough. -/
theorem readText_of_holds_ascii {view : View} {start : UInt16} {s : String} {limit : Nat}
    (hascii : ∀ c ∈ s.toList, c.toNat < 128) (hlimit : s.length ≤ limit)
    (h : readBlock view start (plainText s).length = plainText s) :
    readText view start limit = Text.untilZero s := by
  rw [readText_of_holds_plainText h, heard_of_plain (Text.plain_untilZero hascii)]
  exact Nat.le_trans (Text.length_untilZero_le s) hlimit

/-- **A plain text reads back.** Where memory holds its bytes, a reader with a limit that is high
    enough gets the text. -/
theorem readText_of_holds {view : View} {start : UInt16} {s : String} {limit : Nat}
    (hplain : ∀ c ∈ s.toList, IsPlainChar c) (hlimit : s.length ≤ limit)
    (h : readBlock view start (plainText s).length = plainText s) :
    readText view start limit = s := by
  rw [readText_of_holds_ascii (Text.ascii_of_plain hplain) hlimit h, Text.untilZero_of_plain hplain]

/-! ## Section 6: Texts that a guest gives -/

/-- **Memory holds a text** for a reader with this limit: its bytes, and behind them a zero byte,
    unless the reader stops there anyway. -/
def HoldsText (view : View) (start : UInt16) (limit : Nat) (s : String) : Prop :=
  readBlock view start (Text.utf8 s).length = Text.utf8 s ∧
    ((Text.utf8 s).length < limit → view (start + UInt16.ofNat (Text.utf8 s).length) = 0)

/-- **A text is read as it is heard**, if there is no zero character in it. -/
theorem HoldsText.readText {view : View} {start : UInt16} {limit : Nat} {s : String}
    (h : HoldsText view start limit s) (hzero : ∀ c ∈ s.toList, c.toNat ≠ 0) :
    readText view start limit = heard limit s := by
  have hwhole : Text.untilZero s = s := Text.untilZero_eq_iff.mpr fun hmem => hzero _ hmem rfl
  rw [Guest.readText, readPlain_of_run h.1 h.2, Text.takeWhile_utf8, hwhole, heard]

end Guest

/-! ## Section 7: A guest that gives a text -/

namespace FlatGuest

/-- A guest with a text in otherwise empty memory, for a search as well as for a path, and room for
    the block of a search. -/
def giving (s : String) : FlatGuest :=
  Guest.setRegisters (Guest.store (filled 0) 0xA000 (Text.utf8 s))
    { hl := 0xA000, ix := 0x9000, iy := 0xA000 }

theorem holdsText_giving {s : String} (hlength : (Text.utf8 s).length < memorySize) (limit : Nat) :
    Guest.HoldsText (giving s).peek 0xA000 limit s := by
  refine ⟨readBlock_store (filled 0) 0xA000 _ (Nat.le_of_lt hlength), fun _ => ?_⟩
  -- the byte behind the text is as empty as memory was
  have hbehind : ¬ Guest.Within 0xA000 (Text.utf8 s).length
      (0xA000 + UInt16.ofNat (Text.utf8 s).length) := by
    rw [Guest.Within, Guest.toNat_add_ofNat_sub, Nat.mod_eq_of_lt hlength]
    exact Nat.lt_irrefl _
  show (Guest.store (filled 0) 0xA000 (Text.utf8 s)).peek _ = 0
  rw [peek_store_of_not_within hbehind, peek_filled]

end FlatGuest

end HostDrive

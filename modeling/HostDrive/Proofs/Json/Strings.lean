import HostDrive.Json.Quoted
import HostDrive.Json.Token

/-!
# Texts in JSON Strings

A text can be spelled in a string in many ways: most characters stand for themselves, some have a
letter behind a backslash, and all of them can be given by number, those above sixteen bits by two.
The reader finds the text again from every spelling, and no text where there is none.

## Architecture

- `SpellsUnits` spells out units, and `HasUnits` says which units a text can be made of.
- `stringUnits?_of_spells`: the units of a string are read.
- `unitText?_eq_some_iff`: the text of units is found exactly if they have one.
- `exists_units_escape`: what is written for a text is a spelling of it.
-/

namespace HostDrive.Json

/-! ## Section 1: Spelling units -/

/-- The letters that stand for a character behind a backslash. -/
def letters : List (Char × Char) :=
  [('\x22', '\x22'), ('\\', '\\'), ('/', '/'), ('b', '\x08'), ('f', '\x0c'), ('n', '\n'),
    ('r', '\r'), ('t', '\t')]

/-- A hexadecimal digit, in either case. -/
def IsHexDigit (value : Nat) (c : Char) : Prop :=
  value < 16 ∧ (c = Nat.digitChar value ∨ c = (Nat.digitChar value).toUpper)

/-- **Units spelled out** in a string: a character as it stands, unless it is a quote, a backslash
    or a control character; a letter behind a backslash; or a number in four digits. -/
inductive SpellsUnits : List StringUnit → List Char → Prop
  | nil : SpellsUnits [] []
  | plain {c : Char} {units : List StringUnit} {s : List Char} (hcontrol : 0x20 ≤ c.toNat)
      (hquote : c ≠ '\x22') (hbackslash : c ≠ '\\') (hs : SpellsUnits units s) :
      SpellsUnits (.char c :: units) (c :: s)
  | letter {e c : Char} {units : List StringUnit} {s : List Char} (he : (e, c) ∈ letters)
      (hs : SpellsUnits units s) : SpellsUnits (.char c :: units) ('\\' :: e :: s)
  | number {w x y z : Nat} {a b c d : Char} {units : List StringUnit} {s : List Char}
      (ha : IsHexDigit w a) (hb : IsHexDigit x b) (hc : IsHexDigit y c) (hd : IsHexDigit z d)
      (hs : SpellsUnits units s) :
      SpellsUnits (.number (((w * 16 + x) * 16 + y) * 16 + z) :: units)
        ('\\' :: 'u' :: a :: b :: c :: d :: s)

theorem hexValue?_of_isHexDigit {value : Nat} {c : Char} (h : IsHexDigit value c) :
    hexValue? c = some value := by
  have hall : ∀ v : Fin 16, hexValue? (Nat.digitChar v.val) = some v.val ∧
      hexValue? (Nat.digitChar v.val).toUpper = some v.val := by decide
  obtain ⟨hlt, rfl | rfl⟩ := h
  · exact (hall ⟨value, hlt⟩).1
  · exact (hall ⟨value, hlt⟩).2

/-- **Units are read** up to the quote behind them. -/
theorem stringUnits?_of_spells {units : List StringUnit} {s : List Char} (h : SpellsUnits units s)
    (rest : List Char) : stringUnits? (s ++ '\x22' :: rest) = some (units, rest) := by
  induction h with
  | nil => rfl
  | @plain c units s hcontrol hquote hbackslash _ ih =>
    have hnot : ¬ c.toNat < 0x20 := Nat.not_lt_of_le hcontrol
    rw [List.cons_append]
    simp [stringUnits?, hbackslash, hnot, ih, prepend]
  | @letter e c units s he _ ih =>
    -- one case for each letter, as the reader has them
    simp only [letters, List.mem_cons, Prod.mk.injEq, List.not_mem_nil, or_false] at he
    rcases he with ⟨rfl, rfl⟩ | ⟨rfl, rfl⟩ | ⟨rfl, rfl⟩ | ⟨rfl, rfl⟩ | ⟨rfl, rfl⟩ | ⟨rfl, rfl⟩ |
      ⟨rfl, rfl⟩ | ⟨rfl, rfl⟩ <;>
    simp [stringUnits?, escaped?, ih, prepend]
  | @number w x y z a b c d units s ha hb hc hd _ ih =>
    have hnumber : hexNumber? a b c d = some (((w * 16 + x) * 16 + y) * 16 + z) := by
      simp [hexNumber?, hexValue?_of_isHexDigit ha, hexValue?_of_isHexDigit hb,
        hexValue?_of_isHexDigit hc, hexValue?_of_isHexDigit hd]
    simp [stringUnits?, hnumber, ih, prepend]

/-- Four digits make a number of sixteen bits. -/
theorem SpellsUnits.number_lt {units : List StringUnit} {s : List Char} (h : SpellsUnits units s) :
    ∀ n, .number n ∈ units → n < 0x10000 := by
  induction h with
  | nil => exact fun n hn => nomatch hn
  | plain _ _ _ _ ih => exact fun n hn => ih n (by simpa using hn)
  | letter _ _ ih => exact fun n hn => ih n (by simpa using hn)
  | @number w x y z a b c d units s ha hb hc hd _ ih =>
    intro n hn
    rcases List.mem_cons.mp hn with heq | hn
    · obtain rfl := StringUnit.number.inj heq
      have := ha.1
      have := hb.1
      have := hc.1
      have := hd.1
      omega
    · exact ih n hn

/-! ## Section 2: The units of a text -/

/-- The first unit of a character above sixteen bits. -/
def lead (c : Char) : Nat := 0xD800 + (c.toNat - 0x10000) / 0x400

/-- The second unit of a character above sixteen bits. -/
def trail (c : Char) : Nat := 0xDC00 + (c.toNat - 0x10000) % 0x400

/-- **The units of a text**: a character itself, its number, or the two numbers of a pair if its own
    number is above sixteen bits. -/
inductive HasUnits : List Char → List StringUnit → Prop
  | nil : HasUnits [] []
  | char {c : Char} {cs : List Char} {units : List StringUnit} (h : HasUnits cs units) :
      HasUnits (c :: cs) (.char c :: units)
  | single {c : Char} {cs : List Char} {units : List StringUnit} (hc : c.toNat < 0x10000)
      (h : HasUnits cs units) : HasUnits (c :: cs) (.number c.toNat :: units)
  | pair {c : Char} {cs : List Char} {units : List StringUnit} (hc : 0x10000 ≤ c.toNat)
      (h : HasUnits cs units) : HasUnits (c :: cs) (.number (lead c) :: .number (trail c) :: units)

/-- The numbers of characters leave out those of pairs, and end below seventeen times sixteen
    bits. -/
private theorem toNat_bounds (c : Char) :
    c.toNat < 0xD800 ∨ 0xE000 ≤ c.toNat ∧ c.toNat < 0x110000 := by
  have h := c.valid
  simp only [UInt32.isValidChar, Nat.isValidChar] at h
  show c.val.toNat < _ ∨ _ ≤ c.val.toNat ∧ c.val.toNat < _
  omega

theorem isLead_iff {n : Nat} : isLead n = true ↔ 0xD800 ≤ n ∧ n < 0xDC00 := by simp [isLead]

theorem isTrail_iff {n : Nat} : isTrail n = true ↔ 0xDC00 ≤ n ∧ n < 0xE000 := by simp [isTrail]

/-- No character has the number of a part of a pair. -/
private theorem not_lead_not_trail (c : Char) :
    isLead c.toNat = false ∧ isTrail c.toNat = false := by
  rw [Bool.eq_false_iff, Bool.eq_false_iff, Ne, Ne, isLead_iff, isTrail_iff]
  rcases toNat_bounds c with h | h <;> omega

/-- A unit that is no part of a pair is a character of its own. -/
private theorem unitChars?_single {n : Nat} (hlead : isLead n = false) (htrail : isTrail n = false)
    (units : List StringUnit) :
    unitChars? (.number n :: units) = (unitChars? units).map (Char.ofNat n :: ·) := by
  cases units with
  | nil => simp [unitChars?, hlead, htrail]
  | cons unit units => cases unit <;> simp [unitChars?, hlead, htrail]

private theorem pairChar_lead_trail {c : Char} (hc : 0x10000 ≤ c.toNat) :
    isLead (lead c) = true ∧ isTrail (trail c) = true ∧ pairChar (lead c) (trail c) = c := by
  have hlt : c.toNat < 0x110000 := by
    rcases toNat_bounds c with h | h <;> omega
  have hsum : 0x10000 + (lead c - 0xD800) * 0x400 + (trail c - 0xDC00) = c.toNat := by
    simp only [lead, trail]
    omega
  refine ⟨isLead_iff.mpr ?lead, isTrail_iff.mpr ?trail, ?char⟩
  case lead =>
    simp only [lead]
    omega
  case trail =>
    simp only [trail]
    omega
  case char => rw [pairChar, hsum, Char.ofNat_toNat]

/-- The units of a text are read as the text. -/
theorem unitChars?_of_hasUnits {cs : List Char} {units : List StringUnit} (h : HasUnits cs units) :
    unitChars? units = some cs := by
  induction h with
  | nil => rfl
  | char _ ih => simp [unitChars?, ih]
  | @single c cs units hc _ ih =>
    obtain ⟨hlead, htrail⟩ := not_lead_not_trail c
    rw [unitChars?_single hlead htrail, ih, Char.ofNat_toNat]
    rfl
  | @pair c cs units hc _ ih =>
    obtain ⟨hlead, htrail, hpair⟩ := pairChar_lead_trail hc
    simp [unitChars?, hlead, htrail, hpair, ih]

private theorem toNat_ofNat_of_isValidChar {n : Nat} (h : n.isValidChar) :
    (Char.ofNat n).toNat = n := by
  rw [Char.ofNat, dif_pos h]
  rfl

/-- A pair of units is the pair of its character. -/
private theorem lead_trail_pairChar {m n : Nat} (hlead : isLead m = true) (htrail : isTrail n = true) :
    0x10000 ≤ (pairChar m n).toNat ∧ lead (pairChar m n) = m ∧ trail (pairChar m n) = n := by
  rw [isLead_iff] at hlead
  rw [isTrail_iff] at htrail
  have hvalid : (0x10000 + (m - 0xD800) * 0x400 + (n - 0xDC00)).isValidChar := by
    simp only [Nat.isValidChar]
    omega
  have hnat : (pairChar m n).toNat = 0x10000 + (m - 0xD800) * 0x400 + (n - 0xDC00) :=
    toNat_ofNat_of_isValidChar hvalid
  simp only [lead, trail, hnat]
  omega

/-- A text that is found has the units. -/
private theorem hasUnits_of_unitChars? {cs : List Char} {units : List StringUnit}
    (hunits : ∀ n, .number n ∈ units → n < 0x10000) (h : unitChars? units = some cs) :
    HasUnits cs units := by
  -- a unit that is no part of a pair, in front of what has been found behind it
  have hsingle : ∀ {n : Nat} {cs : List Char} {units : List StringUnit}, n < 0x10000 →
      isLead n = false → isTrail n = false → HasUnits cs units →
      HasUnits (Char.ofNat n :: cs) (.number n :: units) := by
    intro n cs units hn hlead htrail h
    have hvalid : n.isValidChar := by
      rw [Bool.eq_false_iff, Ne, isLead_iff] at hlead
      rw [Bool.eq_false_iff, Ne, isTrail_iff] at htrail
      simp only [Nat.isValidChar]
      omega
    have hnat := toNat_ofNat_of_isValidChar hvalid
    have hunit := HasUnits.single (hnat.symm ▸ hn) h
    rw [hnat] at hunit
    exact hunit
  fun_induction unitChars? units generalizing cs with
  | case1 =>
    obtain rfl := Option.some.inj h
    exact .nil
  | case2 c rest ih =>
    obtain ⟨cs', hcs', rfl⟩ := Option.map_eq_some_iff.mp h
    exact .char (ih (fun n hn => hunits n (List.mem_cons_of_mem _ hn)) hcs')
  | case3 m n rest hlead htrail ih =>
    obtain ⟨cs', hcs', rfl⟩ := Option.map_eq_some_iff.mp h
    obtain ⟨hhigh, hm, hn⟩ := lead_trail_pairChar hlead htrail
    have hrest := ih (fun k hk => hunits k (by simp [hk])) hcs'
    have hpair := HasUnits.pair hhigh hrest
    rw [hm, hn] at hpair
    exact hpair
  -- half a pair alone has no text, here and at the end
  | case4 => exact nomatch h
  | case5 => exact nomatch h
  | case6 m n rest hlead htrail ih =>
    obtain ⟨cs', hcs', rfl⟩ := Option.map_eq_some_iff.mp h
    have hrest := ih (fun k hk => hunits k (List.mem_cons_of_mem _ hk)) hcs'
    exact hsingle (hunits m (by simp)) (by simpa using hlead) (by simpa using htrail) hrest
  | case7 => exact nomatch h
  | case8 n rest _ hneither ih =>
    obtain ⟨cs', hcs', rfl⟩ := Option.map_eq_some_iff.mp h
    obtain ⟨hlead, htrail⟩ : isLead n = false ∧ isTrail n = false := by simpa using hneither
    have hrest := ih (fun k hk => hunits k (List.mem_cons_of_mem _ hk)) hcs'
    exact hsingle (hunits n (by simp)) hlead htrail hrest

/-- **The text of units is found** exactly if they have one. -/
theorem unitText?_eq_some_iff {units : List StringUnit} {text : String}
    (hunits : ∀ n, .number n ∈ units → n < 0x10000) :
    unitText? units = some text ↔ HasUnits text.toList units := by
  rw [unitText?, Option.map_eq_some_iff]
  constructor
  · rintro ⟨cs, hcs, rfl⟩
    rw [String.toList_ofList]
    exact hasUnits_of_unitChars? hunits hcs
  · intro h
    exact ⟨text.toList, unitChars?_of_hasUnits h, String.ofList_toList⟩

/-- Units are those of one text at most. -/
theorem HasUnits.unique {cs ds : List Char} {units : List StringUnit} (h : HasUnits cs units)
    (h' : HasUnits ds units) : cs = ds :=
  Option.some.inj ((unitChars?_of_hasUnits h).symm.trans (unitChars?_of_hasUnits h'))

/-! ## Section 3: What is written -/

/-- **The ways to write a character**: by a letter, by number, or as it stands. -/
private theorem escape_cases (c : Char) :
    (∃ e, escape c = ['\\', e] ∧ (e, c) ∈ letters) ∨
    (escape c = numberEscape c ∧ c.toNat < 0x20) ∨
    (escape c = [c] ∧ 0x20 ≤ c.toNat ∧ c ≠ '\x22' ∧ c ≠ '\\') := by
  by_cases hletter : c ∈ ['\x22', '\\', '\x08', '\x0c', '\n', '\r', '\t']
  · left
    simp only [List.mem_cons, List.not_mem_nil, or_false] at hletter
    rcases hletter with rfl | rfl | rfl | rfl | rfl | rfl | rfl <;>
    exact ⟨_, rfl, by decide⟩
  · right
    simp only [List.mem_cons, List.not_mem_nil, or_false, not_or] at hletter
    obtain ⟨hquote, hbackslash, hb, hf, hn, hr, ht⟩ := hletter
    by_cases hcontrol : c.toNat < 0x20
    · left
      simp [escape, hquote, hbackslash, hb, hf, hn, hr, ht, hcontrol]
    · right
      refine ⟨?_, Nat.le_of_not_lt hcontrol, hquote, hbackslash⟩
      simp [escape, hquote, hbackslash, hb, hf, hn, hr, ht, hcontrol]

/-- A control character given by number is spelled by its number. -/
private theorem SpellsUnits.numberEscape {c : Char} (hc : c.toNat < 0x20)
    {units : List StringUnit} {s : List Char} (hs : SpellsUnits units s) :
    SpellsUnits (.number c.toNat :: units) (Json.numberEscape c ++ s) := by
  have hdigit : ∀ {n : Nat}, n < 16 → IsHexDigit n (Text.hexDigit n) := fun hn => ⟨hn, .inl rfl⟩
  have hzero : IsHexDigit 0 '0' := hdigit (by decide)
  have hhigh : c.toNat / 16 < 16 := by omega
  have hlow : c.toNat % 16 < 16 := by omega
  have hnumber := SpellsUnits.number hzero hzero (hdigit hhigh) (hdigit hlow) hs
  have hsum : ((0 * 16 + 0) * 16 + c.toNat / 16) * 16 + c.toNat % 16 = c.toNat := by omega
  rw [hsum] at hnumber
  exact hnumber

/-- **What is written for a text is a spelling of it.** -/
theorem exists_units_escape (cs : List Char) :
    ∃ units, SpellsUnits units (cs.flatMap escape) ∧ HasUnits cs units := by
  induction cs with
  | nil => exact ⟨[], .nil, .nil⟩
  | cons c cs ih =>
    obtain ⟨units, hspells, hunits⟩ := ih
    rw [List.flatMap_cons]
    rcases escape_cases c with ⟨e, hescape, he⟩ | ⟨hescape, hcontrol⟩ |
      ⟨hescape, hcontrol, hquote, hbackslash⟩
    · rw [hescape]
      exact ⟨_, .letter he hspells, .char hunits⟩
    · rw [hescape]
      exact ⟨_, .numberEscape hcontrol hspells, .single (by omega) hunits⟩
    · rw [hescape]
      exact ⟨_, .plain hcontrol hquote hbackslash hspells, .char hunits⟩

end HostDrive.Json

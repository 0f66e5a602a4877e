import HostDrive.Proofs.Json.Strings
import Mathlib.Data.List.Chain

/-!
# Texts Made of Tokens

What a token looks like, and what a text of tokens looks like: each token in one of its spellings,
with any number of blanks and line ends in front, between and behind. The reader finds the tokens of
every such text. It takes as many characters for a number as it can, so two numbers would have to be
kept apart; in a value they always are.

## Architecture

- `IsNumber` is the form of numbers, part by part, and `magnitude?_append` reads it.
- `Token.Spelled` is what a token looks like, with `token?_append` as the step of the reader.
- `Layout` is a text of tokens; from the step, by induction over the tokens, `tokens?_of_layout`.
-/

namespace HostDrive.Json

/-! ## Section 1: Numbers -/

/-- Digits, and at least one of them. -/
def IsDigits (s : List Char) : Prop := s ≠ [] ∧ ∀ c ∈ s, c.isDigit = true

/-- The digits before the point: a zero alone, or digits that do not start with one. -/
inductive IsInteger : List Char → Prop
  | zero : IsInteger ['0']
  | digits {s : List Char} (h : IsDigits s) (hzero : s.head? ≠ some '0') : IsInteger s

/-- Nothing, or a point and digits. -/
inductive IsFraction : List Char → Prop
  | none : IsFraction []
  | point {s : List Char} (h : IsDigits s) : IsFraction ('.' :: s)

/-- Nothing, or a letter, a sign that may be left out, and digits. -/
inductive IsExponent : List Char → Prop
  | none : IsExponent []
  | power {letter : Char} {sign s : List Char} (hletter : letter = 'e' ∨ letter = 'E')
      (hsign : sign = [] ∨ sign = ['+'] ∨ sign = ['-']) (h : IsDigits s) :
      IsExponent (letter :: (sign ++ s))

/-- **A number**, with or without a minus sign. -/
inductive IsNumber : List Char → Prop
  | number {sign integer fraction exponent : List Char} (hsign : sign = [] ∨ sign = ['-'])
      (hinteger : IsInteger integer) (hfraction : IsFraction fraction)
      (hexponent : IsExponent exponent) :
      IsNumber (sign ++ (integer ++ (fraction ++ exponent)))

/-- A text does not go on with a character of some kind. -/
def EndsBefore (kind : Char → Bool) (s : List Char) : Prop := ∀ c ∈ s.head?, kind c = false

/-- The characters that could make a number longer. -/
def extendsNumber (c : Char) : Bool := c.isDigit || c == '.' || c == 'e' || c == 'E'

/-- Both parts of a text end before a kind of characters, so the text does, whichever part its first
    character is in. -/
private theorem EndsBefore.append {kind : Char → Bool} {s rest : List Char}
    (hs : EndsBefore kind s) (hrest : EndsBefore kind rest) : EndsBefore kind (s ++ rest) := by
  cases s with
  | nil => exact hrest
  | cons c s => exact hs

private theorem EndsBefore.mono {kind kind' : Char → Bool} {s : List Char}
    (h : EndsBefore kind' s) (hkind : ∀ c, kind c = true → kind' c = true) :
    EndsBefore kind s := by
  intro c hc
  rw [Bool.eq_false_iff]
  intro hc'
  exact absurd (hkind c hc') (by simp [h c hc])

private theorem extendsNumber_of_isDigit (c : Char) (h : c.isDigit = true) :
    extendsNumber c = true := by
  simp [extendsNumber, h]

private theorem extendsNumber_of_point (c : Char) (h : (c == '.') = true) :
    extendsNumber c = true := by
  simp [extendsNumber, h]

/-- A fraction can only start with its point. -/
private theorem IsFraction.endsBefore {kind : Char → Bool} {s : List Char} (h : IsFraction s)
    (hpoint : kind '.' = false) : EndsBefore kind s := by
  cases h with
  | none => simp [EndsBefore]
  | point => simpa [EndsBefore] using hpoint

/-- An exponent can only start with its letter. -/
private theorem IsExponent.endsBefore {kind : Char → Bool} {s : List Char} (h : IsExponent s)
    (hlower : kind 'e' = false) (hupper : kind 'E' = false) : EndsBefore kind s := by
  cases h with
  | none => simp [EndsBefore]
  | power hletter => rcases hletter with rfl | rfl <;> simpa [EndsBefore]

theorem digits?_append {s rest : List Char} (h : IsDigits s)
    (hrest : EndsBefore Char.isDigit rest) : digits? (s ++ rest) = some rest := by
  obtain ⟨hne, hdigits⟩ := h
  cases s with
  | nil => exact absurd rfl hne
  | cons c s =>
    obtain ⟨hc, hs⟩ := List.forall_mem_cons.mp hdigits
    have hdrop : (s ++ rest).dropWhile Char.isDigit = rest := by
      rw [List.dropWhile_append_of_pos hs]
      cases rest with
      | nil => rfl
      | cons d rest => exact List.dropWhile_cons_of_neg (by simp [hrest d rfl])
    rw [List.cons_append, digits?, if_pos hc, hdrop]

private theorem integerPart?_append {s rest : List Char} (h : IsInteger s)
    (hrest : EndsBefore Char.isDigit rest) : integerPart? (s ++ rest) = some rest := by
  cases h with
  | zero => rfl
  | digits hdigits hzero =>
    unfold integerPart?
    split
    · -- the digits do not start with a zero
      rename_i rest' heq
      cases s with
      | nil => exact absurd rfl hdigits.1
      | cons c s => exact absurd (congrArg some (List.cons.inj heq).1) hzero
    · exact digits?_append hdigits hrest

private theorem fractionPart?_append {s rest : List Char} (h : IsFraction s)
    (hdigit : EndsBefore Char.isDigit rest) (hpoint : EndsBefore (· == '.') rest) :
    fractionPart? (s ++ rest) = some rest := by
  cases h with
  | none =>
    rw [List.nil_append]
    unfold fractionPart?
    split
    · exact absurd (hpoint '.' rfl) (by decide)
    · rfl
  | point hdigits => exact digits?_append hdigits hdigit

/-- A sign is left out, and digits have none. -/
private theorem withoutSign_append {sign s rest : List Char}
    (hsign : sign = [] ∨ sign = ['+'] ∨ sign = ['-']) (h : IsDigits s) :
    withoutSign (sign ++ (s ++ rest)) = s ++ rest := by
  rcases hsign with rfl | rfl | rfl
  · obtain ⟨hne, hdigits⟩ := h
    cases s with
    | nil => exact absurd rfl hne
    | cons c s =>
      have hc : c.isDigit = true := hdigits c (by simp)
      rw [List.nil_append, List.cons_append]
      unfold withoutSign
      split
      · rename_i heq
        obtain rfl := (List.cons.inj heq).1
        exact absurd hc (by decide)
      · rename_i heq
        obtain rfl := (List.cons.inj heq).1
        exact absurd hc (by decide)
      · rfl
  · rfl
  · rfl

private theorem exponentPart?_append {s rest : List Char} (h : IsExponent s)
    (hrest : EndsBefore extendsNumber rest) : exponentPart? (s ++ rest) = some rest := by
  have hdigit : EndsBefore Char.isDigit rest := hrest.mono extendsNumber_of_isDigit
  cases h with
  | none =>
    rw [List.nil_append]
    unfold exponentPart?
    split
    · exact absurd (hrest 'e' rfl) (by decide)
    · exact absurd (hrest 'E' rfl) (by decide)
    · rfl
  | @power letter sign s hletter hsign hdigits =>
    have hread : digits? (withoutSign (sign ++ (s ++ rest))) = some rest := by
      rw [withoutSign_append hsign hdigits]
      exact digits?_append hdigits hdigit
    rw [List.cons_append, List.append_assoc]
    rcases hletter with rfl | rfl
    · exact hread
    · exact hread

/-- **A number is read** if nothing that could make it longer follows it. -/
theorem magnitude?_append {integer fraction exponent rest : List Char}
    (hinteger : IsInteger integer) (hfraction : IsFraction fraction)
    (hexponent : IsExponent exponent) (hrest : EndsBefore extendsNumber rest) :
    magnitude? (integer ++ (fraction ++ (exponent ++ rest))) = some rest := by
  -- behind the integer, each part that is there starts with a character of its own
  have hdigit : EndsBefore Char.isDigit (exponent ++ rest) :=
    (hexponent.endsBefore (by decide) (by decide)).append (hrest.mono extendsNumber_of_isDigit)
  have hpoint : EndsBefore (· == '.') (exponent ++ rest) :=
    (hexponent.endsBefore (by decide) (by decide)).append (hrest.mono extendsNumber_of_point)
  have hdigit' : EndsBefore Char.isDigit (fraction ++ (exponent ++ rest)) :=
    (hfraction.endsBefore (by decide)).append hdigit
  simp [magnitude?, integerPart?_append hinteger hdigit',
    fractionPart?_append hfraction hdigit hpoint, exponentPart?_append hexponent hrest]

/-! ## Section 2: Tokens -/

/-- **What a token looks like.** A string has one text if its units are those of a text, and else
    none. -/
inductive Token.Spelled : Token → List Char → Prop
  | openBrace : Spelled .openBrace ['\x7b']
  | closeBrace : Spelled .closeBrace ['\x7d']
  | openBracket : Spelled .openBracket ['[']
  | closeBracket : Spelled .closeBracket [']']
  | colon : Spelled .colon [':']
  | comma : Spelled .comma [',']
  | null : Spelled .null ['n', 'u', 'l', 'l']
  | true : Spelled (.bool Bool.true) ['t', 'r', 'u', 'e']
  | false : Spelled (.bool Bool.false) ['f', 'a', 'l', 's', 'e']
  | number {s : List Char} (h : IsNumber s) : Spelled .number s
  | string {units : List StringUnit} {s : List Char} {text? : Option String}
      (h : SpellsUnits units s) (htext : ∀ t, text? = some t ↔ HasUnits t.toList units) :
      Spelled (.string text?) ('\x22' :: (s ++ ['\x22']))

/-- A string whose units are those of a text is a string with this text. -/
theorem Token.Spelled.ofText {units : List StringUnit} {s : List Char} {t : String}
    (h : SpellsUnits units s) (ht : HasUnits t.toList units) :
    Spelled (.string (some t)) ('\x22' :: (s ++ ['\x22'])) := by
  refine .string h fun u => ⟨?_, fun hu => ?_⟩
  · rintro heq
    obtain rfl := Option.some.inj heq
    exact ht
  · rw [String.toList_inj.mp (ht.unique hu)]

/-- **A quoted text is a string with this text.** -/
theorem Token.spelled_quoted (t : String) : Spelled (.string (some t)) (quoted t) := by
  obtain ⟨units, hspells, hunits⟩ := exists_units_escape t.toList
  exact .ofText hspells hunits

/-- A number starts with a digit or a minus sign. -/
private theorem exists_digit_of_isInteger {s : List Char} (h : IsInteger s) :
    ∃ c rest, s = c :: rest ∧ c.isDigit = true := by
  cases h with
  | zero => exact ⟨'0', [], rfl, by decide⟩
  | digits hdigits =>
    obtain ⟨hne, hdigits⟩ := hdigits
    cases s with
    | nil => exact absurd rfl hne
    | cons c s => exact ⟨c, s, rfl, hdigits c (by simp)⟩

/-- A digit is none of the characters that another token starts with. -/
private theorem token?_of_digit {c : Char} (hc : c.isDigit = true) (s : List Char) :
    token? (c :: s) = (magnitude? (c :: s)).map fun rest => (.number, rest) := by
  unfold token?
  split
  case h_12 => rfl
  all_goals
    rename_i heq
    exact absurd hc (by rw [(List.cons.inj heq).1]; decide)

/-- **A token is read**, whatever follows it, unless it is a number and could go on. -/
theorem token?_append {t : Token} {s rest : List Char} (h : t.Spelled s)
    (hrest : t = .number → EndsBefore extendsNumber rest) :
    token? (s ++ rest) = some (t, rest) := by
  cases h with
  | openBrace | closeBrace | openBracket | closeBracket | colon | comma | null | true | false => rfl
  | number hnumber =>
    obtain ⟨hsign, hinteger, hfraction, hexponent⟩ := hnumber
    have hread := magnitude?_append hinteger hfraction hexponent (hrest rfl)
    rcases hsign with rfl | rfl
    · obtain ⟨c, more, rfl, hc⟩ := exists_digit_of_isInteger hinteger
      simp only [List.nil_append, List.cons_append, List.append_assoc] at hread ⊢
      rw [token?_of_digit hc, hread]
      rfl
    · simp only [List.cons_append, List.nil_append, List.append_assoc]
      rw [token?, hread]
      rfl
  | @string units s text? hspells htext =>
    have hread := stringUnits?_of_spells hspells rest
    -- the reader finds the only text that the units can have
    have htext' : unitText? units = text? := by
      apply Option.ext
      intro t
      rw [unitText?_eq_some_iff hspells.number_lt, htext]
    rw [List.cons_append, List.append_assoc, List.singleton_append, token?, hread, ← htext']
    rfl

/-- What a token starts with does not make a number longer, unless it is a number too. -/
private theorem Token.Spelled.endsBefore {t : Token} {s : List Char} (h : t.Spelled s)
    (hnumber : t ≠ .number) (rest : List Char) : EndsBefore extendsNumber (s ++ rest) := by
  intro c hc
  cases h with
  | number => exact absurd rfl hnumber
  | _ =>
    obtain rfl := Option.some.inj hc
    decide

/-! ## Section 3: Texts of tokens -/

/-- What may stand between tokens. -/
def IsGap (s : List Char) : Prop := ∀ c ∈ s, c = ' ' ∨ c = '\t' ∨ c = '\n' ∨ c = '\r'

/-- **A text of tokens**, with gaps in front, between and behind. -/
inductive Layout : List Token → List Char → Prop
  | done {gap : List Char} (hgap : IsGap gap) : Layout [] gap
  | token {gap s rest : List Char} {t : Token} {ts : List Token} (hgap : IsGap gap)
      (ht : t.Spelled s) (hrest : Layout ts rest) : Layout (t :: ts) (gap ++ (s ++ rest))

/-- No gap in front of a token. -/
theorem Layout.next {s rest : List Char} {t : Token} {ts : List Token} (ht : t.Spelled s)
    (hrest : Layout ts rest) : Layout (t :: ts) (s ++ rest) := by
  have hgap : IsGap [] := fun c hc => absurd hc List.not_mem_nil
  exact .token hgap ht hrest

/-- Two tokens that can be told apart without a gap. -/
def Apart (t u : Token) : Prop := t = .number → u ≠ .number

/-- How the reader goes on from one token to the next. -/
theorem tokens?_eq (s : List Char) :
    tokens? s = match s.dropWhile isBetween with
      | [] => some []
      | c :: tail =>
        match token? (c :: tail) with
        | none => none
        | some (t, rest) => (tokens? rest).map (t :: ·) := by
  rw [tokens?]
  split
  · rename_i heq
    rw [heq]
  · rename_i c tail heq
    simp only [heq]
    split
    · rename_i hnone
      rw [hnone]
    · rename_i t rest hsome
      rw [hsome]

/-- A gap in front is left out. -/
private theorem tokens?_gap {gap : List Char} (hgap : IsGap gap) (s : List Char) :
    tokens? (gap ++ s) = tokens? s := by
  have hdrop : (gap ++ s).dropWhile isBetween = s.dropWhile isBetween := by
    apply List.dropWhile_append_of_pos
    intro c hc
    rcases hgap c hc with rfl | rfl | rfl | rfl <;> rfl
  rw [tokens?_eq, hdrop, ← tokens?_eq]

/-- A token is in no gap, so the reader finds it where it starts. -/
private theorem tokens?_of_token? {s rest : List Char} {t : Token}
    (h : token? s = some (t, rest)) : tokens? s = (tokens? rest).map (t :: ·) := by
  cases s with
  | nil => exact nomatch h
  | cons c tail =>
    have hc : isBetween c = false := by
      rw [Bool.eq_false_iff]
      intro hbetween
      simp only [isBetween, Bool.or_eq_true, beq_iff_eq] at hbetween
      rcases hbetween with ((rfl | rfl) | rfl) | rfl <;>
      exact nomatch h
    rw [tokens?_eq, List.dropWhile_cons_of_neg (by simp [hc])]
    simp only [h]

/-- A number is followed by something else, a gap, or nothing. -/
private theorem Layout.endsBefore {ts : List Token} {s : List Char} (h : Layout ts s)
    (hfirst : ∀ t ∈ ts.head?, t ≠ .number) : EndsBefore extendsNumber s := by
  have hblank : ∀ gap rest : List Char, IsGap gap → EndsBefore extendsNumber rest →
      EndsBefore extendsNumber (gap ++ rest) := by
    intro gap rest hgap hrest
    refine .append (fun c hc => ?_) hrest
    rcases hgap c (List.mem_of_head? hc) with rfl | rfl | rfl | rfl <;> decide
  cases h with
  | done hgap =>
    have hnone : EndsBefore extendsNumber [] := fun c hc => nomatch hc
    rw [← List.append_nil s]
    exact hblank s [] hgap hnone
  | token hgap ht hrest => exact hblank _ _ hgap (ht.endsBefore (hfirst _ rfl) _)

/-- **The tokens of a text are read.** -/
theorem tokens?_of_layout {ts : List Token} {s : List Char} (h : Layout ts s)
    (hapart : ts.IsChain Apart) : tokens? s = some ts := by
  induction h with
  | @done gap hgap =>
    have hnil : tokens? [] = some [] := tokens?_eq []
    rw [← List.append_nil gap, tokens?_gap hgap, hnil]
  | @token gap s rest t ts hgap ht hrest ih =>
    -- what follows the token does not make it longer
    have hfirst : t = .number → EndsBefore extendsNumber rest := by
      intro hnumber
      apply hrest.endsBefore
      intro u hu
      cases ts with
      | nil => exact nomatch hu
      | cons v ts =>
        obtain rfl := Option.some.inj hu
        exact (List.isChain_cons_cons.mp hapart).1 hnumber
    rw [tokens?_gap hgap, tokens?_of_token? (token?_append ht hfirst), ih hapart.tail]
    rfl

end HostDrive.Json

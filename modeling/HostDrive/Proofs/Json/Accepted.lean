import HostDrive.Proofs.Json.Values

/-!
# What the Reader Accepts

The other way round: a text that is read as a value is a text of this value. So the reader accepts
the texts of the grammar and no others.

The first reading is taken apart as it is put together, from digits to tokens. For the second one
the state of the reader is the account of what it has read: the open arrays and objects with what is
in them, and what it has read since.

## Architecture

- `spells_of_stringUnits?`, `isNumber_of_magnitude?` and `spelled_of_token?` say what was read, up
  to what is left; from them, by induction, `layout_of_tokens?`.
- `opened` are the tokens that lead to a state. `opened_advance` is the step over one token, and
  `tokens_of_readFrom` the run over all of them.
- `Value.parse?_eq_some_iff` has both directions.
-/

namespace HostDrive.Json

/-! ## Section 1: Strings -/

private theorem isHexDigit_of_hexValue? {c : Char} {value : Nat} (h : hexValue? c = some value) :
    IsHexDigit value c := by
  have hall : ∀ n : Fin 128, (hexValue? (Char.ofNat n.val)).all fun v =>
      decide (v < 16) && (Char.ofNat n.val == Nat.digitChar v ||
        Char.ofNat n.val == (Nat.digitChar v).toUpper) := by decide
  have hlt : c.toNat < 128 := by
    unfold hexValue? at h
    split at h
    case isTrue hc => exact Nat.lt_of_le_of_lt hc.2 (by decide)
    split at h
    case isTrue hc => exact Nat.lt_of_le_of_lt hc.2 (by decide)
    split at h
    case isTrue hc => exact Nat.lt_of_le_of_lt hc.2 (by decide)
    cases h
  have hc := hall ⟨c.toNat, hlt⟩
  rw [Char.ofNat_toNat, h] at hc
  simpa [IsHexDigit] using hc

private theorem mem_letters_of_escaped? {e c : Char} (h : escaped? e = some c) :
    (e, c) ∈ letters := by
  unfold escaped? at h
  split at h <;> cases h <;> decide

/-- **What was read of a string** is a spelling of the units, and a quote. -/
theorem spells_of_stringUnits? {s rest : List Char} {units : List StringUnit}
    (h : stringUnits? s = some (units, rest)) :
    ∃ spelled, s = spelled ++ '\x22' :: rest ∧ SpellsUnits units spelled := by
  fun_induction stringUnits? s generalizing units rest with
  | case1 => cases h
  | case2 tail =>
    obtain ⟨rfl, rfl⟩ := Prod.mk.inj (Option.some.inj h)
    exact ⟨[], rfl, .nil⟩
  | case3 a b c d tail n hnumber ih =>
    obtain ⟨⟨more, rest'⟩, hmore, heq⟩ := Option.map_eq_some_iff.mp h
    obtain ⟨rfl, rfl⟩ := Prod.mk.inj heq
    obtain ⟨spelled, rfl, hspelled⟩ := ih hmore
    unfold hexNumber? at hnumber
    split at hnumber
    case h_1 w x y z ha hb hc hd =>
      obtain rfl := Option.some.inj hnumber
      exact ⟨'\\' :: 'u' :: a :: b :: c :: d :: spelled, rfl,
        .number (isHexDigit_of_hexValue? ha) (isHexDigit_of_hexValue? hb)
          (isHexDigit_of_hexValue? hc) (isHexDigit_of_hexValue? hd) hspelled⟩
    case h_2 => cases hnumber
  | case4 => cases h
  | case5 e tail _ c hescaped ih =>
    obtain ⟨⟨more, rest'⟩, hmore, heq⟩ := Option.map_eq_some_iff.mp h
    obtain ⟨rfl, rfl⟩ := Prod.mk.inj heq
    obtain ⟨spelled, rfl, hspelled⟩ := ih hmore
    exact ⟨'\\' :: e :: spelled, rfl, .letter (mem_letters_of_escaped? hescaped) hspelled⟩
  | case6 => cases h
  | case7 => cases h
  | case8 c tail hquote hnumber hletter hcontrol ih =>
    obtain ⟨⟨more, rest'⟩, hmore, heq⟩ := Option.map_eq_some_iff.mp h
    obtain ⟨rfl, rfl⟩ := Prod.mk.inj heq
    obtain ⟨spelled, rfl, hspelled⟩ := ih hmore
    -- a backslash would have something behind it, at least the quote
    have hbackslash : c ≠ '\\' := by
      intro hc
      obtain ⟨e, more', hmore'⟩ := List.exists_cons_of_ne_nil
        (List.append_ne_nil_of_right_ne_nil spelled (List.cons_ne_nil '\x22' rest'))
      exact hletter e more' hc hmore'
    exact ⟨c :: spelled, rfl, .plain (Nat.le_of_not_lt hcontrol) hquote hbackslash hspelled⟩

/-! ## Section 2: Numbers -/

private theorem isDigits_of_digits? {s rest : List Char} (h : digits? s = some rest) :
    ∃ digits, s = digits ++ rest ∧ IsDigits digits := by
  cases s with
  | nil => cases h
  | cons c s =>
    rw [digits?] at h
    split at h
    case isTrue hc =>
      obtain rfl := Option.some.inj h
      refine ⟨c :: s.takeWhile Char.isDigit, ?_, List.cons_ne_nil _ _, ?_⟩
      · rw [List.cons_append, List.takeWhile_append_dropWhile]
      · exact List.forall_mem_cons.mpr ⟨hc, List.all_eq_true.mp List.all_takeWhile⟩
    case isFalse => cases h

private theorem isInteger_of_integerPart? {s rest : List Char} (h : integerPart? s = some rest) :
    ∃ integer, s = integer ++ rest ∧ IsInteger integer := by
  unfold integerPart? at h
  split at h
  case h_1 rest' =>
    obtain rfl := Option.some.inj h
    exact ⟨['0'], rfl, .zero⟩
  case h_2 hzero =>
    obtain ⟨digits, rfl, hdigits⟩ := isDigits_of_digits? h
    refine ⟨digits, rfl, .digits hdigits ?_⟩
    intro hhead
    obtain ⟨more, rfl⟩ := List.head?_eq_some_iff.mp hhead
    exact hzero _ rfl

private theorem isFraction_of_fractionPart? {s rest : List Char}
    (h : fractionPart? s = some rest) : ∃ fraction, s = fraction ++ rest ∧ IsFraction fraction := by
  unfold fractionPart? at h
  split at h
  · obtain ⟨digits, rfl, hdigits⟩ := isDigits_of_digits? h
    exact ⟨'.' :: digits, rfl, .point hdigits⟩
  · obtain rfl := Option.some.inj h
    exact ⟨[], rfl, .none⟩

private theorem exists_sign (s : List Char) :
    ∃ sign, s = sign ++ withoutSign s ∧ (sign = [] ∨ sign = ['+'] ∨ sign = ['-']) := by
  unfold withoutSign
  split
  · exact ⟨['+'], rfl, .inr (.inl rfl)⟩
  · exact ⟨['-'], rfl, .inr (.inr rfl)⟩
  · exact ⟨[], rfl, .inl rfl⟩

private theorem isExponent_of_exponentPart? {s rest : List Char}
    (h : exponentPart? s = some rest) : ∃ exponent, s = exponent ++ rest ∧ IsExponent exponent := by
  have hpower : ∀ {letter : Char} {tail : List Char}, letter = 'e' ∨ letter = 'E' →
      digits? (withoutSign tail) = some rest →
      ∃ exponent, letter :: tail = exponent ++ rest ∧ IsExponent exponent := by
    intro letter tail hletter hread
    obtain ⟨sign, hsplit, hsign⟩ := exists_sign tail
    obtain ⟨digits, hdigits, hisDigits⟩ := isDigits_of_digits? hread
    refine ⟨letter :: (sign ++ digits), ?_, .power hletter hsign hisDigits⟩
    rw [List.cons_append, List.append_assoc, ← hdigits, ← hsplit]
  unfold exponentPart? at h
  split at h
  · exact hpower (.inl rfl) h
  · exact hpower (.inr rfl) h
  · obtain rfl := Option.some.inj h
    exact ⟨[], rfl, .none⟩

/-- **What was read of a number** is one, with the sign that stands in front of it. -/
theorem isNumber_of_magnitude? {sign s rest : List Char} (hsign : sign = [] ∨ sign = ['-'])
    (h : magnitude? s = some rest) : ∃ number, sign ++ s = number ++ rest ∧ IsNumber number := by
  unfold magnitude? at h
  split at h
  case h_1 => cases h
  case h_2 afterInteger hinteger =>
    split at h
    case h_1 => cases h
    case h_2 afterFraction hfraction =>
      obtain ⟨integer, rfl, hisInteger⟩ := isInteger_of_integerPart? hinteger
      obtain ⟨fraction, rfl, hisFraction⟩ := isFraction_of_fractionPart? hfraction
      obtain ⟨exponent, rfl, hisExponent⟩ := isExponent_of_exponentPart? h
      refine ⟨_, ?_, .number hsign hisInteger hisFraction hisExponent⟩
      simp only [List.append_assoc]

/-! ## Section 3: Tokens -/

/-- **What was read of a text** is the token in one of its spellings. -/
theorem spelled_of_token? {s rest : List Char} {t : Token} (h : token? s = some (t, rest)) :
    ∃ spelled, s = spelled ++ rest ∧ t.Spelled spelled := by
  unfold token? at h
  split at h
  case h_10 tail =>
    obtain ⟨⟨units, rest'⟩, hread, heq⟩ := Option.map_eq_some_iff.mp h
    obtain ⟨rfl, rfl⟩ := Prod.mk.inj heq
    obtain ⟨spelled, rfl, hspelled⟩ := spells_of_stringUnits? hread
    refine ⟨'\x22' :: (spelled ++ ['\x22']), by simp, .string hspelled fun t => ?_⟩
    exact unitText?_eq_some_iff hspelled.number_lt
  case h_11 tail =>
    obtain ⟨rest', hread, heq⟩ := Option.map_eq_some_iff.mp h
    obtain ⟨rfl, rfl⟩ := Prod.mk.inj heq
    obtain ⟨number, hnumber, hisNumber⟩ := isNumber_of_magnitude? (.inr rfl) hread
    exact ⟨number, hnumber, .number hisNumber⟩
  case h_12 =>
    obtain ⟨rest', hread, heq⟩ := Option.map_eq_some_iff.mp h
    obtain ⟨rfl, rfl⟩ := Prod.mk.inj heq
    obtain ⟨number, hnumber, hisNumber⟩ := isNumber_of_magnitude? (.inl rfl) hread
    exact ⟨number, hnumber, .number hisNumber⟩
  all_goals
    obtain ⟨rfl, rfl⟩ := Prod.mk.inj (Option.some.inj h)
    exact ⟨_, rfl, by constructor⟩

private theorem isGap_takeWhile (s : List Char) : IsGap (s.takeWhile isBetween) := by
  intro c hc
  have hbetween := List.all_eq_true.mp List.all_takeWhile c hc
  simpa [isBetween, or_assoc] using hbetween

/-- **A text that was read as tokens** is a text of these tokens. -/
theorem layout_of_tokens? {s : List Char} {ts : List Token} (h : tokens? s = some ts) :
    Layout ts s := by
  induction hlength : s.length using Nat.strong_induction_on generalizing s ts with
  | _ n ih =>
    subst hlength
    -- the gap in front, and then a token or nothing
    have hsplit : s.takeWhile isBetween ++ s.dropWhile isBetween = s :=
      List.takeWhile_append_dropWhile
    have hgap := isGap_takeWhile s
    rw [tokens?_eq] at h
    split at h
    case h_1 hdrop =>
      obtain rfl := Option.some.inj h
      rw [← hsplit, hdrop, List.append_nil]
      exact .done hgap
    case h_2 c tail hdrop =>
      split at h
      case h_1 => cases h
      case h_2 t rest htoken =>
        obtain ⟨ts, hts, rfl⟩ := Option.map_eq_some_iff.mp h
        have hshorter : rest.length < s.length := by
          have hleft := token?_length htoken
          have hdropped := length_dropWhile_le isBetween s
          rw [hdrop] at hdropped
          exact Nat.lt_of_lt_of_le hleft hdropped
        have hrest := ih rest.length hshorter hts rfl
        obtain ⟨spelled, hspelled, ht⟩ := spelled_of_token? htoken
        rw [← hsplit, hdrop, hspelled]
        exact .token hgap ht hrest

/-! ## Section 4: Values -/

/-- The tokens of an open array or object, up to where the next value or key is to stand. -/
def Frame.tokens : Frame → List Token
  | .array before => .openBracket :: before.reverse.flatMap fun v => v.tokens ++ [.comma]
  | .object before => .openBrace :: before.reverse.flatMap memberTokens
  | .member before key =>
    .openBrace :: (before.reverse.flatMap memberTokens ++ [.string key, .colon])
where
  /-- The tokens of a member that others follow. -/
  memberTokens (m : Option String × Value) : List Token :=
    .string m.1 :: .colon :: (m.2.tokens ++ [.comma])

/-- The tokens that were read since. -/
def Expected.tokens : Expected → List Token
  | .colon name => [.string name]
  | .next v => v.tokens
  | _ => []

/-- **The tokens that lead to a state** of the reader. -/
def opened (expected : Expected) (frames : List Frame) : List Token :=
  frames.reverse.flatMap Frame.tokens ++ expected.tokens

/-- An array or object that may still be empty is one that has just been opened. -/
def Fresh (expected : Expected) (frames : List Frame) : Prop :=
  match expected with
  | .valueOrEnd => frames.head? = some (.array [])
  | .keyOrEnd => frames.head? = some (.object [])
  | _ => True

private theorem tokens_moreElements (vs : List Value) (v w : Value) :
    w.tokens ++ moreElements (vs ++ [v]) =
      (w :: vs).flatMap (fun v => v.tokens ++ [.comma]) ++ v.tokens := by
  induction vs generalizing w with
  | nil => simp [moreElements]
  | cons x vs ih => simp [moreElements, ih]

private theorem tokens_array_concat (vs : List Value) (v : Value) :
    (Value.array (vs ++ [v])).tokens =
      Frame.tokens (.array vs.reverse) ++ (v.tokens ++ [.closeBracket]) := by
  rw [Frame.tokens, List.reverse_reverse]
  cases vs with
  | nil => simp [Value.tokens, moreElements]
  | cons w vs =>
    rw [List.cons_append, Value.tokens, tokens_moreElements]
    simp

private theorem tokens_moreMembers (ms : List (Option String × Value)) (m : Option String × Value)
    (w : Value) :
    w.tokens ++ moreMembers (ms ++ [m]) =
      w.tokens ++ [.comma] ++ ms.flatMap Frame.tokens.memberTokens ++
        .string m.1 :: .colon :: m.2.tokens := by
  induction ms generalizing w with
  | nil => simp [moreMembers]
  | cons x ms ih => simp [moreMembers, ih, Frame.tokens.memberTokens]

private theorem tokens_object_concat (ms : List (Option String × Value)) (key : Option String)
    (v : Value) :
    (Value.object (ms ++ [(key, v)])).tokens =
      Frame.tokens (.member ms.reverse key) ++ (v.tokens ++ [.closeBrace]) := by
  rw [Frame.tokens, List.reverse_reverse]
  cases ms with
  | nil => simp [Value.tokens, moreMembers]
  | cons m ms =>
    rw [List.cons_append, Value.tokens, tokens_moreMembers]
    simp [Frame.tokens.memberTokens]

private theorem opened_cons (expected : Expected) (f : Frame) (frames : List Frame) :
    opened expected (f :: frames) =
      frames.reverse.flatMap Frame.tokens ++ (f.tokens ++ expected.tokens) := by
  simp [opened]

/-- The first token of a value is a value, or opens one. -/
private theorem opened_beginValue {frames frames' : List Frame} {t : Token} {expected' : Expected}
    (h : beginValue frames t = some (expected', frames')) :
    Fresh expected' frames' ∧ opened expected' frames' = opened .value frames ++ [t] := by
  unfold beginValue at h
  split at h
  case h_7 => cases h
  all_goals
    obtain ⟨rfl, rfl⟩ := Prod.mk.inj (Option.some.inj h)
    simp [Fresh, opened, Expected.tokens, Frame.tokens, Value.tokens]

/-- **The step of the reader**: one more token leads to the next state. -/
theorem opened_advance {expected expected' : Expected} {frames frames' : List Frame} {t : Token}
    (hfresh : Fresh expected frames) (h : advance expected frames t = some (expected', frames')) :
    Fresh expected' frames' ∧ opened expected' frames' = opened expected frames ++ [t] := by
  unfold advance at h
  split at h
  case h_12 => cases h
  -- a value begins
  case h_1 => exact opened_beginValue h
  case h_3 => exact opened_beginValue h
  all_goals
    obtain ⟨rfl, rfl⟩ := Prod.mk.inj (Option.some.inj h)
    refine ⟨trivial, ?_⟩
  case h_2 before frames =>
    -- an array that is closed at once is empty
    obtain rfl : before = [] := by simpa [Fresh] using hfresh
    simp [opened, Expected.tokens, Frame.tokens, Value.tokens]
  case h_6 before frames =>
    obtain rfl : before = [] := by simpa [Fresh] using hfresh
    simp [opened, Expected.tokens, Frame.tokens, Value.tokens]
  case h_9 v before frames =>
    -- the last element has no comma behind it, and neither has the last member
    rw [opened_cons, opened, Expected.tokens, List.reverse_cons, tokens_array_concat,
      List.reverse_reverse]
    simp [Expected.tokens]
  case h_11 v before key frames =>
    rw [opened_cons, opened, Expected.tokens, List.reverse_cons, tokens_object_concat,
      List.reverse_reverse]
    simp [Expected.tokens]
  -- nothing is closed, so the token is put behind what is open
  all_goals simp [opened, Expected.tokens, Frame.tokens, Frame.tokens.memberTokens]

/-- **The run of the reader**: the tokens that led to a state and those that are still to come are
    the tokens of the value in the end. -/
theorem tokens_of_readFrom {expected : Expected} {frames : List Frame} {ts : List Token} {v : Value}
    (hfresh : Fresh expected frames) (h : readFrom expected frames ts = some v) :
    v.tokens = opened expected frames ++ ts := by
  induction ts generalizing expected frames with
  | nil =>
    -- one value is complete, and nothing is open
    unfold readFrom at h
    split at h
    case h_1 =>
      obtain rfl := Option.some.inj h
      simp [opened, Expected.tokens]
    case h_2 => cases h
    case h_3 heq => cases heq
  | cons t ts ih =>
    rw [readFrom_cons] at h
    obtain ⟨⟨expected', frames'⟩, hadvance, hrest⟩ := Option.bind_eq_some_iff.mp h
    obtain ⟨hfresh', hopened⟩ := opened_advance hfresh hadvance
    rw [ih hfresh' hrest, hopened, List.append_assoc, List.singleton_append]

/-- **The reader accepts the texts of values**, and no others. -/
theorem Value.parse?_eq_some_iff {s : String} {v : Value} :
    parse? s = some v ↔ v.WrittenAs s := by
  constructor
  · intro h
    rw [parse?] at h
    split at h
    case h_1 ts hts =>
      have hfresh : Fresh .value [] := trivial
      have htokens : v.tokens = ts := tokens_of_readFrom hfresh h
      rw [WrittenAs, htokens]
      exact layout_of_tokens? hts
    case h_2 => cases h
  · exact parse?_of_writtenAs

end HostDrive.Json

/-!
# JSON Tokens

The first reading of a JSON text: from characters to tokens.

- A string is read into **units**: characters as they stand, and escapes by number. The numbers are
  units of sixteen bits, and a character above them takes two. A string with a unit that belongs to
  no character is a token all the same, but it has no text.
- Of a number only its form is checked; its value has no bearing on anything.
- Between tokens there may be blanks, tabs and line ends, and nothing else.
-/

namespace HostDrive.Json

/-! ## Tokens -/

/-- A token. -/
inductive Token where
  | openBrace
  | closeBrace
  | openBracket
  | closeBracket
  | colon
  | comma
  | null
  | bool (b : Bool)
  | number
  /-- A string, with its text if it has one. -/
  | string (text? : Option String)
  deriving DecidableEq, Repr

/-! ## Strings -/

/-- A part of a string. -/
inductive StringUnit where
  | char (c : Char)
  /-- A unit of sixteen bits, given by number. -/
  | number (n : Nat)
  deriving DecidableEq, Repr

def hexValue? (c : Char) : Option Nat :=
  if '0' ≤ c ∧ c ≤ '9' then some (c.toNat - '0'.toNat)
  else if 'a' ≤ c ∧ c ≤ 'f' then some (c.toNat - 'a'.toNat + 10)
  else if 'A' ≤ c ∧ c ≤ 'F' then some (c.toNat - 'A'.toNat + 10)
  else none

/-- The number that four hexadecimal digits spell. -/
def hexNumber? (a b c d : Char) : Option Nat :=
  match hexValue? a, hexValue? b, hexValue? c, hexValue? d with
  | some a, some b, some c, some d => some (((a * 16 + b) * 16 + c) * 16 + d)
  | _, _, _, _ => none

/-- The character that a letter behind a backslash stands for. -/
def escaped? : Char → Option Char
  | '\x22' => some '\x22'
  | '\\' => some '\\'
  | '/' => some '/'
  | 'b' => some '\x08'
  | 'f' => some '\x0c'
  | 'n' => some '\n'
  | 'r' => some '\r'
  | 't' => some '\t'
  | _ => none

/-- A unit in front of what was read behind it. -/
def prepend (u : StringUnit) (read : List StringUnit × List Char) :
    List StringUnit × List Char :=
  (u :: read.1, read.2)

/-- Reads a string behind its opening quote, up to and with its closing one. -/
def stringUnits? : List Char → Option (List StringUnit × List Char)
  | [] => none
  | '\x22' :: rest => some ([], rest)
  | '\\' :: 'u' :: a :: b :: c :: d :: rest =>
    match hexNumber? a b c d with
    | some n => (stringUnits? rest).map (prepend (.number n))
    | none => none
  | '\\' :: e :: rest =>
    match escaped? e with
    | some c => (stringUnits? rest).map (prepend (.char c))
    | none => none
  | c :: rest =>
    if c.toNat < 0x20 then none else (stringUnits? rest).map (prepend (.char c))

def isLead (n : Nat) : Bool := 0xD800 ≤ n && n < 0xDC00

def isTrail (n : Nat) : Bool := 0xDC00 ≤ n && n < 0xE000

/-- The character of a pair of units. -/
def pairChar (lead trail : Nat) : Char :=
  Char.ofNat (0x10000 + (lead - 0xD800) * 0x400 + (trail - 0xDC00))

/-- The characters of a string, unless a unit belongs to none. -/
def unitChars? : List StringUnit → Option (List Char)
  | [] => some []
  | .char c :: rest => (unitChars? rest).map (c :: ·)
  | .number lead :: .number trail :: rest =>
    if isLead lead then
      if isTrail trail then (unitChars? rest).map (pairChar lead trail :: ·) else none
    else if isTrail lead then none
    else (unitChars? (.number trail :: rest)).map (Char.ofNat lead :: ·)
  | .number n :: rest =>
    if isLead n || isTrail n then none else (unitChars? rest).map (Char.ofNat n :: ·)

/-- The text of a string, unless a unit belongs to no character. -/
def unitText? (units : List StringUnit) : Option String := (unitChars? units).map String.ofList

/-! ## Numbers -/

def digits? : List Char → Option (List Char)
  | c :: rest => if c.isDigit then some (rest.dropWhile Char.isDigit) else none
  | [] => none

/-- Reads the digits before the point: a zero alone, or digits that do not start with one. -/
def integerPart? : List Char → Option (List Char)
  | '0' :: rest => some rest
  | s => digits? s

/-- Reads a point and digits, if there is a point. -/
def fractionPart? : List Char → Option (List Char)
  | '.' :: rest => digits? rest
  | s => some s

/-- A text without the sign that it may start with. -/
def withoutSign : List Char → List Char
  | '+' :: rest => rest
  | '-' :: rest => rest
  | s => s

/-- Reads an exponent, if there is one. -/
def exponentPart? : List Char → Option (List Char)
  | 'e' :: rest => digits? (withoutSign rest)
  | 'E' :: rest => digits? (withoutSign rest)
  | s => some s

def magnitude? (s : List Char) : Option (List Char) :=
  match integerPart? s with
  | none => none
  | some s =>
    match fractionPart? s with
    | none => none
    | some s => exponentPart? s

/-! ## One token -/

/-- Reads the token that a text starts with, and returns what follows it. -/
def token? : List Char → Option (Token × List Char)
  | '\x7b' :: rest => some (.openBrace, rest)
  | '\x7d' :: rest => some (.closeBrace, rest)
  | '[' :: rest => some (.openBracket, rest)
  | ']' :: rest => some (.closeBracket, rest)
  | ':' :: rest => some (.colon, rest)
  | ',' :: rest => some (.comma, rest)
  | 'n' :: 'u' :: 'l' :: 'l' :: rest => some (.null, rest)
  | 't' :: 'r' :: 'u' :: 'e' :: rest => some (.bool true, rest)
  | 'f' :: 'a' :: 'l' :: 's' :: 'e' :: rest => some (.bool false, rest)
  | '\x22' :: rest => (stringUnits? rest).map fun read => (.string (unitText? read.1), read.2)
  | '-' :: rest => (magnitude? rest).map fun rest => (.number, rest)
  | s => (magnitude? s).map fun rest => (.number, rest)

/-! ## What a token leaves -/

theorem stringUnits?_length {s rest : List Char} {units : List StringUnit}
    (h : stringUnits? s = some (units, rest)) : rest.length < s.length := by
  fun_induction stringUnits? s generalizing units rest with
  | case1 => simp at h
  | case2 tail =>
    simp only [Option.some.injEq, Prod.mk.injEq] at h
    simp [h.2]
  | case3 a b c d tail n _ ih =>
    obtain ⟨read, found, eq⟩ := Option.map_eq_some_iff.1 h
    have shorter := @ih read.2 read.1 found
    simp only [prepend, Prod.mk.injEq] at eq
    simp only [← eq.2, List.length_cons]
    omega
  | case4 => simp at h
  | case5 e tail _ c _ ih =>
    obtain ⟨read, found, eq⟩ := Option.map_eq_some_iff.1 h
    have shorter := @ih read.2 read.1 found
    simp only [prepend, Prod.mk.injEq] at eq
    simp only [← eq.2, List.length_cons]
    omega
  | case6 => simp at h
  | case7 => simp at h
  | case8 c tail _ _ _ _ ih =>
    obtain ⟨read, found, eq⟩ := Option.map_eq_some_iff.1 h
    have shorter := @ih read.2 read.1 found
    simp only [prepend, Prod.mk.injEq] at eq
    simp only [← eq.2, List.length_cons]
    omega

theorem length_dropWhile_le (p : Char → Bool) (s : List Char) :
    (s.dropWhile p).length ≤ s.length := (List.dropWhile_sublist p).length_le

theorem digits?_length {s rest : List Char} (h : digits? s = some rest) :
    rest.length < s.length := by
  cases s with
  | nil => simp [digits?] at h
  | cons c tail =>
    simp only [digits?] at h
    split at h
    · simp only [Option.some.injEq] at h
      have := length_dropWhile_le Char.isDigit tail
      simp only [← h, List.length_cons]
      omega
    · simp at h

theorem integerPart?_length {s rest : List Char} (h : integerPart? s = some rest) :
    rest.length < s.length := by
  unfold integerPart? at h
  split at h
  · simp only [Option.some.injEq] at h
    simp [h]
  · exact digits?_length h

theorem fractionPart?_length {s rest : List Char} (h : fractionPart? s = some rest) :
    rest.length ≤ s.length := by
  unfold fractionPart? at h
  split at h
  · have := digits?_length h
    simp only [List.length_cons]
    omega
  · simp only [Option.some.injEq] at h
    simp [h]

theorem length_withoutSign_le (s : List Char) : (withoutSign s).length ≤ s.length := by
  unfold withoutSign
  split <;> simp

theorem exponentPart?_length {s rest : List Char} (h : exponentPart? s = some rest) :
    rest.length ≤ s.length := by
  unfold exponentPart? at h
  split at h
  · rename_i tail
    have := digits?_length h
    have := length_withoutSign_le tail
    simp only [List.length_cons]
    omega
  · rename_i tail
    have := digits?_length h
    have := length_withoutSign_le tail
    simp only [List.length_cons]
    omega
  · simp only [Option.some.injEq] at h
    simp [h]

theorem magnitude?_length {s rest : List Char} (h : magnitude? s = some rest) :
    rest.length < s.length := by
  unfold magnitude? at h
  split at h
  · simp at h
  · rename_i afterInteger integer
    split at h
    · simp at h
    · rename_i afterFraction fraction
      have := integerPart?_length integer
      have := fractionPart?_length fraction
      have := exponentPart?_length h
      omega

/-- A token takes at least one character. -/
theorem token?_length {s rest : List Char} {t : Token} (h : token? s = some (t, rest)) :
    rest.length < s.length := by
  unfold token? at h
  split at h
  case h_10 tail =>
    obtain ⟨read, found, eq⟩ := Option.map_eq_some_iff.1 h
    have shorter := @stringUnits?_length tail read.2 read.1 found
    simp only [Prod.mk.injEq] at eq
    simp only [← eq.2, List.length_cons]
    omega
  case h_11 tail =>
    obtain ⟨left, found, eq⟩ := Option.map_eq_some_iff.1 h
    have shorter := magnitude?_length found
    simp only [Prod.mk.injEq] at eq
    simp only [← eq.2, List.length_cons]
    omega
  case h_12 =>
    obtain ⟨left, found, eq⟩ := Option.map_eq_some_iff.1 h
    have shorter := magnitude?_length found
    simp only [Prod.mk.injEq] at eq
    simp only [← eq.2]
    omega
  all_goals
    simp only [Option.some.injEq, Prod.mk.injEq] at h
    simp only [← h.2, List.length_cons]
    omega

/-! ## All tokens -/

/-- The characters that may stand between tokens. -/
def isBetween (c : Char) : Bool := c == ' ' || c == '\t' || c == '\n' || c == '\r'

/-- The tokens of a text, if it is made of tokens. -/
def tokens? (s : List Char) : Option (List Token) :=
  match _begins : s.dropWhile isBetween with
  | [] => some []
  | c :: tail =>
    match _found : token? (c :: tail) with
    | none => none
    | some (t, rest) => (tokens? rest).map (t :: ·)
termination_by s.length
decreasing_by
  have := token?_length _found
  have := length_dropWhile_le isBetween s
  rw [_begins] at this
  omega

end HostDrive.Json

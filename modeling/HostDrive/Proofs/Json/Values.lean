import HostDrive.Json.Value
import HostDrive.Proofs.Json.Tokens

/-!
# Texts of Values

A value has its tokens in one order only, so the texts that spell a value are the texts of these
tokens. The reader goes through them once, with a stack of what is still open; over the tokens of a
value it comes back to the stack that it started with.

## Architecture

- `Value.tokens` are the tokens of a value, and `Value.WrittenAs` is a text that spells it.
- `readFrom_tokens` is what the reader makes of the tokens of a value, whatever is open and whatever
  follows, by induction over the value.
- `apart_of_readFrom`: what the reader accepts needs no gaps to be told apart.
- `Value.parse?_of_writtenAs` puts both readings together.
-/

namespace HostDrive.Json

/-! ## Section 1: The tokens of a value -/

mutual

/-- The tokens of a value. -/
def Value.tokens : Value → List Token
  | .null => [.null]
  | .bool b => [.bool b]
  | .number => [.number]
  | .string text? => [.string text?]
  | .array [] => [.openBracket, .closeBracket]
  | .array (v :: vs) => .openBracket :: (v.tokens ++ moreElements vs ++ [.closeBracket])
  | .object [] => [.openBrace, .closeBrace]
  | .object ((key, v) :: ms) =>
    .openBrace :: .string key :: .colon :: (v.tokens ++ moreMembers ms ++ [.closeBrace])

/-- The tokens of further elements of an array. -/
def moreElements : List Value → List Token
  | [] => []
  | v :: vs => .comma :: (v.tokens ++ moreElements vs)

/-- The tokens of further members of an object. -/
def moreMembers : List (Option String × Value) → List Token
  | [] => []
  | (key, v) :: ms => .comma :: .string key :: .colon :: (v.tokens ++ moreMembers ms)

end

/-- **A text that spells a value**, in any layout. -/
def Value.WrittenAs (v : Value) (s : String) : Prop := Layout v.tokens s.toList

/-! ## Section 2: Reading the tokens of a value -/

/-- Where an array might end, the tokens of a value begin an element all the same. -/
private theorem readFrom_valueOrEnd (v : Value) (frames : List Frame) (rest : List Token) :
    readFrom .valueOrEnd frames (v.tokens ++ rest) = readFrom .value frames (v.tokens ++ rest) := by
  -- no value starts with a closing bracket
  match v with
  | .null | .bool _ | .number | .string _ | .array [] | .array (_ :: _) | .object []
  | .object ((_, _) :: _) => rfl

mutual

/-- **What the reader makes of a value**: it has the value, and the stack is as it was. -/
theorem readFrom_tokens (v : Value) (frames : List Frame) (rest : List Token) :
    readFrom .value frames (v.tokens ++ rest) = readFrom (.next v) frames rest := by
  match v with
  | .null | .bool _ | .number | .string _ | .array [] | .object [] => rfl
  | .array (v :: vs) =>
    rw [Value.tokens, List.cons_append, List.append_assoc, List.append_assoc]
    -- the bracket opens an array with nothing in it so far
    show readFrom .valueOrEnd (.array [] :: frames)
      (v.tokens ++ (moreElements vs ++ .closeBracket :: rest)) = _
    rw [readFrom_valueOrEnd, readFrom_tokens v, readFrom_moreElements vs]
    rfl
  | .object ((key, v) :: ms) =>
    rw [Value.tokens, List.cons_append, List.cons_append, List.cons_append, List.append_assoc,
      List.append_assoc]
    -- the brace opens an object, and the key waits for its value
    show readFrom .value (.member [] key :: frames)
      (v.tokens ++ (moreMembers ms ++ .closeBrace :: rest)) = _
    rw [readFrom_tokens v, readFrom_moreMembers ms]
    rfl

/-- Further elements are put behind those that were read. -/
theorem readFrom_moreElements (vs : List Value) (v : Value) (before : List Value)
    (frames : List Frame) (rest : List Token) :
    readFrom (.next v) (.array before :: frames) (moreElements vs ++ .closeBracket :: rest) =
      readFrom (.next (.array (before.reverse ++ v :: vs))) frames rest := by
  match vs with
  | [] =>
    show readFrom (.next (.array (v :: before).reverse)) frames rest = _
    rw [List.reverse_cons]
  | w :: vs =>
    rw [moreElements, List.cons_append, List.append_assoc]
    show readFrom .value (.array (v :: before) :: frames)
      (w.tokens ++ (moreElements vs ++ .closeBracket :: rest)) = _
    rw [readFrom_tokens w, readFrom_moreElements vs, List.reverse_cons, List.append_assoc]
    rfl

/-- Further members are put behind those that were read. -/
theorem readFrom_moreMembers (ms : List (Option String × Value)) (key : Option String) (v : Value)
    (before : List (Option String × Value)) (frames : List Frame) (rest : List Token) :
    readFrom (.next v) (.member before key :: frames) (moreMembers ms ++ .closeBrace :: rest) =
      readFrom (.next (.object (before.reverse ++ (key, v) :: ms))) frames rest := by
  match ms with
  | [] =>
    show readFrom (.next (.object ((key, v) :: before).reverse)) frames rest = _
    rw [List.reverse_cons]
  | (key', w) :: ms =>
    rw [moreMembers, List.cons_append, List.cons_append, List.cons_append, List.append_assoc]
    show readFrom .value (.member ((key, v) :: before) key' :: frames)
      (w.tokens ++ (moreMembers ms ++ .closeBrace :: rest)) = _
    rw [readFrom_tokens w, readFrom_moreMembers ms, List.reverse_cons, List.append_assoc]
    rfl

end

/-! ## Section 3: Both readings together -/

/-- One turn of the reader. -/
theorem readFrom_cons (expected : Expected) (frames : List Frame) (t : Token)
    (rest : List Token) :
    readFrom expected frames (t :: rest) =
      (advance expected frames t).bind fun next => readFrom next.1 next.2 rest := by
  rw [readFrom]
  cases advance expected frames t <;> rfl

/-- A number is a whole value, wherever it may stand. -/
private theorem advance_number {expected expected' : Expected} {frames frames' : List Frame}
    (h : advance expected frames .number = some (expected', frames')) :
    expected' = .next .number := by
  unfold advance at h
  split at h <;> simp_all [beginValue]

/-- **What the reader accepts needs no gaps.** Behind a number it takes no other. -/
theorem apart_of_readFrom {expected : Expected} {frames : List Frame} {ts : List Token} {v : Value}
    (h : readFrom expected frames ts = some v) : ts.IsChain Apart := by
  induction ts generalizing expected frames with
  | nil => exact .nil
  | cons t ts ih =>
    rw [readFrom_cons] at h
    obtain ⟨⟨expected', frames'⟩, hadvance, hrest⟩ := Option.bind_eq_some_iff.mp h
    cases ts with
    | nil => exact .singleton t
    | cons u ts =>
      refine .cons_cons ?_ (ih hrest)
      rintro rfl rfl
      obtain rfl := advance_number hadvance
      rw [readFrom_cons] at hrest
      obtain ⟨next, hnext, -⟩ := Option.bind_eq_some_iff.mp hrest
      exact nomatch hnext

/-- **Every text of a value is read as the value.** -/
theorem Value.parse?_of_writtenAs {v : Value} {s : String} (h : v.WrittenAs s) :
    parse? s = some v := by
  have hread : readFrom .value [] v.tokens = some v := by
    have hend := readFrom_tokens v [] []
    rw [List.append_nil] at hend
    exact hend
  rw [parse?, tokens?_of_layout h (apart_of_readFrom hread)]
  exact hread

end HostDrive.Json

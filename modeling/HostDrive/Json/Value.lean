import HostDrive.Json.Token

/-!
# JSON Values

The second reading of a JSON text: from tokens to a value. The reader goes through the tokens once
and keeps a stack of the arrays and objects that are still open, so values may be nested as deeply
as memory allows.
-/

namespace HostDrive.Json

/-- A JSON value. Numbers have lost their value, and strings may have no text. -/
inductive Value where
  | null
  | bool (b : Bool)
  | number
  | string (text? : Option String)
  | array (elements : List Value)
  | object (members : List (Option String × Value))

/-! ## The state of the reader -/

/-- An array or object that is still open, with what is in it so far, last first. -/
inductive Frame where
  | array (before : List Value)
  | object (before : List (Option String × Value))
  /-- An object in which a key waits for its value. -/
  | member (before : List (Option String × Value)) (key : Option String)

/-- What the next token has to be. -/
inductive Expected where
  | value
  /-- A value, or the end of the array. -/
  | valueOrEnd
  | key
  /-- A key, or the end of the object. -/
  | keyOrEnd
  /-- A colon behind this key. -/
  | colon (key : Option String)
  /-- What may follow this value. -/
  | next (v : Value)

/-! ## Reading -/

/-- The state after the first token of a value. -/
def beginValue (frames : List Frame) : Token → Option (Expected × List Frame)
  | .null => some (.next .null, frames)
  | .bool b => some (.next (.bool b), frames)
  | .number => some (.next .number, frames)
  | .string text? => some (.next (.string text?), frames)
  | .openBracket => some (.valueOrEnd, .array [] :: frames)
  | .openBrace => some (.keyOrEnd, .object [] :: frames)
  | _ => none

def advance (expected : Expected) (frames : List Frame) (t : Token) :
    Option (Expected × List Frame) :=
  match expected, t, frames with
  | .value, t, frames => beginValue frames t
  | .valueOrEnd, .closeBracket, .array before :: frames =>
    some (.next (.array before.reverse), frames)
  | .valueOrEnd, t, frames => beginValue frames t
  | .key, .string key, frames => some (.colon key, frames)
  | .keyOrEnd, .string key, frames => some (.colon key, frames)
  | .keyOrEnd, .closeBrace, .object before :: frames =>
    some (.next (.object before.reverse), frames)
  | .colon key, .colon, .object before :: frames => some (.value, .member before key :: frames)
  | .next v, .comma, .array before :: frames => some (.value, .array (v :: before) :: frames)
  | .next v, .closeBracket, .array before :: frames =>
    some (.next (.array (v :: before).reverse), frames)
  | .next v, .comma, .member before key :: frames =>
    some (.key, .object ((key, v) :: before) :: frames)
  | .next v, .closeBrace, .member before key :: frames =>
    some (.next (.object ((key, v) :: before).reverse), frames)
  | _, _, _ => none

/-- Reads tokens up to the end, where one value has to be complete. -/
def readFrom : Expected → List Frame → List Token → Option Value
  | .next v, [], [] => some v
  | _, _, [] => none
  | expected, frames, t :: rest =>
    match advance expected frames t with
    | some (expected, frames) => readFrom expected frames rest
    | none => none

def Value.parse? (s : String) : Option Value :=
  match tokens? s.toList with
  | some ts => readFrom .value [] ts
  | none => none

end HostDrive.Json

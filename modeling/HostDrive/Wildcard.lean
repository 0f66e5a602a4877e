import HostDrive.Text.Ascii

/-!
# Wildcards

A search pattern and a name are both cut at their last dot, and the halves are matched one by
one, byte by byte and without regard to the case of ASCII letters:

- `*` matches any run of bytes, also an empty one;
- `?` matches exactly one byte;
- any other byte matches itself.

## Architecture

- `cutAtStars` turns a pattern into pieces without stars, which take as many bytes as they have.
- `glob` settles one piece after the other. A piece behind a star goes to the **first** place where
  it fits: what is left of the name is then longest, and the next star may skip any part of it. Only
  the last piece has no choice, as it must end the name.
-/

namespace HostDrive.Wildcard

/-! ## One half of a name -/

/-- The byte that stands for any run. -/
def star : UInt8 := 0x2A

/-- The byte that stands for any one byte. -/
def anyOne : UInt8 := 0x3F

/-- Whether a pattern byte other than the star takes this byte of the name. -/
def takes (p b : UInt8) : Bool := p == anyOne || Text.upperByte p == Text.upperByte b

/-! ### Pieces of a pattern -/

/-- The part of a pattern before its first star, and the parts behind each star. -/
def cutAtStars : List UInt8 → List UInt8 × List (List UInt8)
  | [] => ([], [])
  | p :: pattern =>
    let cut := cutAtStars pattern
    if p == star then ([], cut.1 :: cut.2) else (p :: cut.1, cut.2)

/-- What a piece leaves of a name that starts with it. -/
def afterPiece : List UInt8 → List UInt8 → Option (List UInt8)
  | [], name => some name
  | _ :: _, [] => none
  | p :: piece, b :: name => if takes p b then afterPiece piece name else none

/-- What is left of a name behind the first place where a piece fits. -/
def afterFirst (piece : List UInt8) : List UInt8 → Option (List UInt8)
  | [] => afterPiece piece []
  | b :: name =>
    match afterPiece piece (b :: name) with
    | some left => some left
    | none => afterFirst piece name

/-- Whether a piece fits at the end of a name. -/
def endsWith (piece name : List UInt8) : Bool :=
  afterPiece piece (name.drop (name.length - piece.length)) == some []

/-! ### Matching -/

/-- Whether pieces, each behind a star, match a whole byte string. -/
def globBehind : List (List UInt8) → List UInt8 → Bool
  | [], name => name.isEmpty
  | [piece], name => endsWith piece name
  | piece :: next :: more, name =>
    match afterFirst piece name with
    | some left => globBehind (next :: more) left
    | none => false

/-- Whether a pattern matches a whole byte string. -/
def glob (pattern name : List UInt8) : Bool :=
  let cut := cutAtStars pattern
  match afterPiece cut.1 name with
  | some left => globBehind cut.2 left
  | none => false

/-! ## Names with an extension -/

/-- What stands before the last dot, and what stands behind it; without a dot the extension is
empty. -/
def cutExtension (s : List UInt8) : List UInt8 × List UInt8 :=
  let extension := (s.reverse.takeWhile (· != 0x2E)).reverse
  if extension.length == s.length then (s, [])
  else (s.take (s.length - extension.length - 1), extension)

/-- Whether a name matches a pattern, base against base and extension against extension. -/
def isMatch (pattern name : String) : Bool :=
  let p := cutExtension (Text.utf8 pattern)
  let n := cutExtension (Text.utf8 name)
  glob p.1 n.1 && glob p.2 n.2

end HostDrive.Wildcard

/-!
# ASCII Views of Text

The guest knows one-byte characters only, the host has Unicode file names. This module holds the
views that both sides share:

- the UTF-8 bytes of a text, and case mapping that touches ASCII letters alone;
- **plain** bytes: anything outside ASCII shown as a question mark;
- byte strings read as Latin-1.
-/

namespace HostDrive.Text

/-! ## Bytes of a text -/

/-- The UTF-8 bytes of a text, character by character. -/
def utf8 (s : String) : List UInt8 := s.toList.flatMap String.utf8EncodeChar

/-- The text that bytes spell in UTF-8, if they do. -/
def ofUtf8? (bytes : List UInt8) : Option String := String.fromUTF8? ⟨bytes.toArray⟩

/-- The text whose characters have these bytes as code points. -/
def latin1 (bytes : List UInt8) : String := String.ofList (bytes.map Char.ofUInt8)

/-! ## Case, for ASCII letters only -/

/-- Upper case of an ASCII letter; any other byte is left alone. -/
def upperByte (b : UInt8) : UInt8 := if 0x61 ≤ b ∧ b ≤ 0x7A then b - 0x20 else b

/-- The UTF-8 bytes of a text with the ASCII letters in upper case. -/
def upperBytes (s : String) : List UInt8 := (utf8 s).map upperByte

/-- Equality of texts that does not tell upper from lower case in ASCII letters. -/
def sameIgnoringCase (s t : String) : Bool :=
  s.toList.map Char.toLower == t.toList.map Char.toLower

/-! ## Bytes that the guest can show -/

/-- The byte standing for anything outside ASCII. -/
def questionMark : UInt8 := 0x3F

/-- An ASCII byte is itself, any other is a question mark. -/
def plainByte (b : UInt8) : UInt8 := if b < 0x80 then b else questionMark

/-- A text made of ASCII characters only. -/
def isAscii (s : String) : Bool := s.toList.all fun c => c.toNat < 0x80

end HostDrive.Text

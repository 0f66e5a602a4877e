import HostDrive.Text.CodePoints
import HostDrive.Text.Number

/-!
# Quoted Text in Messages

Messages show a user's text in double quotes, so that stray blanks and control characters can be
seen. A single quote needs no escape; a character without a visible form of its own is spelled as
its code point in braces.
-/

namespace HostDrive.Text

def spelledCodePoint (c : Char) : List Char :=
  ['\\', 'u', '\x7b'] ++ hexDigits c.toNat ++ ['\x7d']

def quotedChar (c : Char) : List Char :=
  if c = '\x00' then ['\\', '0']
  else if c = '\t' then ['\\', 't']
  else if c = '\r' then ['\\', 'r']
  else if c = '\n' then ['\\', 'n']
  else if c = '\\' then ['\\', '\\']
  else if c = '\x22' then ['\\', '\x22']
  else if isExtending c || isUnprintable c then spelledCodePoint c
  else [c]

/-- A text in double quotes, as messages show it. -/
def quoted (s : String) : String :=
  String.ofList (['\x22'] ++ s.toList.flatMap quotedChar ++ ['\x22'])

end HostDrive.Text

import HostDrive.Text.Number

/-!
# JSON Strings

Texts written as JSON strings. Only what has to be escaped is: the quote, the backslash, and control
characters, of which five have a letter of their own.
-/

namespace HostDrive.Json

/-- A control character as an escape by number. -/
def numberEscape (c : Char) : List Char :=
  ['\\', 'u', '0', '0', Text.hexDigit (c.toNat / 16), Text.hexDigit (c.toNat % 16)]

def escape (c : Char) : List Char :=
  if c = '\x22' then ['\\', '\x22']
  else if c = '\\' then ['\\', '\\']
  else if c = '\x08' then ['\\', 'b']
  else if c = '\x0c' then ['\\', 'f']
  else if c = '\n' then ['\\', 'n']
  else if c = '\r' then ['\\', 'r']
  else if c = '\t' then ['\\', 't']
  else if c.toNat < 0x20 then numberEscape c
  else [c]

def quoted (s : String) : List Char := ['\x22'] ++ s.toList.flatMap escape ++ ['\x22']

end HostDrive.Json

import HostDrive.Entry
import HostDrive.Text.Number

/-!
# Listings

How the command line shows directory entries: one line for each, in columns.
-/

namespace HostDrive.CommandLine

/-- The attribute bits in the order of their letters. -/
def attributeLetters : List (UInt8 × Char) :=
  [(Attribute.directory, 'd'), (Attribute.readOnly, 'r'), (Attribute.hidden, 'h'),
    (Attribute.system, 's'), (Attribute.archive, 'a')]

/-- An attribute byte as letters, with a dash for each bit that is not set. -/
def attributeText (attributes : UInt8) : String :=
  String.ofList (attributeLetters.map fun p => if Attribute.has attributes p.1 then p.2 else '-')

def dateText (t : Timestamp) : String :=
  Text.zeroPadded 4 t.year.toNat ++ "-" ++ Text.zeroPadded 2 t.month.toNat ++ "-" ++
    Text.zeroPadded 2 t.day.toNat

/-- The time of day of a time stamp. -/
def timeText (t : Timestamp) : String :=
  Text.zeroPadded 2 t.hour.toNat ++ ":" ++ Text.zeroPadded 2 t.minute.toNat ++ ":" ++
    Text.zeroPadded 2 t.second.toNat

/-- The size of an entry, or a mark for a directory. -/
def sizeText (r : Record) : String :=
  if Attribute.has r.attributes Attribute.directory then "<DIR>" else toString r.size.toNat

def entryLine (r : Record) : String :=
  Text.padRight 12 r.name ++ " " ++ Text.padLeft 10 (sizeText r) ++ "  " ++
    attributeText r.attributes ++ "  " ++ dateText r.modified ++ " " ++ timeText r.modified

def countLine (count : Nat) : String := toString count ++ " entries"

end HostDrive.CommandLine

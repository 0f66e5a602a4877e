import HostDrive.Host.Basic
import HostDrive.Text.Quoted

/-!
# Setup Errors

What can go wrong on the host's side before a guest runs: in the settings, in their file, and when a
machine is filled. The guest never sees these; its own failures are status codes.
-/

namespace HostDrive

/-- A failure on the host's side. -/
inductive SetupError where
  /-- The guest cannot show this volume label. -/
  | invalidVolumeLabel (label : String)
  /-- The directory to be served does not exist. -/
  | baseDirNotFound (path : HostPath)
  /-- The memory has no segment of this number. -/
  | invalidSegment (segment : UInt8)
  /-- Data for a page would end behind it, at this offset. -/
  | imageTooLarge (size : Nat)
  /-- The settings name no directory. -/
  | emptyDirectory
  /-- This slot takes no read-only memory. -/
  | slotWithoutRom (slot : UInt8)
  /-- A file of the host could not be read. -/
  | unreadable (reason : PathFault)
  /-- The settings are no text of the expected form. -/
  | malformedSettings
  deriving DecidableEq, Repr

namespace SetupError

/-- The explanation of an error in the settings or in a request, if it is of that sort. -/
def explanation? : SetupError → Option String
  | emptyDirectory => some "integratedDirectory must not be empty"
  | slotWithoutRom slot => some ("slot " ++ toString slot.toNat ++ " cannot hold a ROM")
  | _ => none

/-- The message of an error. Errors of other parties have only their kind in it. -/
def message : SetupError → String
  | invalidVolumeLabel label => "Invalid volume label: " ++ Text.quoted label
  | baseDirNotFound path => "Integrated directory not found: " ++ path.text
  | invalidSegment segment => "Invalid segment number: " ++ toString segment.toNat
  | imageTooLarge size => "Image too large for a 16K page: " ++ toString size ++ " bytes"
  | unreadable _ => "I/O error"
  | malformedSettings => "JSON error"
  | error => "Config error: " ++ error.explanation?.getD ""

/-- The error as the command line reports it: its kind, and its content in parentheses. Errors of
other parties have only their kind. -/
def report : SetupError → String
  | invalidVolumeLabel label => "InvalidVolumeLabel(" ++ Text.quoted label ++ ")"
  | baseDirNotFound path => "BaseDirNotFound(" ++ Text.quoted path.text ++ ")"
  | invalidSegment segment => "InvalidSegment(" ++ toString segment.toNat ++ ")"
  | imageTooLarge size => "ImageTooLarge(" ++ toString size ++ ")"
  | unreadable _ => "Io"
  | malformedSettings => "Json"
  | error => "Config(" ++ Text.quoted (error.explanation?.getD "") ++ ")"

end SetupError

end HostDrive

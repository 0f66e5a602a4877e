import HostDrive.Host.FileTree
import HostDrive.Json.Quoted
import HostDrive.Json.Value
import HostDrive.Settings.Basic

/-!
# Settings as Text

Settings are kept as a JSON object with two members, each of which may be missing and then keeps
its default. Members with other names are skipped, whatever their value is; a member of the two that
comes twice is an error. An array of up to two strings is read as the two members in their order.
-/

namespace HostDrive.Settings

/-! ## Members -/

/-- Name of the member with the directory. -/
def directoryKey : String := "integratedDirectory"

/-- Name of the member with the label. -/
def labelKey : String := "volumeLabel"

/-- The members that were found. -/
structure Found where
  directory : Option String := none
  label : Option String := none
  deriving DecidableEq, Repr

/-- The settings with these members, and defaults for those that are missing. -/
def Found.settings (f : Found) : Settings :=
  let defaults : Settings := {}
  { directory := f.directory.getD defaults.directory, label := f.label.getD defaults.label }

/-! ## Reading -/

/-- The text of a value that is a string with a text. -/
def textOf? : Json.Value → Option String
  | .string text? => text?
  | _ => none

def takeMember? (f : Found) (member : Option String × Json.Value) : Option Found :=
  match member.1 with
  | none => none
  | some key =>
    if key = directoryKey then
      if f.directory.isSome then none
      else (textOf? member.2).map fun s => { f with directory := some s }
    else if key = labelKey then
      if f.label.isSome then none
      else (textOf? member.2).map fun s => { f with label := some s }
    else some f

def found? : Json.Value → Option Found
  | .object members => members.foldlM takeMember? {}
  | .array [] => some {}
  | .array [directory] => (textOf? directory).map fun s => { directory := some s }
  | .array [directory, label] =>
    match textOf? directory, textOf? label with
    | some directory, some label => some ⟨some directory, some label⟩
    | _, _ => none
  | _ => none

/-- The settings in a JSON text, checked. -/
def ofText (s : String) : Except SetupError Settings :=
  match (Json.Value.parse? s).bind found? with
  | none => .error .malformedSettings
  | some found =>
    match found.settings.validate with
    | .ok () => .ok found.settings
    | .error e => .error e

/-- The settings in a file of the host, checked. -/
def load (tree : FileTree) (path : HostPath) : Except SetupError Settings :=
  match tree.readText path with
  | .ok s => ofText s
  | .error reason => .error (.unreadable reason)

/-! ## Writing -/

def memberText (key value : String) : List Char := Json.quoted key ++ [':'] ++ Json.quoted value

def text (s : Settings) : String :=
  String.ofList (['\x7b'] ++ memberText directoryKey s.directory ++ [','] ++
    memberText labelKey s.label ++ ['\x7d'])

end HostDrive.Settings

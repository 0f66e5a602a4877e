import HostDrive.CommandLine.Help
import HostDrive.CommandLine.Listing
import HostDrive.CommandLine.Session
import HostDrive.Drive.Mount
import HostDrive.Settings.Text

/-!
# Responses

From the arguments to what is printed: settings are loaded and overridden, the drive is mounted, the
command is carried out, and its report is shown. The host is asked about directories, and for the
settings there are files.
-/

namespace HostDrive.CommandLine

/-- What the program prints, and with which code it ends. -/
inductive Response where
  | finished (code : Nat) (output : String) (errors : List String)
  /-- The arguments make no sense. -/
  | unusable
  deriving DecidableEq, Repr

/-! ## Settings -/

/-- The settings that the options ask for, checked. -/
def settingsFor (files : FileTree) (around : Surroundings) (o : Options) :
    Except SetupError Settings :=
  let loaded := match o.config with
    | some path => Settings.load files (around.workingDirectory.join path)
    | none => .ok {}
  match loaded with
  | .error e => .error e
  | .ok loaded =>
    let settings : Settings := {
      directory := o.directory.getD loaded.directory
      label := o.label.getD loaded.label }
    match settings.validate with
    | .ok () => .ok settings
    | .error e => .error e

/-! ## Reports -/

/-- A status code as the command line shows it. -/
def codeText (status : Status) : String :=
  let code := status.code.toNat
  String.ofList ['0', 'x', (Text.hexDigit (code / 16)).toUpper, (Text.hexDigit (code % 16)).toUpper]

def failureText : Status → String
  | .noDirectory => "Directory not found"
  | .noFile => "File not found"
  | .ok => "No entries"

def Report.response : Report → Response
  | entries found =>
    .finished 0 (unlines (found.map entryLine ++ [countLine found.length])) []
  | text s => .finished 0 (unlines [s]) []
  | failed status => .finished 1 "" [failureText status ++ " (" ++ codeText status ++ ")"]

/-! ## The program -/

def runCommand (host : Host) (files : FileTree) (around : Surroundings) (o : Options)
    (command : Command) : Except SetupError Report := do
  let settings ← settingsFor files around o
  let drive ← Drive.mount host around settings
  let machine ← machineFor drive
  return perform host machine command

/-- What the program answers to its arguments. -/
def respond (host : Host) (files : FileTree) (around : Surroundings) (arguments : List String) :
    Response :=
  match request arguments with
  | .unusable => .unusable
  | .help topic => .finished 0 topic.text []
  | .run o command =>
    match runCommand host files around o command with
    | .ok report => report.response
    | .error e => .finished 1 "" ["Error: " ++ e.report]

end HostDrive.CommandLine

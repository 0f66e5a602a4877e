import HostDrive.Host.Basic

/-!
# Resolving Guest Directories

The names of a guest directory lead from a base directory down the host. At each step the name is
tried as spelled first, and then against the listing without regard to case. A name with a colon in
it leads nowhere, as a drive designator may only stand in front of a whole path.
-/

namespace HostDrive.Host

/-- The member of a listing that is a directory with this name, case aside. -/
def matchingDirectory? (entries : List Entry) (name : String) : Option Entry :=
  entries.find? fun e => e.isDirectory && Text.sameIgnoringCase e.name name

/-- The directory with this name inside a directory. -/
def enter (host : Host) (directory : HostPath) (name : String) : Option HostPath :=
  if name.toList.contains ':' then none
  -- a name that exists as spelled is not looked for in the listing
  else if host.isDirectory (directory.join name) then some (directory.join name)
  else match host.list directory with
    | .error _ => none
    | .ok entries => (matchingDirectory? entries name).map fun e => directory.join e.name

/-- The directory to which these names lead from a directory. -/
def descend (host : Host) : HostPath → List String → Option HostPath
  | directory, [] => some directory
  | directory, name :: rest =>
    match host.enter directory name with
    | none => none
    | some inner => descend host inner rest

/-- The host directory to which these names lead from the base, if the base is a directory. -/
def resolve (host : Host) (base : HostPath) (names : List String) : Option HostPath :=
  if host.isDirectory base then host.descend base names else none

end HostDrive.Host

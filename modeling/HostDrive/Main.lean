import HostDrive.CommandLine.Response

/-!
# The Program

The command line on a real host. What the program needs to know of the host is looked up first and
put into a file tree: the file with settings, the directory to be served, and inside it the
directories on the way that the command names. All the rest is decided on that tree.

Permission bits cannot be asked for, so no file counts as read-only here, and no time zone, so times
are shown in UTC.
-/

namespace HostDrive.Main

/-! ## Looking at the host -/

/-- A tree with directories along an absolute path, and the place to which it leads. -/
def withDirectories (tree : FileTree) (path : String) : FileTree × List FileName :=
  (Text.runs HostPath.isSlash path.toList).foldl
    (fun (tree, place) piece =>
      match FileTree.stepOf piece with
      | .stay => (tree, place)
      | .up => (tree, place.dropLast)
      | .into name => (tree.put (place ++ [name]) { kind := .directory }, place ++ [name]))
    (tree, [])

/-- What the host tells about a path, links followed. -/
def metadata? (path : String) : IO (Option IO.FS.Metadata) := do
  match ← ((← IO.currentDir) / path).metadata.toBaseIO with
  | .ok m => return some m
  | .error _ => return none

/-- The names in a directory of the host, if it can be read. -/
def namesIn? (path : String) : IO (Option (List String)) := do
  match ← ((← IO.currentDir) / path).readDir.toBaseIO with
  | .ok found => return some (found.toList.map fun e => e.fileName)
  | .error _ => return none

/-- The node for what the host tells, with no content but a length. All that is no directory is
listed as a file. -/
def nodeOf (m : IO.FS.Metadata) : FileNode :=
  match m.type with
  | .dir => { kind := .directory, modified := m.modified.sec }
  | _ => { kind := .file (.zeros m.byteSize.toNat), modified := m.modified.sec }

/-- Adds members of a directory to a tree, so that they stand there in this order. -/
def addMembers (tree : FileTree) (path : String) (place : List FileName) (names : List String) :
    IO FileTree := do
  let mut tree := tree
  for name in names.reverse do
    if let some m ← metadata? (path ++ "/" ++ name) then
      tree := tree.put (place ++ [Text.utf8 name]) (nodeOf m)
  return tree

/-- Marks a directory of a tree as one that cannot be read. -/
def markUnreadable (tree : FileTree) (place : List FileName) : FileTree :=
  match tree.find? place with
  | some node => tree.put place { node with readable := false }
  | none => tree

/-- Adds the members of a directory to a tree, and inside it those of the directories with these
names, case aside. -/
def addDirectory (tree : FileTree) (path : String) (place : List FileName) (wanted : List String) :
    IO FileTree := do
  match ← namesIn? path with
  | none => return markUnreadable tree place
  | some names =>
    let mut tree ← addMembers tree path place names
    match wanted with
    | [] => return tree
    | first :: rest =>
      for name in names do
        if Text.sameIgnoringCase name first then
          let place := place ++ [Text.utf8 name]
          if tree.isDirectoryAt place then
            tree ← addDirectory tree (path ++ "/" ++ name) place rest
      return tree

/-- Adds what is at a path to a tree: a directory, or a file with its bytes. -/
def addSettings (tree : FileTree) (path : String) : IO FileTree := do
  match (← metadata? path).map nodeOf with
  | some { kind := .file _, .. } =>
    match ← (IO.FS.readBinFile ((← IO.currentDir) / path)).toBaseIO with
    | .ok held =>
      let (tree, place) := withDirectories tree path
      return tree.put place { kind := .file (.bytes held.toList) }
    | .error _ => return tree
  | some _ => return (withDirectories tree path).1
  | none => return tree

/-- The text of the file that names the user's folders, empty if there is none to be read. -/
def userFolders (home : String) : IO String := do
  let folder := (← IO.getEnv "XDG_CONFIG_HOME").getD ""
  let folder : HostPath :=
    if (HostPath.mk folder).isAbsolute then ⟨folder⟩ else (HostPath.mk home).join ".config"
  let file := (folder.join "user-dirs.dirs").text
  match ← (IO.FS.readBinFile ((← IO.currentDir) / file)).toBaseIO with
  | .ok held => return (Text.ofUtf8? held.toList).getD ""
  | .error _ => return ""

def surroundings : IO Surroundings := do
  let home := (← IO.getEnv "HOME").getD ""
  let home := if home.isEmpty then "." else home
  return {
    home
    userFolders := ← userFolders home
    workingDirectory := ⟨toString (← IO.currentDir)⟩ }

/-- The part of the host that a command with options depends on. -/
def treeFor (around : Surroundings) (o : CommandLine.Options) (command : CommandLine.Command) :
    IO FileTree := do
  let mut tree := (withDirectories {} around.workingDirectory.text).1
  if let some path := o.config then
    tree ← addSettings tree (around.workingDirectory.join path).text
  match CommandLine.settingsFor tree around o with
  | .error _ => return tree
  | .ok settings =>
    let base := (settings.basePath around).text
    match (← metadata? base).map nodeOf with
    | some { kind := .directory, .. } =>
      let (above, place) := withDirectories tree base
      addDirectory above base place command.directoryNames
    | _ => return tree

/-! ## Printing -/

/-- Prints a response and returns the code to end with. -/
def print : CommandLine.Response → IO UInt32
  | .finished code output errors => do
    IO.print output
    errors.forM fun line => IO.eprintln line
    return UInt32.ofNat code
  | .unusable => do
    IO.eprint CommandLine.Topic.program.text
    return 2

def run (arguments : List String) : IO UInt32 := do
  let around ← surroundings
  let tree ← match CommandLine.request arguments with
    | .run o command => treeFor around o command
    | _ => pure {}
  print (CommandLine.respond tree.host tree around arguments)

end HostDrive.Main

def main (arguments : List String) : IO UInt32 := HostDrive.Main.run arguments

import HostDrive.Host.Native

/-!
# File Trees

A native host whose directories hold files, directories and symbolic links, each with permission
bits and a time of last modification. Names are byte strings.

## Architecture

- `walk` follows a path through directories and links to the place it means. Every link used counts
  against a limit, so a walk always ends.
- `FileTree.native` is the tree as an operating system presents it, with any wall clock. Links are
  followed, so a link to a directory behaves like the directory, and nothing can be found out about
  one that leads nowhere.
- `FileTree.host` answers the two questions of a host, with a clock that shows UTC.
-/

namespace HostDrive

/-! ## Nodes -/

/-- What a file holds. -/
inductive FileContent where
  | zeros (size : Nat)
  | bytes (data : List UInt8)

def FileContent.size : FileContent → Nat
  | .zeros size => size
  | .bytes data => data.length

def FileContent.data : FileContent → List UInt8
  | .zeros size => List.replicate size 0
  | .bytes data => data

/-- The kinds of nodes. -/
inductive NodeKind where
  | directory
  | file (content : FileContent)
  /-- A link, with the path it stands for. -/
  | link (target : String)

/-- A node with its permission bits and its time of last modification in seconds since 1970. -/
structure FileNode where
  kind : NodeKind
  permissions : Nat := 0o755
  modified : Int := 0
  /-- Whether the members of a directory can be read. -/
  readable : Bool := true

/-- A tree of nodes, each under the names that lead to it from the root. -/
structure FileTree where
  nodes : List (List FileName × FileNode) := []

namespace FileTree

/-! ## Places -/

/-- The node at a place. The root is a directory. -/
def find? (t : FileTree) (place : List FileName) : Option FileNode :=
  if place.isEmpty then some { kind := .directory } else t.nodes.lookup place

/-- Whether there is a directory at a place. -/
def isDirectoryAt (t : FileTree) (place : List FileName) : Bool :=
  match t.find? place with
  | some { kind := .directory, .. } => true
  | _ => false

/-- Makes a directory at a place, given last name first, and at those above it, up to the nearest
node that is there. -/
def addMissing (t : FileTree) : List FileName → FileTree
  | [] => t
  | name :: above =>
    let place := (name :: above).reverse
    if (t.find? place).isSome then t
    else { nodes := (place, { kind := .directory }) :: (t.addMissing above).nodes }

/-- Puts a node at a place, and directories above it where nothing is yet. -/
def put (t : FileTree) (place : List FileName) (node : FileNode) : FileTree :=
  let grown := t.addMissing place.reverse.tail
  { nodes := (place, node) :: grown.nodes.filter fun n => n.1 != place }

/-! ## Walking a path -/

/-- One step of a walk. -/
inductive Step where
  /-- Stay, which only a directory allows. -/
  | stay
  /-- Go to the directory above. -/
  | up
  /-- Go to the node with this name. -/
  | into (name : FileName)

/-- The step that a non-empty piece of a path stands for. -/
def stepOf (piece : List Char) : Step :=
  if piece = ['.'] then .stay
  else if piece = ['.', '.'] then .up
  else .into (piece.flatMap String.utf8EncodeChar)

/-- The steps of a path. A slash at the end asks for a directory. -/
def steps (path : List Char) : List Step :=
  (Text.runs HostPath.isSlash path).map stepOf ++
    if path.getLast? == some '/' then [.stay] else []

/-- The longest name that a directory can hold, in bytes. -/
def longestName : Nat := 255

def longestPath : Nat := 4095

/-- How many links one walk may use. -/
def linkLimit : Nat := 40

/-- The place to which steps lead from a directory, with this many links left to use. -/
def walk (t : FileTree) (links : Nat) (place : List FileName) (path : List Step) :
    Except PathFault (List FileName) :=
  match path with
  | [] => .ok place
  | step :: rest =>
    if !t.isDirectoryAt place then .error .notADirectory
    else match step with
      | .stay => walk t links place rest
      | .up => walk t links place.dropLast rest
      | .into name =>
        if longestName < name.length then .error .nameTooLong
        else match t.find? (place ++ [name]) with
          | none => .error .notFound
          | some { kind := .link target, .. } =>
            match links with
            | 0 => .error .tooManyLinks
            | left + 1 =>
              let start := if target.toList.head? == some '/' then [] else place
              walk t left start (steps target.toList ++ rest)
          | some _ => walk t links (place ++ [name]) rest
termination_by (links, path.length)

/-- The place that a path means, counted from the root. -/
def locate (t : FileTree) (path : HostPath) : Except PathFault (List FileName) :=
  if path.text.toList.contains '\x00' then .error .invalidInput
  else if path.text.isEmpty then .error .notFound
  else if longestPath < path.text.utf8ByteSize then .error .nameTooLong
  else t.walk linkLimit [] (steps path.text.toList)

/-! ## Reading -/

def readText (t : FileTree) (path : HostPath) : Except PathFault String := do
  let place ← t.locate path
  match t.find? place with
  | some { kind := .file content, .. } =>
    match Text.ofUtf8? content.data with
    | some text => .ok text
    | none => .error .invalidText
  | some { kind := .directory, .. } => .error .isADirectory
  | _ => .error .notFound

/-- What is told about a node; a link has nothing of its own. A file or directory that nobody may
write is read-only. -/
def metadataOf? (node : FileNode) : Option Metadata :=
  let metadata (isDirectory : Bool) (length : Nat) : Metadata :=
    { isDirectory, length, readOnly := node.permissions &&& 0o222 == 0, modified? := node.modified }
  match node.kind with
  | .directory => some (metadata true 0)
  | .file content => some (metadata false content.size)
  | .link _ => none

/-- A clock that shows UTC, and every time. -/
def utc : WallClock := fun seconds => some (.ofMoment seconds)

/-- The entry for a node under a name. -/
def entryOf? (name : String) (node : FileNode) : Option Entry :=
  (metadataOf? node).bind fun metadata => metadata.entry? utc name

/-- The member with a name in the directory to which a path leads, after following links. The path
is walked anew, so the links on it count for each member too. -/
def member (t : FileTree) (path : HostPath) (name : FileName) : Member where
  name := name
  metadata? := do
    let text ← Text.ofUtf8? name
    match t.locate (path.join text) with
    | .ok place => (t.find? place).bind metadataOf?
    | .error _ => none

/-- The names in a directory, in the order of the tree. -/
def namesAt (t : FileTree) (place : List FileName) : List FileName :=
  t.nodes.filterMap fun n => if n.1.dropLast == place then n.1.getLast? else none

/-! ## As a host -/

/-- Whether a path leads to a directory. -/
def isDirectory (t : FileTree) (path : HostPath) : Bool :=
  match t.locate path with
  | .ok place => t.isDirectoryAt place
  | .error _ => false

/-- The members of the directory to which a path leads. -/
def members (t : FileTree) (path : HostPath) :
    Except PathFault (List (Except PathFault Member)) := do
  let place ← t.locate path
  match t.find? place with
  | some { kind := .directory, readable, .. } =>
    if readable then .ok ((t.namesAt place).map fun name => .ok (t.member path name))
    else .error .unreadable
  | _ => .error .notADirectory

/-- The tree as an operating system with this clock presents it. -/
def native (t : FileTree) (clock : WallClock) : NativeHost where
  isDirectory := t.isDirectory
  members := t.members
  clock := clock

def host (t : FileTree) : Host := (t.native utc).host

end FileTree

end HostDrive

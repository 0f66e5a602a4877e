import HostDrive.Host.Basic

/-!
# Catalogues

A host kept in memory: a root path and an entry for each path below it. Paths are compared by their
components.

- Adding a node makes the directories above it that are missing, and replaces what was there.
- Removing a path removes everything below it as well.
- A listing has the direct members of a directory in the byte order of their names.
-/

namespace HostDrive

/-- A host in memory. -/
structure Catalog where
  /-- The directory that is always there. -/
  root : HostPath
  /-- The nodes by their components, each path at most once. -/
  nodes : List (List HostPath.Component × Entry) := []

namespace Catalog

open HostPath (Component)

/-! ## Looking up -/

def find? (c : Catalog) (key : List Component) : Option Entry := c.nodes.lookup key

/-- Whether these components lead to the root or to a node that is a directory. -/
def isDirectoryAt (c : Catalog) (key : List Component) : Bool :=
  key == c.root.components ||
    match c.find? key with
    | some e => e.isDirectory
    | none => false

/-- The nodes directly below these components, in the byte order of their names. -/
def children (c : Catalog) (key : List Component) : List Entry :=
  let below := c.nodes.filterMap fun n => if n.1.dropLast == key then some n.2 else none
  below.mergeSort fun a b => Text.utf8 a.name ≤ Text.utf8 b.name

/-! ## Changing -/

def put (c : Catalog) (key : List Component) (e : Entry) : Catalog :=
  { c with nodes := (key, e) :: c.nodes.filter fun n => n.1 != key }

/-- Makes a directory of these components, given last first, and of those above them, up to the
nearest directory. Components outside the root are left alone. -/
def addMissing (c : Catalog) : List Component → Catalog
  | .name n :: above =>
    let key := (Component.name n :: above).reverse
    if key == c.root.components || !c.root.components.isPrefixOf key || c.isDirectoryAt key then c
    else (addMissing c above).put key (Entry.directory n {})
  | _ => c

/-- Adds a node whose entry depends on its name. A path that does not end in a name adds
nothing. -/
def insert (c : Catalog) (path : HostPath) (entry : String → Entry) : Catalog :=
  match path.components.reverse with
  | .name n :: above => (c.addMissing above).put path.components (entry n)
  | _ => c

def addDirectory (c : Catalog) (path : HostPath) : Catalog :=
  c.insert path fun n => Entry.directory n {}

def addFile (c : Catalog) (path : HostPath) (size : Nat) (modified : Timestamp) : Catalog :=
  c.insert path fun n => Entry.file n size modified

/-- Overwrites the attribute byte of a node that exists. -/
def setAttributes (c : Catalog) (path : HostPath) (attributes : UInt8) : Catalog :=
  let key := path.components
  { c with nodes := c.nodes.map fun n =>
      if n.1 == key then (n.1, { n.2 with attributes := attributes }) else n }

/-- Removes a node and all nodes below it. -/
def remove (c : Catalog) (path : HostPath) : Catalog :=
  let key := path.components
  { c with nodes := c.nodes.filter fun n => !key.isPrefixOf n.1 }

/-! ## As a host -/

/-- Whether a path is a directory of the catalogue. -/
def isDirectory (c : Catalog) (path : HostPath) : Bool := c.isDirectoryAt path.components

/-- The members of a directory of the catalogue. -/
def list (c : Catalog) (path : HostPath) : Except ListingError (List Entry) :=
  if c.isDirectory path then .ok (c.children path.components) else .error (.noDirectory path)

def host (c : Catalog) : Host := ⟨c.isDirectory, c.list⟩

end Catalog

end HostDrive

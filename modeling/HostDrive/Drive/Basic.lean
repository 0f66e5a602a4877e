import HostDrive.Drive.EntryPoint
import HostDrive.Drive.Reply
import HostDrive.GuestPath
import HostDrive.Host.Resolve
import HostDrive.InfoBlock
import HostDrive.SearchTable
import HostDrive.ShortName
import HostDrive.Wildcard

/-!
# The Drive

A directory of the host, served to a guest as a drive. Each routine reads its arguments from
registers and memory, asks the host, and answers with a reply:

| Routine         | Arguments                          | On success                     |
|-----------------|------------------------------------|--------------------------------|
| `alloc`         | none                               | HL = 0, DE = 0, C = 1          |
| `findFirst`     | IY: search text, IX: block         | first entry in the block       |
| `findNext`      | IX: block of an earlier search     | the entry after it             |
| `changeDir`     | HL: path                           | it is the current directory    |
| `getCurrentDir` | DE: buffer                         | the current directory          |
| `getVolume`     | DE: buffer                         | the volume label               |

Paths always start at the base directory; the current directory is kept for the guest, which asks
for it, and plays no part in following a path.
-/

namespace HostDrive

/-- Longest search text or path that a routine reads. -/
def longestGuestPath : Nat := 63

/-- State of the drive. -/
structure Drive where
  /-- The host directory that is the root of the drive. -/
  base : HostPath
  label : String
  /-- Names that lead to the current directory, as the guest spelled them. -/
  directory : List String
  /-- The current directory on the host. -/
  hostDirectory : HostPath
  searches : SearchTable

namespace Drive

/-- A drive whose current directory is its root. -/
def new (base : HostPath) (label : String) : Drive where
  base := base
  label := label
  directory := []
  hostDirectory := base
  searches := {}

/-- The current directory as the guest is told. -/
def currentDirectory (d : Drive) : String := GuestPath.spelling d.directory

/-! ## Searching -/

/-- The entries that a search finds in a listing: short names that match the pattern, sorted without
regard to case. Entries that sort alike stay in the order of the listing. -/
def selection (pattern : String) (listing : List Entry) : List Entry :=
  (listing.filter fun e => ShortName.isLegal e.name && Wildcard.isMatch pattern e.name).mergeSort
    fun e f => e.sortKey ≤ f.sortKey

/-- The block of a search in the guest's memory. -/
def blockAt (view : Guest.View) (address : UInt16) : InfoBlock :=
  ⟨Guest.readBlock view address InfoBlock.length⟩

/-- Hands over the entry at a position of the search that a block belongs to. -/
def present (d : Drive) (address : UInt16) (block : InfoBlock) (index : UInt16) : Reply :=
  match d.searches.entry? block.serial index.toNat with
  | some e => .store address ((block.fill e.record).setIndex index).bytes
  | none => .noFile

/-- What a search text asks for: the listing of its directory, and the pattern. -/
def lookUp (host : Host) (d : Drive) (search : GuestPath.Search) : Option (List Entry) :=
  match host.resolve d.base (GuestPath.components search.directory) with
  | none => none
  | some directory =>
    match host.list directory with
    | .ok listing => some listing
    | .error _ => none

/-- Starts a search, which replaces the one that had its slot. -/
def findFirst (host : Host) (d : Drive) (r : CallRegisters) (view : Guest.View) : Drive × Reply :=
  let search := GuestPath.searchPath (Guest.readText view r.iy longestGuestPath)
  let block := blockAt view r.ix
  match d.lookUp host search with
  | none => (d, .noDirectory)
  | some listing =>
    -- a search that finds nothing takes its slot too
    let found := (selection search.pattern listing).toArray
    let d := { d with searches := d.searches.insert block.serial found }
    (d, d.present r.ix block 0)

/-- The position after a position, if sixteen bits can hold it. -/
def nextIndex? (index : UInt16) : Option UInt16 :=
  if index = 0xFFFF then none else some (index + 1)

/-- Goes on with a search, from the entry that its block holds. -/
def findNext (d : Drive) (r : CallRegisters) (view : Guest.View) : Reply :=
  let block := blockAt view r.ix
  match nextIndex? block.index with
  | some index => d.present r.ix block index
  | none => .noFile

/-! ## Directories and label -/

def changeDirectory (host : Host) (d : Drive) (r : CallRegisters) (view : Guest.View) :
    Drive × Reply :=
  let names := GuestPath.components (Guest.readText view r.hl longestGuestPath)
  match host.resolve d.base names with
  | some directory => ({ d with directory := names, hostDirectory := directory }, .accept)
  | none => (d, .noDirectory)

/-! ## Calls -/

def answer (host : Host) (d : Drive) (entry : EntryPoint) (r : CallRegisters)
    (view : Guest.View) : Drive × Reply :=
  match entry with
  | .alloc => (d, .grant)
  | .findFirst => d.findFirst host r view
  | .findNext => (d, d.findNext r view)
  | .changeDir => d.changeDirectory host r view
  | .getCurrentDir => (d, .store r.de (Guest.plainText d.currentDirectory))
  | .getVolume => (d, .store r.de (Guest.plainText d.label))

def call {γ : Type} [Guest γ] (host : Host) (d : Drive) (entry : EntryPoint) (guest : γ) :
    Drive × Status × γ :=
  let answered := d.answer host entry (Guest.registers guest) (Guest.peek guest)
  (answered.1, answered.2.status, answered.2.deliver guest)

end Drive

end HostDrive

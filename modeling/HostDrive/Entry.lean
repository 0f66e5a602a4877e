import HostDrive.Text.Ascii
import HostDrive.Timestamp

/-!
# Directory Entries

A host directory lists **entries**; the guest sees a **record** of each. A record shows only the
attribute bits that the guest knows, and a directory in it has no size.
-/

namespace HostDrive

/-! ## Attribute bits -/

namespace Attribute

def readOnly : UInt8 := 0x01

/-- The file is left out of ordinary listings. -/
def hidden : UInt8 := 0x02

def system : UInt8 := 0x04

def directory : UInt8 := 0x10

/-- The file was changed since it was last saved elsewhere. -/
def archive : UInt8 := 0x20

/-- The bits that the guest may see: all of the above. -/
def visible : UInt8 := 0x37

/-- Whether an attribute byte has this bit. -/
def has (attributes bit : UInt8) : Bool := attributes &&& bit != 0

end Attribute

/-! ## Entries and records -/

/-- What a host directory tells about one of its members. -/
structure Entry where
  name : String
  /-- Length in bytes, as far as the guest can store it. -/
  size : UInt32
  attributes : UInt8
  modified : Timestamp
  deriving DecidableEq, Repr

/-- What the guest sees of an entry. -/
structure Record where
  name : String
  size : UInt32
  attributes : UInt8
  modified : Timestamp
  deriving DecidableEq, Repr

namespace Entry

/-- The greatest size that the guest can store. -/
def largestSize : Nat := 0xFFFFFFFF

/-- A regular file. A size that the guest cannot store counts as the greatest that it can. -/
def file (name : String) (size : Nat) (modified : Timestamp) : Entry where
  name := name
  size := UInt32.ofNat (min size largestSize)
  attributes := Attribute.archive
  modified := modified

def directory (name : String) (modified : Timestamp) : Entry where
  name := name
  size := 0
  attributes := Attribute.directory
  modified := modified

/-- Whether the attribute byte marks the entry as a directory. -/
def isDirectory (e : Entry) : Bool := Attribute.has e.attributes Attribute.directory

/-- What the guest sees of this entry. -/
def record (e : Entry) : Record where
  name := e.name
  size := if e.isDirectory then 0 else e.size
  attributes := e.attributes &&& Attribute.visible
  modified := e.modified

/-- The key by which entries are sorted: the bytes of the name in upper case. -/
def sortKey (e : Entry) : List UInt8 := Text.upperBytes e.name

end Entry

end HostDrive

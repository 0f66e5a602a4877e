import HostDrive.Bytes
import HostDrive.Entry

/-!
# File Information Blocks

The block of 64 bytes in which a guest receives one entry of a search, and by which it asks for
the next. The driver owns only some of its bytes:

| Bytes | Content |
|-------|---------|
| 1–13  | name in upper case, ended by a zero byte |
| 14    | attributes |
| 15–18 | packed time and date |
| 21–24 | size |
| 26–27 | position of the entry in its search |
| 28–29 | serial number that the guest gave to the search |

Every setter replaces one field and keeps all other bytes, whatever the block holds there.
-/

namespace HostDrive

/-- The bytes of a file information block, 64 or more. -/
structure InfoBlock where
  bytes : List UInt8
  deriving DecidableEq, Repr

namespace InfoBlock

def length : Nat := 64

/-- Length of the name field, with its zero byte. -/
def nameLength : Nat := 13

/-! ## Offsets -/

def nameAt : Nat := 1

def attributesAt : Nat := 14

def stampAt : Nat := 15

def sizeAt : Nat := 21

/-- Offset of the position in the search. -/
def indexAt : Nat := 26

def serialAt : Nat := 28

/-! ## Reading fields -/

def wordAt (offset : Nat) (b : InfoBlock) : UInt16 :=
  UInt16.ofNat (Bytes.toNat (Bytes.field offset 2 b.bytes))

/-- The name up to its zero byte, read as Latin-1. -/
def name (b : InfoBlock) : String :=
  Text.latin1 ((Bytes.field nameAt nameLength b.bytes).takeWhile (· != 0))

def attributes (b : InfoBlock) : UInt8 := b.bytes.getD attributesAt 0

def modified (b : InfoBlock) : Timestamp :=
  (PackedStamp.ofBytes (Bytes.field stampAt 4 b.bytes)).unpack

def size (b : InfoBlock) : UInt32 := UInt32.ofNat (Bytes.toNat (Bytes.field sizeAt 4 b.bytes))

/-- The position of the entry in its search. -/
def index (b : InfoBlock) : UInt16 := b.wordAt indexAt

def serial (b : InfoBlock) : UInt16 := b.wordAt serialAt

def record (b : InfoBlock) : Record where
  name := b.name
  size := b.size
  attributes := b.attributes
  modified := b.modified

/-! ## Writing fields -/

/-- A block with the bytes at an offset replaced. -/
def put (offset : Nat) (patch : List UInt8) (b : InfoBlock) : InfoBlock :=
  ⟨Bytes.splice offset patch b.bytes⟩

/-- The name field for a name: its first twelve bytes in upper case, then zero bytes. -/
def nameField (name : String) : List UInt8 :=
  let shown := (Text.upperBytes name).take (nameLength - 1)
  shown ++ List.replicate (nameLength - shown.length) 0

def setName (name : String) (b : InfoBlock) : InfoBlock := b.put nameAt (nameField name)

/-- Sets the attributes, as far as the guest may see them. -/
def setAttributes (attributes : UInt8) (b : InfoBlock) : InfoBlock :=
  b.put attributesAt [attributes &&& Attribute.visible]

def setModified (t : Timestamp) (b : InfoBlock) : InfoBlock := b.put stampAt t.pack.bytes

def setSize (size : UInt32) (b : InfoBlock) : InfoBlock :=
  b.put sizeAt (Bytes.ofNat 4 size.toNat)

def setIndex (index : UInt16) (b : InfoBlock) : InfoBlock :=
  b.put indexAt (Bytes.ofNat 2 index.toNat)

/-- Sets the serial number of the search. -/
def setSerial (serial : UInt16) (b : InfoBlock) : InfoBlock :=
  b.put serialAt (Bytes.ofNat 2 serial.toNat)

/-- Sets all entry fields. A directory gets size 0. -/
def fill (r : Record) (b : InfoBlock) : InfoBlock :=
  (((b.setName r.name).setAttributes r.attributes).setModified r.modified).setSize
    (if Attribute.has r.attributes Attribute.directory then 0 else r.size)

end InfoBlock

end HostDrive

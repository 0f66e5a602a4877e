/-!
# Entry Points

The six routines of the driver module. Its jump table starts behind the signature, and each routine
has three bytes in it.
-/

namespace HostDrive

/-- A routine of the driver. -/
inductive EntryPoint where
  /-- Asks whether there is room. -/
  | alloc
  | findFirst
  /-- Goes on with a search. -/
  | findNext
  /-- Makes another directory the current one. -/
  | changeDir
  /-- Asks for the current directory. -/
  | getCurrentDir
  /-- Asks for the volume label. -/
  | getVolume
  deriving DecidableEq, Repr

namespace EntryPoint

/-- All routines, in the order of the jump table. -/
def all : List EntryPoint :=
  [alloc, findFirst, findNext, changeDir, getCurrentDir, getVolume]

def address : EntryPoint → UInt16
  | alloc => 0x4020
  | findFirst => 0x4023
  | findNext => 0x4026
  | changeDir => 0x4029
  | getCurrentDir => 0x402C
  | getVolume => 0x402F

def ofAddress? (a : UInt16) : Option EntryPoint := all.find? fun entry => entry.address == a

end EntryPoint

end HostDrive

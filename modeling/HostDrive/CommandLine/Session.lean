import HostDrive.CommandLine.Arguments
import HostDrive.InfoBlock
import HostDrive.Machine.Run

/-!
# Sessions

A command is carried out the way a guest would do it: on a machine with the driver module in a
segment, by small programs that call its entry points. Arguments and answers go through three
buffers in the machine's last page.
-/

namespace HostDrive.CommandLine

/-! ## The machine -/

/-- Segment of the driver module, which page 1 shows after a reset. -/
def driverSegment : UInt8 := 2

def blockAddress : UInt16 := 0xC000

def pathAddress : UInt16 := 0xC100

def answerAddress : UInt16 := 0xC200

/-- How many characters of an answer are read. -/
def answerLimit : Nat := longestGuestPath + 1

/-- A machine that serves a drive, with the driver module in place. -/
def machineFor (drive : Drive) : Except SetupError Machine :=
  ((Machine.new Machine.usualSegments).attach { drive := drive }).installDriver driverSegment

/-- The machine after a call. One that keeps the drive busy without end leaves it as it was. -/
def callEntry (host : Host) (m : Machine) (entry : EntryPoint)
    (arguments : List (ArgumentPair × UInt16)) : Machine :=
  match m.callEntry? host entry arguments with
  | some (called, _) => called
  | none => m

/-- The status that a call left in `A`. A byte that is no status counts as a missing file. -/
def statusOf (m : Machine) : Status := (Status.ofCode? m.board.cpu.a).getD .noFile

/-- The part of a path that the driver reads. -/
def truncated (path : String) : String := String.ofList (path.toList.take longestGuestPath)

/-- The text that the driver reads when a path was written for it: bytes outside ASCII are question
marks, and what is too long is cut off. -/
def heard (path : String) : String :=
  Text.latin1 (((Text.utf8 path).map Text.plainByte).take longestGuestPath)

/-- The names of the directory that a command asks the driver for. -/
def Command.directoryNames : Command → List String
  | .dir pattern? =>
    let search := GuestPath.searchPath (heard (pattern?.getD ""))
    GuestPath.components search.directory
  | .vol => []
  | .cd path => GuestPath.components (heard path)

def answerText (m : Machine) : String := m.readText answerAddress answerLimit

/-! ## Commands -/

/-- What a command found out. -/
inductive Report where
  | entries (found : List Record)
  | text (s : String)
  /-- The guest was told that the call failed. -/
  | failed (status : Status)
  deriving DecidableEq, Repr

def foundEntry (m : Machine) : Record :=
  (InfoBlock.mk (m.readBlock blockAddress InfoBlock.length)).record

/-- Most entries that one search can return, as positions have sixteen bits. -/
def mostEntries : Nat := 65536

/-- Goes through a search from where it stands, and returns the status that ended it. -/
def collect (host : Host) : Nat → Machine → Array Record → Array Record × Status
  | 0, m, found => (found, statusOf m)
  | left + 1, m, found =>
    if statusOf m = .ok then
      let entry := foundEntry m
      let m := callEntry host m .findNext [(.ix, blockAddress)]
      collect host left m (found.push entry)
    else (found, statusOf m)

/-- The pattern that stands for all entries. -/
def allEntries : String := "*.*"

/-- Lists the entries that match a pattern. -/
def listEntries (host : Host) (m : Machine) (pattern : String) : Report :=
  let m := m.load blockAddress (List.replicate InfoBlock.length 0)
  let m := m.writeText pathAddress (truncated pattern)
  let m := callEntry host m .findFirst [(.ix, blockAddress), (.iy, pathAddress)]
  let (found, status) := collect host mostEntries m #[]
  if found.isEmpty then .failed status else .entries found.toList

def askLabel (host : Host) (m : Machine) : Report :=
  .text (answerText (callEntry host m .getVolume [(.de, answerAddress)]))

/-- Changes the current directory, and asks for it. -/
def changeDirectory (host : Host) (m : Machine) (path : String) : Report :=
  let m := m.writeText pathAddress (truncated path)
  let m := callEntry host m .changeDir [(.hl, pathAddress)]
  let status := statusOf m
  if status = .ok then
    .text ("\\" ++ answerText (callEntry host m .getCurrentDir [(.de, answerAddress)]))
  else .failed status

def perform (host : Host) (m : Machine) : Command → Report
  | .dir pattern? => listEntries host m (pattern?.getD allEntries)
  | .vol => askLabel host m
  | .cd path => changeDirectory host m path

end HostDrive.CommandLine

import HostDrive.Calendar
import HostDrive.Host.Basic

/-!
# Native Hosts

A host as its operating system presents it. Directories are read member by member, in whatever order
they come; names are bytes, and times are seconds. On the way to a listing three things can happen:

- reading fails, at the start or at a member, and so the listing fails;
- a member has a name that is no text, or nothing can be found out about it, and so it is left out;
- a time cannot be shown on the wall clock, and so there is no listing at all: the program ends.

Which wall clock there is depends on the place of the host, so it is left open.
-/

namespace HostDrive

/-- A name as an operating system keeps it. -/
abbrev FileName := List UInt8

/-- A wall clock: what it shows so many seconds after the start of 1970, if it can show that. -/
abbrev WallClock := Int → Option Calendar.CivilTime

/-! ## Members of a directory -/

/-- What the operating system tells about a file or a directory. All that is no directory counts as
a file. -/
structure Metadata where
  isDirectory : Bool
  length : Nat
  readOnly : Bool
  /-- Seconds from the start of 1970 to the last modification, if the host keeps such times. -/
  modified? : Option Int

namespace Metadata

def entry (metadata : Metadata) (name : String) (modified : Timestamp) : Entry :=
  let e :=
    if metadata.isDirectory then Entry.directory name modified
    else Entry.file name metadata.length modified
  if metadata.readOnly then { e with attributes := e.attributes ||| Attribute.readOnly } else e

/-- The entry under a name; none if the clock cannot show its time. -/
def entry? (clock : WallClock) (metadata : Metadata) (name : String) : Option Entry :=
  match metadata.modified? with
  | some seconds => (clock seconds).map fun time => metadata.entry name time.stamp
  | none => some (metadata.entry name {})

end Metadata

/-- A member of a directory as it is read. -/
structure Member where
  name : FileName
  /-- What stands behind the name, links followed, if that can be found out. -/
  metadata? : Option Metadata

/-! ## Hosts -/

/-- What an operating system answers. -/
structure NativeHost where
  isDirectory : HostPath → Bool
  /-- The members of a directory, without `.` and `..`, as far as they can be read. -/
  members : HostPath → Except PathFault (List (Except PathFault Member))
  clock : WallClock

namespace NativeHost

/-- The entries for members that are read in turn, or the failure of the first that cannot be read;
none if a time cannot be shown before that. -/
def entries? (clock : WallClock) :
    List (Except PathFault Member) → Option (Except ListingError (List Entry))
  | [] => some (.ok [])
  | .error fault :: _ => some (.error (.fault fault))
  | .ok { name, metadata? } :: rest =>
    match Text.ofUtf8? name, metadata? with
    | some name, some metadata =>
      match metadata.entry? clock name with
      | some e => (entries? clock rest).map fun listing => listing.map (e :: ·)
      | none => none
    | _, _ => entries? clock rest

/-- The listing of a directory; none if a time in it cannot be shown. -/
def list? (native : NativeHost) (path : HostPath) : Option (Except ListingError (List Entry)) :=
  match native.members path with
  | .error fault => some (.error (.fault fault))
  | .ok members => entries? native.clock members

/-- The host that a native one answers as, as far as listings come back. -/
def host (native : NativeHost) : Host where
  isDirectory := native.isDirectory
  list path := (native.list? path).getD (.error (.fault .unreadable))

end NativeHost

end HostDrive

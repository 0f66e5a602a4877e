import HostDrive.Entry
import HostDrive.HostPath

/-!
# Hosts

All that the drive asks of a host are two questions about paths: is this a directory, and what
does it list? A `Host` is the pair of answers; where they come from is left to the modules that
build one.
-/

namespace HostDrive

/-! ## Failures -/

/-- Why a path could not be used. -/
inductive PathFault where
  | notFound
  /-- A component before the end, or the whole path, is no directory. -/
  | notADirectory
  /-- A directory was met where a file was wanted. -/
  | isADirectory
  /-- Too many symbolic links on the way. -/
  | tooManyLinks
  /-- A component, or the whole path, is too long. -/
  | nameTooLong
  /-- The path has a zero character in it. -/
  | invalidInput
  /-- The file is no text in UTF-8. -/
  | invalidText
  /-- The host refused to answer. -/
  | unreadable
  deriving DecidableEq, Repr

/-- Why a listing failed. -/
inductive ListingError where
  /-- The path has no directory behind it. -/
  | noDirectory (path : HostPath)
  /-- The host could not follow the path or read what is there. -/
  | fault (reason : PathFault)
  deriving DecidableEq, Repr

def ListingError.message : ListingError → String
  | .noDirectory path => "not a directory: " ++ path.text
  | .fault _ => "directory cannot be read"

/-! ## The two questions -/

/-- A host as the drive sees it. -/
structure Host where
  /-- Whether a path exists and is a directory. -/
  isDirectory : HostPath → Bool
  /-- The members of a directory, without `.` and `..`. -/
  list : HostPath → Except ListingError (List Entry)

namespace Host

/-- The same host, except that these directories cannot be listed. -/
def withUnreadable (host : Host) (unreadable : List HostPath) : Host where
  isDirectory := host.isDirectory
  list := fun path =>
    if unreadable.any (HostPath.same path) then .error (.fault .unreadable) else host.list path

/-- Everything below a directory as relative paths, each directory with a slash behind it and
followed by what is in it. Descends at most `depth` levels. -/
def outline (host : Host) : Nat → HostPath → String → List String
  | 0, _, _ => []
  | depth + 1, directory, above =>
    match host.list directory with
    | .error _ => []
    | .ok entries => entries.flatMap fun e =>
      let path := directory.join e.name
      if host.isDirectory path then
        (above ++ e.name ++ "/") :: outline host depth path (above ++ e.name ++ "/")
      else [above ++ e.name]

end Host

end HostDrive

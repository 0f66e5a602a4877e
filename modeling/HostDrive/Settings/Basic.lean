import HostDrive.GuestPath
import HostDrive.HostPath
import HostDrive.SetupError
import HostDrive.Settings.UserFolders
import HostDrive.Text.Ascii
import HostDrive.Text.Blank

/-!
# Settings

Which directory is served, and under which volume label.

- A directory may use both slashes, whatever the host uses, and a **placeholder** stands for the
  user's documents folder in it.
- A label has to be one that the guest can show.
-/

namespace HostDrive

/-! ## Settings and their defaults -/

/-- Stands for the user's documents folder in the name of a directory. -/
def documentsPlaceholder : String := "$MyDocuments$"

/-- Longest volume label that the guest can show. -/
def longestLabel : Nat := 11

/-- What the user can choose. -/
structure Settings where
  /-- The directory to be served, as the user spells it. -/
  directory : String := documentsPlaceholder ++ "/NestorMSX/FileSystem"
  label : String := "NestorMSX"
  deriving DecidableEq, Repr

/-- Where the program runs. -/
structure Surroundings where
  home : String
  /-- The text of the file that names the user's folders, empty if there is none. -/
  userFolders : String
  /-- The directory that relative paths start from. -/
  workingDirectory : HostPath

/-- The folder that the placeholder stands for: the documents folder if one is named, or else the
home folder. -/
def Surroundings.documentsFolder (s : Surroundings) : String :=
  match UserFolders.find? ⟨s.home⟩ "DOCUMENTS" s.userFolders with
  | some folder => folder.text
  | none => s.home

namespace Settings

/-! ## Checks -/

/-- A label that the guest can show: ASCII, not empty, and short enough. -/
def isLegalLabel (label : String) : Bool :=
  !label.isEmpty && label.utf8ByteSize ≤ longestLabel && Text.isAscii label

/-- Accepts settings, or tells what is wrong with them. The label is looked at first. -/
def validate (s : Settings) : Except SetupError Unit :=
  if !isLegalLabel s.label then .error (.invalidVolumeLabel s.label)
  else if Text.isBlankText s.directory then .error .emptyDirectory
  else .ok ()

/-! ## The base directory -/

/-- The slash that a path starts with, if its text starts with a separator of either kind. -/
def leadingSlash (text : List Char) : List Char :=
  if text.head?.any GuestPath.isSeparator then ['/'] else []

/-- The names of a path with a slash between them. A single name that ends in a colon is a drive,
which has a slash behind it. -/
def slashed : List (List Char) → List Char
  | [] => []
  | [name] => if name.getLast? == some ':' then name ++ ['/'] else name
  | name :: names => name ++ names.flatMap fun next => '/' :: next

/-- The host path that a text with both kinds of slashes means. -/
def splitPath (text : List Char) : HostPath :=
  ⟨String.ofList (leadingSlash text ++ slashed (Text.runs GuestPath.isSeparator text))⟩

def expanded (around : Surroundings) (s : Settings) : List Char :=
  Text.replaceAll documentsPlaceholder.toList around.documentsFolder.toList s.directory.toList

/-- The absolute path of the directory to be served. -/
def basePath (around : Surroundings) (s : Settings) : HostPath :=
  let path := splitPath (s.expanded around)
  if path.isAbsolute then path else around.workingDirectory.join path.text

end Settings

end HostDrive

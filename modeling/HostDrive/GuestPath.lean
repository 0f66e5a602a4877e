import HostDrive.Text.Pieces

/-!
# Guest Paths

A guest spells a directory as names between separators, with an optional drive in front:

- both slashes separate, and a leading one changes nothing, as every path starts at the root;
- `.` stays and `..` goes one level up, but never above the root;
- a search text ends in a file pattern, which `searchPath` splits off.
-/

namespace HostDrive.GuestPath

/-! ## Names of a directory path -/

def isSeparator (c : Char) : Bool := c == '\\' || c == '/'

/-- A path without the drive designator, a letter and a colon, that it may start with. -/
def withoutDrive : List Char → List Char
  | drive :: ':' :: rest => if drive.isAlpha then rest else drive :: ':' :: rest
  | path => path

/-- Follows one piece of a path. The names of a directory stand in reverse, its own name first, so
that the directory above is the tail. -/
def follow (names : List String) (piece : List Char) : List String :=
  if piece = [] ∨ piece = ['.'] then names
  else if piece = ['.', '.'] then names.tail
  else String.ofList piece :: names

/-- The names that lead from the root to the directory that a path means. -/
def components (path : String) : List String :=
  ((Text.pieces isSeparator (withoutDrive path.toList)).foldl follow []).reverse

/-- The spelling of a directory: its names with a backslash between them. -/
def spelling (names : List String) : String := "\\".intercalate names

/-! ## Search texts -/

/-- A search text taken apart. -/
structure Search where
  /-- Path of the directory to search. -/
  directory : String
  /-- Pattern that the names have to match. -/
  pattern : String
  deriving DecidableEq, Repr

/-- The pattern used when a search names no file. -/
def matchAll : String := "*.*"

/-- Cuts a search text behind its last separator, or else behind a drive designator. -/
def cutSearch (text : List Char) : List Char × List Char :=
  let cut := Text.cutLast isSeparator text
  if cut.1.isEmpty then
    match text with
    | drive :: ':' :: rest => if drive.isAlpha then ([drive, ':'], rest) else ([], text)
    | _ => ([], text)
  else cut

/-- Splits a search text into a directory and a file pattern. A text without a pattern, or one
that ends in `.` or `..`, asks for everything in a directory. -/
def searchPath (text : String) : Search :=
  let cut := cutSearch text.toList
  if cut.2 = [] then ⟨String.ofList cut.1, matchAll⟩
  else if cut.2 = ['.'] ∨ cut.2 = ['.', '.'] then ⟨text, matchAll⟩
  else ⟨String.ofList cut.1, String.ofList cut.2⟩

end HostDrive.GuestPath

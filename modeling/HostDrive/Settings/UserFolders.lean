import HostDrive.HostPath

/-!
# User Folders

A desktop keeps a file that tells where the user's folders are, one assignment to a line, such as
`XDG_DOCUMENTS_DIR="$HOME/Documents"`. Blanks around name and value do not matter.

- A folder stands in double quotes. It starts with a slash, or with `$HOME/` if it is inside the
  home folder, and a backslash in it takes away the meaning of the character behind it.
- The home folder itself cannot be a folder: `$HOME/` alone says that there is none.
- Lines of any other form tell nothing, and the last line that names a folder is the one that
  counts.
-/

namespace HostDrive.UserFolders

/-! ## Parts of a line -/

/-- Name and value of an assignment, cut at the first equals sign. -/
def assignment? (line : List Char) : Option (List Char × List Char) :=
  match line.dropWhile (· != '=') with
  | [] => none
  | _ :: value => some (line.takeWhile (· != '='), value)

/-- The blanks that may stand around a name and around a value. -/
def isBlank (c : Char) : Bool := c == ' ' || c == '\t'

/-- A text without the blanks at both ends. -/
def trimmed (s : List Char) : List Char :=
  ((s.dropWhile isBlank).reverse.dropWhile isBlank).reverse

def unquoted? : List Char → Option (List Char)
  | '\x22' :: rest => if rest.getLast? == some '\x22' then some rest.dropLast else none
  | _ => none

/-- A text whose backslashes are gone, except those behind a backslash. -/
def unescaped : List Char → List Char
  | '\\' :: c :: rest => c :: unescaped rest
  | ['\\'] => []
  | c :: rest => c :: unescaped rest
  | [] => []

/-! ## Folders -/

/-- What a folder inside the home folder starts with. -/
def homeMark : List Char := "$HOME/".toList

/-- The folder that a value between quotes means. -/
def place? (home : HostPath) (value : List Char) : Option HostPath :=
  if homeMark.isPrefixOf value then
    match value.drop homeMark.length with
    | [] => none
    | inside => some (home.join (String.ofList (unescaped inside)))
  else if value.head? == some '/' then some ⟨String.ofList (unescaped value)⟩
  else none

/-- The folder that a line assigns to a name. -/
def ofLine? (home : HostPath) (name : String) (line : List Char) : Option HostPath := do
  let (key, value) ← assignment? line
  if trimmed key = ("XDG_" ++ name ++ "_DIR").toList then
    place? home (← unquoted? (trimmed value))
  else none

/-- The folder with a name, such as `DOCUMENTS`, in the text of a file. -/
def find? (home : HostPath) (name text : String) : Option HostPath :=
  ((Text.pieces (· == '\n') text.toList).filterMap (ofLine? home name)).getLast?

end HostDrive.UserFolders

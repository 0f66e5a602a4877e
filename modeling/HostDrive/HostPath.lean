import HostDrive.Text.Pieces

/-!
# Host Paths

A path on the host is a text, and two readings of it matter:

- the **text** is what messages show, and joining keeps it as written;
- the **components** are what paths are compared by: repeated and trailing slashes and inner dots
  leave no trace there, while `..` is a component like any other.
-/

namespace HostDrive

/-- A path on the host, as written. -/
structure HostPath where
  text : String
  deriving DecidableEq, Repr, Inhabited

namespace HostPath

/-! ## Components -/

/-- One step of a path. -/
inductive Component where
  /-- The slash that an absolute path starts with. -/
  | root
  /-- A dot at the start of a relative path. -/
  | here
  | up
  | name (s : String)
  deriving DecidableEq, Repr

def isSlash (c : Char) : Bool := c == '/'

/-- The component that a non-empty piece stands for; a dot stands for none. -/
def componentOf? (piece : List Char) : Option Component :=
  if piece = ['.'] then none
  else if piece = ['.', '.'] then some .up
  else some (.name (String.ofList piece))

/-- The component that a text starts with besides its names: the root, or a leading dot. -/
def leading : List Char → List Component
  | '/' :: _ => [.root]
  | ['.'] => [.here]
  | '.' :: '/' :: _ => [.here]
  | _ => []

/-- The components of a path, in order. -/
def components (p : HostPath) : List Component :=
  leading p.text.toList ++ (Text.runs isSlash p.text.toList).filterMap componentOf?

/-- Whether two texts name the same path. -/
def same (p q : HostPath) : Bool := p.components == q.components

/-- Whether a path starts at the root. -/
def isAbsolute (p : HostPath) : Bool := p.text.toList.head? == some '/'

/-! ## Joining -/

/-- The text of a path with a slash at its end, unless it is empty or has one. -/
def withSlash (text : List Char) : List Char :=
  if text.getLast? == none || text.getLast? == some '/' then text else text ++ ['/']

/-- A path continued by a text. A text that starts with a slash replaces the path. -/
def join (p : HostPath) (s : String) : HostPath :=
  if s.toList.head? == some '/' then ⟨s⟩
  else ⟨String.ofList (withSlash p.text.toList ++ s.toList)⟩

end HostPath

end HostDrive

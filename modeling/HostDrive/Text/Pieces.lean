/-!
# Cutting Text at Separators

Paths of every kind are cut at separator characters:

- `pieces` keeps the empty pieces between neighbouring separators;
- `runs` keeps only the maximal runs of other characters;
- `cutLast` cuts once, at the last separator.

`replaceAll` is the plain search and replace from left to right.
-/

namespace HostDrive.Text

/-! ## All separators -/

/-- The pieces between separators, empty ones included. There is always at least one. -/
def pieces (isSeparator : Char → Bool) : List Char → List (List Char)
  | [] => [[]]
  | c :: rest =>
    if isSeparator c then [] :: pieces isSeparator rest
    else match pieces isSeparator rest with
      | [] => [[c]]
      | p :: ps => (c :: p) :: ps

/-- The maximal runs of characters that are no separators, in order. -/
def runs (isSeparator : Char → Bool) (s : List Char) : List (List Char) :=
  (pieces isSeparator s).filter fun p => !p.isEmpty

/-! ## The last separator -/

/-- The text up to and including the last separator, and what follows it. Without a separator
the first part is empty. -/
def cutLast (isSeparator : Char → Bool) : List Char → List Char × List Char
  | [] => ([], [])
  | c :: rest =>
    let cut := cutLast isSeparator rest
    if cut.1.isEmpty && !isSeparator c then ([], c :: rest) else (c :: cut.1, cut.2)

/-! ## Replacement -/

/-- Replaces each occurrence of `pattern`, leftmost first and without overlap. `skip` characters
still belong to the occurrence found last and are dropped. -/
def replaceFrom (pattern replacement : List Char) : Nat → List Char → List Char
  | _, [] => []
  | skip + 1, _ :: rest => replaceFrom pattern replacement skip rest
  | 0, c :: rest =>
    if pattern.isPrefixOf (c :: rest) then
      replacement ++ replaceFrom pattern replacement (pattern.length - 1) rest
    else c :: replaceFrom pattern replacement 0 rest

/-- Every occurrence of a non-empty `pattern` replaced. -/
def replaceAll (pattern replacement s : List Char) : List Char :=
  replaceFrom pattern replacement 0 s

end HostDrive.Text

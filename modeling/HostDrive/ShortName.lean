/-!
# Short File Names

The guest's file names: a base of one to eight characters, and after a dot an extension of one to
three. Host files whose name does not have this form stay hidden from the guest; no name is ever
shortened to fit.
-/

namespace HostDrive.ShortName

/-! ## Characters -/

/-- The punctuation that a short name may use. -/
def punctuation : List Char :=
  ['-', '$', '&', '#', '%', '(', ')', '@', '^', '\x7b', '\x7d', '\x27', '\x60', '!']

/-- An ASCII letter, a digit, or punctuation of the list. -/
def isNameChar (c : Char) : Bool := c.isAlphanum || punctuation.contains c

/-! ## Names -/

/-- A part of a name: between one and `longest` characters, all of them allowed. -/
def isPart (longest : Nat) (part : List Char) : Bool :=
  !part.isEmpty && part.length ≤ longest && part.all isNameChar

/-- The grammar of short names on characters: the first dot ends the base. -/
def isLegalChars (name : List Char) : Bool :=
  isPart 8 (name.takeWhile (· != '.')) &&
    match name.dropWhile (· != '.') with
    | [] => true
    | _ :: extension => isPart 3 extension

/-- Whether a host name is a short name, so that the guest may see it. -/
def isLegal (name : String) : Bool := isLegalChars name.toList

end HostDrive.ShortName

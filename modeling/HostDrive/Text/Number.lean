/-!
# Numbers and Columns in Text

Digits in lower-case hexadecimal, decimal numbers with leading zeros, and padding to a column.
-/

namespace HostDrive.Text

/-- Lower-case hexadecimal digit of a number below 16. -/
def hexDigit (n : Nat) : Char := Nat.digitChar n

def hexDigits (n : Nat) : List Char := Nat.toDigits 16 n

/-- Decimal digits with zeros in front up to `width` characters. -/
def zeroPadded (width n : Nat) : String :=
  let digits := Nat.toDigits 10 n
  String.ofList (List.replicate (width - digits.length) '0' ++ digits)

/-- A text followed by blanks up to `width` characters. -/
def padRight (width : Nat) (s : String) : String :=
  String.ofList (s.toList ++ List.replicate (width - s.length) ' ')

/-- A text behind blanks up to `width` characters. -/
def padLeft (width : Nat) (s : String) : String :=
  String.ofList (List.replicate (width - s.length) ' ' ++ s.toList)

end HostDrive.Text

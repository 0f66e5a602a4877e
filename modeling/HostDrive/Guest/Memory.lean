import HostDrive.Bytes
import HostDrive.Text.Ascii

/-!
# Guest Memory

The guest addresses 64K of memory with sixteen bits, and what runs over the top goes on at the
bottom. A reader of memory needs no more than its **view**, the byte at each address:

- a block has a fixed length;
- a text ends before a zero byte, or at a limit, and its bytes outside ASCII read as question marks;
- a word has its low byte first.

A text is written with a zero byte behind it.
-/

namespace HostDrive.Guest

/-- Memory as the guest sees it at one moment. -/
abbrev View := UInt16 → UInt8

/-! ## Reading -/

def readBlock (view : View) (address : UInt16) : Nat → List UInt8
  | 0 => []
  | length + 1 => view address :: readBlock view (address + 1) length

/-- The bytes of a text that starts at an address, at most `limit` of them. -/
def readPlain (view : View) (address : UInt16) : Nat → List UInt8
  | 0 => []
  | limit + 1 =>
    let b := view address
    if b == 0 then [] else Text.plainByte b :: readPlain view (address + 1) limit

/-- The text that starts at an address, at most `limit` characters of it. -/
def readText (view : View) (address : UInt16) (limit : Nat) : String :=
  Text.latin1 (readPlain view address limit)

def readWord (view : View) (address : UInt16) : UInt16 :=
  Bytes.word (view address) (view (address + 1))

/-! ## Texts as bytes -/

/-- The bytes of a text that the guest can show, with a zero byte behind them. -/
def plainText (s : String) : List UInt8 := (Text.utf8 s).map Text.plainByte ++ [0]

/-- The bytes of a text as they are, with a zero byte behind them. -/
def rawText (s : String) : List UInt8 := Text.utf8 s ++ [0]

end HostDrive.Guest

/-!
# Byte Strings

Byte strings are lists. This module holds what every record layout needs:

- numbers as little-endian bytes, and back;
- a **field**: the bytes of a record from an offset on;
- a **splice**: a record with one field replaced, all else kept.
-/

namespace HostDrive.Bytes

/-! ## Little-endian numbers -/

/-- The number whose little-endian bytes these are. -/
def toNat : List UInt8 → Nat
  | [] => 0
  | b :: rest => b.toNat + 256 * toNat rest

/-- The lowest `count` little-endian bytes of a number. -/
def ofNat : Nat → Nat → List UInt8
  | 0, _ => []
  | count + 1, n => UInt8.ofNat n :: ofNat count (n / 256)

/-- The word with this low and this high byte. -/
def word (low high : UInt8) : UInt16 := UInt16.ofNat (low.toNat + 256 * high.toNat)

def low (w : UInt16) : UInt8 := UInt8.ofNat w.toNat

def high (w : UInt16) : UInt8 := UInt8.ofNat (w.toNat / 256)

/-! ## Fields of a record -/

/-- The `length` bytes of a record from offset `start` on. -/
def field (start length : Nat) (record : List UInt8) : List UInt8 :=
  (record.drop start).take length

/-- A record with the bytes from offset `start` on replaced by `patch`. -/
def splice (start : Nat) (patch record : List UInt8) : List UInt8 :=
  record.take start ++ patch ++ record.drop (start + patch.length)

end HostDrive.Bytes

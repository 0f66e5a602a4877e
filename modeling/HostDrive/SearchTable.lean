import HostDrive.Entry

/-!
# Search Table

Finding the first and the next entry are separate calls, so the listing that a search found has to
outlive the call. The guest numbers its searches; the table has four slots, and a serial number uses
the slot that its remainder by four names.

Two searches whose serial numbers collide share a slot: the later one replaces the earlier, and
the earlier then goes on in the newer listing.
-/

namespace HostDrive

/-- The entries that one search found, in the order in which the guest gets them. -/
abbrev Snapshot := Array Entry

/-- How many searches can be under way at once. -/
def searchSlots : Nat := 4

/-- The searches under way. -/
structure SearchTable where
  slots : Vector (Option Snapshot) searchSlots := Vector.replicate searchSlots none

namespace SearchTable

def slotOf (serial : UInt16) : Fin searchSlots :=
  ⟨serial.toNat % searchSlots, Nat.mod_lt _ (by decide)⟩

/-- A table with no search under way. -/
def empty : SearchTable := {}

def get? (t : SearchTable) (serial : UInt16) : Option Snapshot := t.slots[slotOf serial]

/-- Stores a snapshot in the place of whatever used its slot. -/
def insert (t : SearchTable) (serial : UInt16) (found : Snapshot) : SearchTable :=
  ⟨t.slots.set (slotOf serial) (some found)⟩

/-- The entry at a position of the search with this serial number. -/
def entry? (t : SearchTable) (serial : UInt16) (index : Nat) : Option Entry :=
  match t.get? serial with
  -- the snapshot may belong to a later search, which can be shorter
  | some found => found[index]?
  | none => none

end SearchTable

end HostDrive

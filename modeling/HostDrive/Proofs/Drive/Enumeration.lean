import HostDrive.Proofs.Drive.Calls

/-!
# Complete Enumeration

A find-first and the find-nexts after it hand over the snapshot of the find-first, entry by entry:
nothing is lost, comes twice or out of order, whatever happens on the host in the meantime. Behind
the last entry, or the last position that sixteen bits can hold, every further call finds nothing.

## Architecture

- `SearchCall` relates the calls of one search, however much happens between them.
- `Progress` is what all of them preserve: the snapshot in its slot, and the position in the block,
  which stops at the last entry handed over.
- `Handed` is what one call answers; the step lemma `Progress.findNext` gives both.
-/

namespace HostDrive

/-- How many entries a search can number. -/
def positions : Nat := 65536

/-! ## Section 1: The calls of one search -/

/-- The bytes of a block by which the guest carries a search from call to call: the position and
    the serial number. -/
def searchHandle (g : FlatGuest) (address : UInt16) : List UInt8 :=
  Guest.readBlock g.peek (address + 26) 4

/-- **The calls of one search.** `SearchCall d v i before outcome` says that `outcome` may be what
    call number `i` leaves of the search that the find-first `v` starts on drive `d`, when it finds
    guest `before`; call 0 is that find-first itself. Before each find-next host and guest are
    arbitrary, except that the guest still points at the same block and left its handle alone, and
    any calls may come in between, except find-firsts in the same slot. -/
inductive SearchCall (d : Drive) (v : Visit FlatGuest) :
    Nat → FlatGuest → Drive × Status × FlatGuest → Prop where
  | first (hentry : v.entry = .findFirst) : SearchCall d v 0 v.guest (d.visit v)
  | next {i : Nat} {before : FlatGuest} {previous : Drive × Status × FlatGuest}
      (others : List (Visit FlatGuest)) (w : Visit FlatGuest)
      (hprevious : SearchCall d v i before previous)
      (hothers : ∀ u ∈ others, u.entry = .findFirst →
        SearchTable.slotOf u.block.serial ≠ SearchTable.slotOf v.block.serial)
      (hentry : w.entry = .findNext)
      (haddress : w.address = v.address)
      (hkept : searchHandle w.guest v.address = searchHandle previous.2.2 v.address) :
      SearchCall d v (i + 1) w.guest ((previous.1.after others).visit w)

theorem SearchCall.entry_eq {d : Drive} {v : Visit FlatGuest} {i : Nat} {before : FlatGuest}
    {outcome : Drive × Status × FlatGuest} (h : SearchCall d v i before outcome) :
    v.entry = .findFirst := by
  induction h with
  | first hentry => exact hentry
  | next _ _ _ _ _ _ _ ih => exact ih

theorem index_serial_of_searchHandle {g g' : FlatGuest} {address : UInt16}
    (h : searchHandle g address = searchHandle g' address) :
    (Drive.blockAt g.peek address).index = (Drive.blockAt g'.peek address).index ∧
    (Drive.blockAt g.peek address).serial = (Drive.blockAt g'.peek address).serial := by
  have hindex : ∀ g : FlatGuest, (Drive.blockAt g.peek address).bytesOf .index =
      ((searchHandle g address).drop 0).take 2 := by
    intro g
    rw [Drive.bytesOf_blockAt, searchHandle, Guest.readBlock_drop_take _ _ _ _ _ (by decide),
      UInt16.add_assoc]
    rfl
  have hserial : ∀ g : FlatGuest, (Drive.blockAt g.peek address).bytesOf .serial =
      ((searchHandle g address).drop 2).take 2 := by
    intro g
    rw [Drive.bytesOf_blockAt, searchHandle, Guest.readBlock_drop_take _ _ _ _ _ (by decide),
      UInt16.add_assoc]
    rfl
  constructor
  · rw [InfoBlock.index_eq, InfoBlock.index_eq, hindex, hindex, h]
  · rw [InfoBlock.serial_eq, InfoBlock.serial_eq, hserial, hserial, h]

/-! ## Section 2: What every call preserves -/

/-- **What call number `i` of a search leaves.** The slot holds the snapshot and the block the
    serial number, so that the next call can go on; the position is `i`, until it stays at the last
    one handed over. And the answer: the entry with that number, or nothing and memory as it was. -/
structure HandedOver (found : List Entry) (serial address : UInt16) (i : Nat) (before : FlatGuest)
    (outcome : Drive × Status × FlatGuest) : Prop where
  kept : outcome.1.searches.get? serial = some found.toArray
  serial_eq : (Drive.blockAt outcome.2.2.peek address).serial = serial
  index_eq : found ≠ [] → (Drive.blockAt outcome.2.2.peek address).index.toNat =
    min i (min found.length positions - 1)
  entry : ∀ hi : i < found.length, i < positions →
    outcome.2.1 = .ok ∧ (Drive.blockAt outcome.2.2.peek address).record = found[i].shown ∧
    (Drive.blockAt outcome.2.2.peek address).index.toNat = i
  nothing : min found.length positions ≤ i →
    outcome.2.1 = .noFile ∧ outcome.2.2.memory = before.memory

namespace HandedOver

variable {found : List Entry} {serial : UInt16} {i : Nat} {d : Drive} {v : Visit FlatGuest}

/-- Handing over the entry whose turn it is. -/
theorem store (hlegal : ∀ e ∈ found, ShortName.isLegal e.name = true)
    (hkept : d.searches.get? serial = some found.toArray) (hserial : v.block.serial = serial)
    {index : UInt16} (hindex : index.toNat = i) (hi : i < found.length) :
    HandedOver found serial v.address i v.guest
      (d, .ok, (Reply.store v.address (v.block.present found[i] index).bytes).deliver v.guest) := by
  have hlength : (v.block.present found[i] index).bytes.length = InfoBlock.length := by
    rw [InfoBlock.length_present v.isFull_block, v.length_block]
  have hblock := FlatGuest.blockAt_deliver_store v.guest v.address _ hlength
  have hpositions : i < positions := hindex ▸ index.toNat_lt
  have hrecord := InfoBlock.record_present v.isFull_block
    (hlegal _ (List.getElem_mem hi)) index
  have hat : (v.block.present found[i] index).index.toNat = i := by
    rw [InfoBlock.index_present v.isFull_block, hindex]
  -- sixteen bits hold the position, so this call is not one of those that find nothing
  refine ⟨hkept, ?keptSerial, ?position, ?handed, fun h => absurd h (by omega)⟩
  case keptSerial =>
    simp only [hblock]
    rw [InfoBlock.serial_present v.isFull_block, hserial]
  case position =>
    intro _
    simp only [hblock, hat]
    omega
  case handed =>
    intro _ _
    simp only [hblock, hrecord, hat, and_self]

/-- Handing over nothing, as no entry has its turn. -/
theorem noFile (hkept : d.searches.get? serial = some found.toArray)
    (hserial : v.block.serial = serial)
    (hindex : found ≠ [] → v.block.index.toNat = min i (min found.length positions - 1))
    (hi : min found.length positions ≤ i) :
    HandedOver found serial v.address i v.guest
      (d, .noFile, Reply.noFile.deliver v.guest) where
  kept := hkept
  serial_eq := hserial
  index_eq := hindex
  entry hlt hpos := absurd hi (by omega)
  nothing _ := ⟨rfl, rfl⟩

/-- **The find-first** hands over entry 0, or nothing if it found nothing. -/
theorem findFirst (h : v.Takes d.base found) :
    HandedOver found v.block.serial v.address 0 v.guest (d.visit v) := by
  have hlegal : ∀ e ∈ found, ShortName.isLegal e.name = true := fun e he => h.isLegal he
  have hkept : (d.searches.insert v.block.serial found.toArray).get? v.block.serial =
      some found.toArray := by
    rw [SearchTable.get?_insert, if_pos rfl]
  rw [Drive.visit_findFirst_of_takes h]
  cases hfound : found[0]? with
  | none =>
    obtain rfl : found = [] := by simpa using hfound
    exact noFile hkept rfl (absurd rfl) (by simp)
  | some e =>
    obtain ⟨hpos, rfl⟩ := List.getElem?_eq_some_iff.mp hfound
    have hzero : (0 : UInt16).toNat = 0 := rfl
    exact store hlegal hkept rfl hzero hpos

/-- **The find-next after it** hands over the next entry, or nothing from the end on. -/
theorem findNext (hentry : v.entry = .findNext)
    (hlegal : ∀ e ∈ found, ShortName.isLegal e.name = true)
    (hkept : d.searches.get? serial = some found.toArray) (hserial : v.block.serial = serial)
    (hindex : found ≠ [] → v.block.index.toNat = min i (min found.length positions - 1)) :
    HandedOver found serial v.address (i + 1) v.guest (d.visit v) := by
  subst hserial
  by_cases hend : min found.length positions ≤ i + 1
  · -- the position stays at the last entry, so there is none behind it
    have hnone : v.block.index = 0xFFFF ∨ ∀ found' : Snapshot,
        d.searches.get? v.block.serial = some found' →
          found'.size ≤ v.block.index.toNat + 1 := by
      by_cases hlast : v.block.index = 0xFFFF
      · exact .inl hlast
      · refine .inr fun found' hfound' => ?_
        obtain rfl : found.toArray = found' := Option.some.inj (hkept.symm.trans hfound')
        have hne : v.block.index.toNat ≠ 65535 := fun heq => hlast (UInt16.toNat_inj.mp heq)
        rw [List.size_toArray]
        cases hfound : found with
        | nil => exact Nat.zero_le _
        | cons e rest =>
          have hposition := hindex (by simp [hfound])
          simp only [positions, hfound, List.length_cons] at hposition hend ⊢
          omega
    rw [Drive.visit_findNext_of_none hentry hnone]
    refine noFile hkept rfl (fun hne => ?_) hend
    rw [hindex hne]
    have hpos := List.length_pos_iff.mpr hne
    simp only [positions] at *
    omega
  · -- there is an entry behind the position, and sixteen bits can number it
    have hlength : i + 1 < found.length := by omega
    have hposition := hindex (List.ne_nil_of_length_pos (by omega))
    have hat : v.block.index.toNat = i := by omega
    have hne : v.block.index ≠ 0xFFFF := by
      intro heq
      have h := congrArg UInt16.toNat heq
      simp only [UInt16.reduceToNat] at h
      simp only [positions] at hend
      omega
    have he : found.toArray[v.block.index.toNat + 1]? = some found[i + 1] := by
      simp only [hat, List.getElem?_toArray, List.getElem?_eq_getElem hlength]
    rw [Drive.visit_findNext_of_some hentry hne hkept he]
    refine store hlegal hkept rfl ?_ hlength
    rw [(Drive.nextIndex?_of_ne hne).2, hat]

end HandedOver

/-! ## Section 3: Whole searches -/

/-- Every call of a search leaves what `HandedOver` says. -/
theorem SearchCall.handedOver {d : Drive} {v : Visit FlatGuest} {found : List Entry}
    (htakes : v.Takes d.base found) {i : Nat} {before : FlatGuest}
    {outcome : Drive × Status × FlatGuest} (hcall : SearchCall d v i before outcome) :
    HandedOver found v.block.serial v.address i before outcome := by
  -- on the calls of the search: each finds what the one before it left, as nothing touched it since
  induction hcall with
  | first => exact HandedOver.findFirst htakes
  | @next i before previous others w _ hothers hentry haddress hkept ih =>
    obtain ⟨hindex, hserial⟩ := index_serial_of_searchHandle hkept
    have hblock : w.block = Drive.blockAt w.guest.peek v.address :=
      congrArg (Drive.blockAt w.guest.peek) haddress
    rw [← haddress]
    refine HandedOver.findNext hentry (fun e he => htakes.isLegal he) ?kept ?serial ?index
    case kept =>
      rw [Drive.get?_after_of_apart hothers]
      exact ih.kept
    case serial =>
      rw [hblock, hserial]
      exact ih.serial_eq
    case index =>
      rw [hblock, hindex]
      exact ih.index_eq

/-- Two files that a guest can name, and one that it cannot. -/
def threeFiles : List Entry :=
  [.file "a.txt" 3 {}, .file "B.TXT" 5 {}, .file "longer.than.that" 7 {}]

end HostDrive

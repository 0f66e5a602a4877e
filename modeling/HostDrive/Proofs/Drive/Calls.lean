import HostDrive.Proofs.Drive.Selection
import HostDrive.Proofs.Guest.Memory
import HostDrive.Proofs.InfoBlock

/-!
# Calls and Histories of Calls

What a single call does to the searches of a drive, and what a list of calls does. Between two calls
host and guest may change in any way, so a history gives every call a host and a guest of its own.

## Architecture

- `Visit` is a call with the host and the guest that it finds; `Drive.after` runs a history.
- `Visit.Takes` says when a call takes a snapshot, and which.
- `visit_findFirst_of_takes` and `visit_findFirst_of_not_takes` say what a find-first does,
  `visit_findNext_of_some` and `visit_findNext_of_none` what a find-next does; every other call
  leaves the searches alone (`searches_visit_of_ne`).
-/

namespace HostDrive

/-! ## Section 1: Visits -/

/-- A call of the drive, with the host and the guest as they are when it comes. -/
structure Visit (γ : Type) where
  host : Host
  entry : EntryPoint
  guest : γ

namespace Visit

variable {γ : Type} [Guest γ]

/-- Address of the block that a search call works on. -/
def address (v : Visit γ) : UInt16 := (Guest.registers v.guest).ix

/-- The block that `IX` points at. -/
def block (v : Visit γ) : InfoBlock := Drive.blockAt (Guest.peek v.guest) v.address

/-- The search text that `IY` points at, taken apart. -/
def search (v : Visit γ) : GuestPath.Search :=
  GuestPath.searchPath
    (Guest.readText (Guest.peek v.guest) (Guest.registers v.guest).iy longestGuestPath)

/-- **The snapshot of a call.** Only a find-first takes one, and only if its directory resolves and
    can be listed: the wanted entries of the listing in guest order. -/
def Takes (base : HostPath) (v : Visit γ) (found : List Entry) : Prop :=
  v.entry = .findFirst ∧ ∃ directory listing,
    v.host.resolve base (GuestPath.components v.search.directory) = some directory ∧
    v.host.list directory = .ok listing ∧
    InGuestOrder (wanted v.search.pattern listing) found

theorem Takes.unique {base : HostPath} {v : Visit γ} {found found' : List Entry}
    (h : v.Takes base found) (h' : v.Takes base found') : found = found' := by
  obtain ⟨-, directory, listing, hresolve, hlist, horder⟩ := h
  obtain ⟨-, directory', listing', hresolve', hlist', horder'⟩ := h'
  obtain rfl : directory = directory' := Option.some.inj (hresolve.symm.trans hresolve')
  obtain rfl : listing = listing' := Except.ok.inj (hlist.symm.trans hlist')
  exact horder.unique horder'

theorem Takes.isLegal {base : HostPath} {v : Visit γ} {found : List Entry}
    (h : v.Takes base found) {e : Entry} (he : e ∈ found) : ShortName.isLegal e.name = true := by
  obtain ⟨-, _, _, -, -, horder⟩ := h
  exact isLegal_of_mem_wanted (horder.perm.mem_iff.mp he)

theorem length_block (v : Visit γ) : v.block.bytes.length = InfoBlock.length :=
  Guest.length_readBlock _ _ _

theorem isFull_block (v : Visit γ) : v.block.IsFull := Nat.le_of_eq v.length_block.symm

end Visit

/-! ## Section 2: Histories -/

namespace Drive

variable {γ : Type} [Guest γ]

/-- Drive, status and guest after a call. -/
def visit (d : Drive) (v : Visit γ) : Drive × Status × γ := d.call v.host v.entry v.guest

/-- The drive after a history of calls. -/
def after (d : Drive) (history : List (Visit γ)) : Drive :=
  history.foldl (fun d v => (d.visit v).1) d

@[simp] theorem after_nil (d : Drive) : d.after ([] : List (Visit γ)) = d := rfl

@[simp] theorem after_cons (d : Drive) (v : Visit γ) (history : List (Visit γ)) :
    d.after (v :: history) = (d.visit v).1.after history := rfl

end Drive

/-! ## Section 3: The search table -/

namespace SearchTable

/-- A stored snapshot shows in its slot and in no other. -/
theorem slots_insert (t : SearchTable) (serial : UInt16) (found : Snapshot)
    (slot : Fin searchSlots) :
    (t.insert serial found).slots.get slot =
      if slot = slotOf serial then some found else t.slots.get slot := by
  have hget : ∀ slots : Vector (Option Snapshot) searchSlots,
      slots.get slot = slots[slot.val] := fun _ => rfl
  simp only [insert, hget, Vector.getElem_set]
  by_cases h : slot = slotOf serial
  · simp [h]
  · have hne : (slotOf serial).val ≠ slot.val := fun h' => h (Fin.ext h'.symm)
    simp [h, hne]

theorem get?_insert (t : SearchTable) (serial serial' : UInt16) (found : Snapshot) :
    (t.insert serial found).get? serial' =
      if slotOf serial' = slotOf serial then some found else t.get? serial' :=
  slots_insert t serial found (slotOf serial')

theorem entry?_eq (t : SearchTable) (serial : UInt16) (index : Nat) :
    t.entry? serial index = (t.get? serial).bind fun found => found[index]? := by
  unfold entry?
  cases t.get? serial <;> rfl

end SearchTable

/-! ## Section 4: One lemma for each routine -/

namespace Drive

variable {γ : Type} [Guest γ]

theorem present_eq (d : Drive) (address : UInt16) (block : InfoBlock) (index : UInt16) :
    d.present address block index =
      match d.searches.entry? block.serial index.toNat with
      | some e => .store address (block.present e index).bytes
      | none => .noFile := rfl

/-- The answer of a find-first, from the listing that it looks up. -/
theorem visit_findFirst {d : Drive} {v : Visit γ} (hentry : v.entry = .findFirst) :
    d.visit v =
      let answered : Drive × Reply :=
        match d.lookUp v.host v.search with
        | none => (d, .noDirectory)
        | some listing =>
          let found := (selection v.search.pattern listing).toArray
          let d := { d with searches := d.searches.insert v.block.serial found }
          (d, d.present v.address v.block 0)
      (answered.1, answered.2.status, answered.2.deliver v.guest) := by
  unfold visit call
  rw [hentry]
  rfl

theorem lookUp_of_takes {d : Drive} {v : Visit γ} {found : List Entry}
    (h : v.Takes d.base found) :
    ∃ listing, d.lookUp v.host v.search = some listing ∧
      selection v.search.pattern listing = found := by
  obtain ⟨-, directory, listing, hresolve, hlist, horder⟩ := h
  refine ⟨listing, ?_, (inGuestOrder_selection _ _).unique horder⟩
  simp only [lookUp, hresolve, hlist]

theorem takes_of_lookUp {d : Drive} {v : Visit γ} {listing : List Entry}
    (hentry : v.entry = .findFirst) (h : d.lookUp v.host v.search = some listing) :
    v.Takes d.base (selection v.search.pattern listing) := by
  unfold lookUp at h
  split at h
  case h_1 => cases h
  case h_2 directory hresolve =>
    split at h
    case h_1 entries hlist =>
      obtain rfl : entries = listing := Option.some.inj h
      exact ⟨hentry, directory, entries, hresolve, hlist, inGuestOrder_selection _ _⟩
    case h_2 => cases h

/-- A find-first that takes a snapshot puts it in its slot, also an empty one, and hands over the
    first entry. -/
theorem visit_findFirst_of_takes {d : Drive} {v : Visit γ} {found : List Entry}
    (h : v.Takes d.base found) :
    d.visit v =
      let d' := { d with searches := d.searches.insert v.block.serial found.toArray }
      match found[0]? with
      | some e => (d', .ok, (Reply.store v.address (v.block.present e 0).bytes).deliver v.guest)
      | none => (d', .noFile, Reply.noFile.deliver v.guest) := by
  -- the table holds the new snapshot before the first entry is looked up in it
  obtain ⟨listing, hlookUp, hfound⟩ := lookUp_of_takes h
  rw [visit_findFirst h.1]
  simp only [hlookUp, hfound, present_eq, SearchTable.entry?_eq, SearchTable.get?_insert, if_true,
    Option.bind_some, UInt16.reduceToNat, List.getElem?_toArray]
  cases found[0]? <;> rfl

/-- A find-first that takes no snapshot changes nothing in the drive. -/
theorem visit_findFirst_of_not_takes {d : Drive} {v : Visit γ} (hentry : v.entry = .findFirst)
    (h : ∀ found, ¬ v.Takes d.base found) :
    d.visit v = (d, .noDirectory, Reply.noDirectory.deliver v.guest) := by
  have hlookUp : d.lookUp v.host v.search = none := by
    cases hlisting : d.lookUp v.host v.search with
    | none => rfl
    | some listing => exact absurd (takes_of_lookUp hentry hlisting) (h _)
  rw [visit_findFirst hentry]
  simp only [hlookUp]
  rfl

/-- A find-next leaves the drive alone, and hands over the entry behind the one that its block
    names. -/
theorem visit_findNext {d : Drive} {v : Visit γ} (hentry : v.entry = .findNext) :
    d.visit v =
      let reply := match nextIndex? v.block.index with
        | some index => d.present v.address v.block index
        | none => .noFile
      (d, reply.status, reply.deliver v.guest) := by
  unfold visit call
  rw [hentry]
  rfl

theorem nextIndex?_of_ne {index : UInt16} (h : index ≠ 0xFFFF) :
    nextIndex? index = some (index + 1) ∧ (index + 1).toNat = index.toNat + 1 := by
  have hlt := index.toNat_lt
  have hne : index.toNat ≠ 65535 := fun heq => h (UInt16.toNat_inj.mp heq)
  refine ⟨if_neg h, ?_⟩
  rw [UInt16.toNat_add]
  simp only [UInt16.reduceToNat]
  omega

/-- A find-next with an entry left in its snapshot hands that entry over. -/
theorem visit_findNext_of_some {d : Drive} {v : Visit γ} {found : Snapshot} {e : Entry}
    (hentry : v.entry = .findNext) (hindex : v.block.index ≠ 0xFFFF)
    (hget : d.searches.get? v.block.serial = some found)
    (he : found[v.block.index.toNat + 1]? = some e) :
    d.visit v =
      (d, .ok, (Reply.store v.address
        (v.block.present e (v.block.index + 1)).bytes).deliver v.guest) := by
  obtain ⟨hnext, htoNat⟩ := nextIndex?_of_ne hindex
  rw [visit_findNext hentry]
  simp only [hnext, present_eq, SearchTable.entry?_eq, hget, Option.bind_some, htoNat, he]
  rfl

/-- A find-next at the last position of all, at the end of its snapshot or without a snapshot
    finds nothing. -/
theorem visit_findNext_of_none {d : Drive} {v : Visit γ} (hentry : v.entry = .findNext)
    (hnone : v.block.index = 0xFFFF ∨
      ∀ found, d.searches.get? v.block.serial = some found →
        found.size ≤ v.block.index.toNat + 1) :
    d.visit v = (d, .noFile, Reply.noFile.deliver v.guest) := by
  rw [visit_findNext hentry]
  by_cases hindex : v.block.index = 0xFFFF
  · simp only [nextIndex?, if_pos hindex]
    rfl
  · -- the position has a successor, but there is no entry at it
    obtain ⟨hnext, htoNat⟩ := nextIndex?_of_ne hindex
    have hentry? : d.searches.entry? v.block.serial (v.block.index.toNat + 1) = none := by
      rw [SearchTable.entry?_eq]
      cases hget : d.searches.get? v.block.serial with
      | none => rfl
      | some found => exact Array.getElem?_eq_none (hnone.resolve_left hindex found hget)
    simp only [hnext, present_eq, htoNat, hentry?]
    rfl

/-- Only a find-first touches the searches. -/
theorem searches_visit_of_ne {d : Drive} {v : Visit γ} (hentry : v.entry ≠ .findFirst) :
    (d.visit v).1.searches = d.searches := by
  unfold visit call answer
  cases hv : v.entry with
  | findFirst => exact absurd hv hentry
  | alloc | findNext | getCurrentDir | getVolume => rfl
  | changeDir =>
    simp only [changeDirectory]
    split <;> rfl

/-- No call moves the base of the drive or changes its label. -/
theorem base_visit (d : Drive) (v : Visit γ) :
    (d.visit v).1.base = d.base ∧ (d.visit v).1.label = d.label := by
  unfold visit call answer
  cases v.entry with
  | alloc | findNext | getCurrentDir | getVolume => exact ⟨rfl, rfl⟩
  | findFirst =>
    simp only [findFirst]
    split <;> exact ⟨rfl, rfl⟩
  | changeDir =>
    simp only [changeDirectory]
    split <;> exact ⟨rfl, rfl⟩

@[simp] theorem base_after (d : Drive) (history : List (Visit γ)) :
    (d.after history).base = d.base := by
  induction history generalizing d with
  | nil => rfl
  | cons v history ih => rw [after_cons, ih, (d.base_visit v).1]

@[simp] theorem label_after (d : Drive) (history : List (Visit γ)) :
    (d.after history).label = d.label := by
  induction history generalizing d with
  | nil => rfl
  | cons v history ih => rw [after_cons, ih, (d.base_visit v).2]

/-- A call whose find-first belongs to another slot keeps the snapshot of this one. -/
theorem get?_visit_of_apart {d : Drive} {v : Visit γ} {serial : UInt16}
    (h : v.entry = .findFirst →
      SearchTable.slotOf v.block.serial ≠ SearchTable.slotOf serial) :
    (d.visit v).1.searches.get? serial = d.searches.get? serial := by
  by_cases hentry : v.entry = .findFirst
  · rw [visit_findFirst hentry]
    cases d.lookUp v.host v.search with
    | none => rfl
    | some listing => exact (SearchTable.get?_insert ..).trans (if_neg fun heq => h hentry heq.symm)
  · rw [searches_visit_of_ne hentry]

/-- A history without a find-first of this slot keeps its snapshot. -/
theorem get?_after_of_apart {d : Drive} {history : List (Visit γ)} {serial : UInt16}
    (h : ∀ v ∈ history, v.entry = .findFirst →
      SearchTable.slotOf v.block.serial ≠ SearchTable.slotOf serial) :
    (d.after history).searches.get? serial = d.searches.get? serial := by
  induction history generalizing d with
  | nil => rfl
  | cons v history ih =>
    rw [after_cons, ih fun w hw => h w (List.mem_cons_of_mem _ hw),
      get?_visit_of_apart (h v List.mem_cons_self)]

end Drive

/-! ## Section 5: Replies in flat memory -/

/-- A field of a block in memory, read where it stands. -/
theorem Drive.bytesOf_blockAt (view : Guest.View) (address : UInt16) (f : InfoBlock.Field) :
    (Drive.blockAt view address).bytesOf f =
      Guest.readBlock view (address + UInt16.ofNat f.offset) f.width :=
  Guest.readBlock_drop_take view address _ _ _ f.offset_add_width_le

namespace FlatGuest

/-- A block that a reply stores is there afterwards. -/
theorem blockAt_deliver_store (g : FlatGuest) (address : UInt16) (b : InfoBlock)
    (hlength : b.bytes.length = InfoBlock.length) :
    Drive.blockAt ((Reply.store address b.bytes).deliver g).peek address = b := by
  have hfit : b.bytes.length ≤ memorySize := by
    rw [hlength]
    decide
  show InfoBlock.mk (Guest.readBlock (Guest.store g address b.bytes).peek address
    InfoBlock.length) = b
  rw [← hlength, readBlock_store g address b.bytes hfit]

theorem peek_deliver (reply : Reply) (g : FlatGuest) :
    (reply.deliver g).peek = (reply.writeMemory g).peek := rfl

theorem ix_visit (d : Drive) (v : Visit FlatGuest) :
    (d.visit v).2.2.registers.ix = v.guest.registers.ix := by
  show ((d.answer v.host v.entry v.guest.registers v.guest.peek).2.updateRegisters
    v.guest.registers).ix = _
  cases (d.answer v.host v.entry v.guest.registers v.guest.peek).2 <;> rfl

end FlatGuest

/-- A host on which every path is a directory with the same listing. -/
def Host.uniform (listing : List Entry) : Host where
  isDirectory _ := true
  list _ := .ok listing

end HostDrive

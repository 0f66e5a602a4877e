import HostDrive.Proofs.Drive.Outcome
import Mathlib.Tactic.ByContra

/-!
# What a Call Leaves Alone

A call answers in register A and the carry flag. Beyond that, it changes what its routine is for and
nothing else: a search the fields of its block, a directory or a label the buffer that it is told
in, a change-directory the current directory, a find-first the slot of its serial number. A call
that fails changes no byte of memory.

## Architecture

- `Reply.deliver_eq` says how a reply shows in a flat guest: in memory and registers, nowhere else.
- `peek_of_search` is the frame of a block, `FlatGuest.peek_store_of_not_within` that of a buffer.
- Each lemma of `Outcome` goes through the cases of a call once, for one part of the drive, of the
  status or of memory. `Framed` puts them together.
-/

namespace HostDrive

/-! ## Section 1: Replies in flat memory -/

namespace Reply

/-- A reply changes memory and registers of a flat guest, and nothing else in it. -/
theorem deliver_eq (reply : Reply) (g : FlatGuest) :
    reply.deliver g = { g with memory := (reply.writeMemory g).memory,
                               registers := reply.updateRegisters g.registers } := by
  cases reply with
  | store address bytes =>
    show Guest.setRegisters (Guest.store g address bytes) _ = _
    rw [FlatGuest.store_eq]
    rfl
  | _ => rfl

/-- A failure writes nothing. -/
theorem writeMemory_of_status_ne {reply : Reply} (h : reply.status ≠ .ok) (g : FlatGuest) :
    reply.writeMemory g = g := by
  cases reply with
  | store address bytes => exact absurd rfl h
  | _ => rfl

/-- **Registers after a reply**: status and carry flag, and what a grant says. -/
theorem updateRegisters_eq (reply : Reply) (r : CallRegisters) :
    reply.updateRegisters r =
      { (if reply = .grant then { r with c := 1, de := 0, hl := 0 } else r) with
        a := reply.status.code, carry := reply.status != .ok } := by
  cases reply <;> rfl

end Reply

/-! ## Section 2: The frame of a block -/

/-- The serial number of a block is the word at its place in memory. -/
theorem serial_blockAt (view : Guest.View) (address : UInt16) :
    (Drive.blockAt view address).serial = Guest.readWord view (address + 28) := by
  have hbytes : (Drive.blockAt view address).bytesOf .serial =
      [view (address + 28), view (address + 28 + 1)] := Drive.bytesOf_blockAt view address .serial
  rw [InfoBlock.serial_eq, hbytes]
  rfl

/-- **The frame of a search**: a block that hands an entry over differs from the guest's own in the
    fields of the entry and in its position. -/
theorem peek_of_search (v : Visit FlatGuest) (e : Entry) (index : UInt16) {x : UInt16}
    (hx : (Guest.store v.guest v.address (v.block.present e index).bytes).peek x ≠ v.guest.peek x) :
    ∃ i, ((1 ≤ i ∧ i ≤ 18) ∨ (21 ≤ i ∧ i ≤ 24) ∨ (26 ≤ i ∧ i ≤ 27)) ∧
      x = v.address + UInt16.ofNat i := by
  have hlength : (v.block.present e index).bytes.length = InfoBlock.length :=
    (InfoBlock.length_present v.isFull_block e index).trans v.length_block
  -- what differs lies in the block, so it has an offset there
  by_cases hwithin : Guest.Within v.address (v.block.present e index).bytes.length x
  · obtain ⟨i, hi, rfl⟩ := hwithin.exists_eq
    refine ⟨i, ?_, rfl⟩
    by_contra hrange
    have houtside : ∀ f : InfoBlock.Field, f ≠ .serial → ¬ f.Has i :=
      fun f hf hhas => hrange (InfoBlock.Field.has_range hf hhas)
    -- an offset outside those fields still has the guest's own byte
    have hsame := InfoBlock.getElem?_present v.isFull_block e index houtside
    have hiblock : i < v.block.bytes.length := by
      rw [v.length_block, ← hlength]
      exact hi
    rw [List.getElem?_eq_getElem hi, List.getElem?_eq_getElem hiblock] at hsame
    apply hx
    rw [FlatGuest.peek_store_add _ _ _ (by rw [hlength]; decide) i hi, Option.some.inj hsame]
    exact Guest.getElem_readBlock _ _ _ i hiblock
  · exact absurd (FlatGuest.peek_store_of_not_within hwithin) hx

/-! ## Section 3: The frame of the drive -/

namespace Outcome

variable {γ : Type} [Guest γ] {d d' : Drive} {v : Visit γ} {reply : Reply}

/-- A snapshot shows in the slot of the serial number alone. -/
private theorem slot_of_insert {found : Snapshot} {slot : Fin searchSlots}
    (h : (d.searches.insert v.block.serial found).slots.get slot ≠ d.searches.slots.get slot) :
    slot = SearchTable.slotOf (Guest.readWord (Guest.peek v.guest) (v.address + 28)) := by
  rw [SearchTable.slots_insert] at h
  by_contra hne
  have hserial : v.block.serial = Guest.readWord (Guest.peek v.guest) (v.address + 28) :=
    serial_blockAt _ _
  rw [hserial] at h
  exact h (if_neg hne)

/-- Only a find-first that could list its directory changes a slot, and then the one of the serial
    number in its block. -/
theorem slot_of_ne (h : Outcome d v d' reply) {slot : Fin searchSlots}
    (hslot : d'.searches.slots.get slot ≠ d.searches.slots.get slot) :
    v.entry = .findFirst ∧ reply.status ≠ .noDirectory ∧
      slot = SearchTable.slotOf (Guest.readWord (Guest.peek v.guest) (v.address + 28)) := by
  -- in all cases but these two the searches are the same
  cases h with
  | foundFirst htakes => exact ⟨htakes.1, nofun, slot_of_insert hslot⟩
  | foundNone htakes => exact ⟨htakes.1, nofun, slot_of_insert hslot⟩
  | _ => exact absurd rfl hslot

/-- What a routine that only tells answers. -/
theorem status_of_tells (h : Outcome d v d' reply)
    (hentry : v.entry = .alloc ∨ v.entry = .getCurrentDir ∨ v.entry = .getVolume) :
    reply.status = .ok := by
  cases h with
  | granted | toldDirectory | toldLabel | foundFirst | foundNext | entered => rfl
  | noListing hother | foundLast hother | notEntered hother => simp [hother] at hentry
  | foundNone htakes => simp [htakes.1] at hentry

/-- A path is never a missing file. -/
theorem status_of_changeDir (h : Outcome d v d' reply) (hentry : v.entry = .changeDir) :
    reply.status ≠ .noFile := by
  cases h with
  | foundLast hother => exact absurd (hother.symm.trans hentry) nofun
  | foundNone htakes => exact absurd (htakes.1.symm.trans hentry) nofun
  | _ => exact nofun

/-- A search that goes on needs no directory any more. -/
theorem status_of_findNext (h : Outcome d v d' reply) (hentry : v.entry = .findNext) :
    reply.status ≠ .noDirectory := by
  cases h with
  | noListing hother | notEntered hother => exact absurd (hother.symm.trans hentry) nofun
  | _ => exact nofun

/-- A grant is the answer to one routine. -/
theorem eq_grant_iff (h : Outcome d v d' reply) : reply = .grant ↔ v.entry = .alloc := by
  cases h with
  | granted hentry => exact ⟨fun _ => hentry, fun _ => rfl⟩
  | foundFirst hother | foundNone hother | entered hother => simp [hother.1]
  | noListing hother | foundNext hother | foundLast hother | notEntered hother
  | toldDirectory hother | toldLabel hother => simp [hother]

end Outcome

/-! ## Section 4: The frame of the guest -/

variable {d d' : Drive} {v : Visit FlatGuest} {reply : Reply}

/-- **Registers after a call**: status and carry flag, and what a grant says. -/
theorem Outcome.registers_deliver (h : Outcome d v d' reply) :
    (reply.deliver v.guest).registers =
      { (if v.entry = .alloc then { v.guest.registers with c := 1, de := 0, hl := 0 }
          else v.guest.registers) with
        a := reply.status.code, carry := reply.status != .ok } := by
  have hdelivered : (reply.deliver v.guest).registers = reply.updateRegisters v.guest.registers :=
    FlatGuest.registers_setRegisters _ _
  rw [hdelivered, reply.updateRegisters_eq]
  simp only [h.eq_grant_iff]

/-- An address that a call of this kind may write to. -/
def MayWrite (d : Drive) (v : Visit FlatGuest) (x : UInt16) : Prop :=
  match v.entry with
  | .alloc | .changeDir => False
  | .findFirst | .findNext =>
    ∃ i, ((1 ≤ i ∧ i ≤ 18) ∨ (21 ≤ i ∧ i ≤ 24) ∨ (26 ≤ i ∧ i ≤ 27)) ∧
      x = v.guest.registers.ix + UInt16.ofNat i
  | .getCurrentDir =>
    Guest.Within v.guest.registers.de (Guest.plainText d.currentDirectory).length x
  | .getVolume => Guest.Within v.guest.registers.de (Guest.plainText d.label).length x

/-- **The frame of memory**: a byte that differs lies where the routine may write. -/
theorem Outcome.mayWrite (h : Outcome d v d' reply) {x : UInt16}
    (hx : (reply.writeMemory v.guest).peek x ≠ v.guest.peek x) : MayWrite d v x := by
  unfold MayWrite
  -- a search writes its block, a text its buffer, and the other replies write nothing
  cases h with
  | @foundFirst found e htakes =>
    rw [htakes.1]
    exact peek_of_search v e 0 hx
  | @foundNext hentry index e =>
    rw [hentry]
    exact peek_of_search v e index hx
  | toldDirectory hentry | toldLabel hentry =>
    rw [hentry]
    by_contra houtside
    exact hx (FlatGuest.peek_store_of_not_within houtside)
  | _ => exact absurd rfl hx

/-! ## Section 5: The frame of a call -/

/-- **What a call changes and what it answers**, for the drive and the flat guest that it leaves. -/
structure Framed (d : Drive) (v : Visit FlatGuest) (d' : Drive) (status : Status)
    (g : FlatGuest) : Prop where
  /-- Register A tells the status, and the carry flag whether it is a failure. -/
  a : g.registers.a = status.code
  carry : g.registers.carry = true ↔ status ≠ .ok
  pc : g.pc = v.guest.pc
  ix : g.registers.ix = v.guest.registers.ix
  iy : g.registers.iy = v.guest.registers.iy
  granted : v.entry = .alloc →
    g.registers.c = 1 ∧ g.registers.de = 0 ∧ g.registers.hl = 0
  kept : v.entry ≠ .alloc → g.registers.c = v.guest.registers.c ∧
    g.registers.de = v.guest.registers.de ∧ g.registers.hl = v.guest.registers.hl
  /-- A call that fails changes no byte, any other only those that it is for. -/
  failed : status ≠ .ok → g.memory = v.guest.memory
  written : ∀ x, g.peek x ≠ v.guest.peek x → MayWrite d v x
  base : d'.base = d.base
  label : d'.label = d.label
  /-- Only a change-directory that succeeds changes the current directory. -/
  directory : ¬ (v.entry = .changeDir ∧ status = .ok) →
    d'.currentDirectory = d.currentDirectory ∧ d'.hostDirectory = d.hostDirectory
  /-- Only a find-first with a directory changes a slot, that of the serial number at `IX + 28`. -/
  slot : ∀ slot, d'.searches.slots.get slot ≠ d.searches.slots.get slot →
    v.entry = .findFirst ∧ status ≠ .noDirectory ∧
    slot.val = (Guest.readWord v.guest.peek (v.guest.registers.ix + 28)).toNat % 4
  succeeds : v.entry = .alloc ∨ v.entry = .getCurrentDir ∨ v.entry = .getVolume → status = .ok
  changeDir : v.entry = .changeDir → status ≠ .noFile
  findNext : v.entry = .findNext → status ≠ .noDirectory

/-- **Every call keeps to its frame**, in every state of the drive, on every host and for every flat
    guest, also where a block or a buffer runs over the top of memory. -/
theorem visit_framed (d : Drive) (v : Visit FlatGuest) :
    Framed d v (d.visit v).1 (d.visit v).2.1 (d.visit v).2.2 := by
  obtain ⟨d', reply, houtcome, hvisit⟩ := d.exists_outcome v
  have hbase := d.base_visit v
  have hdirectory := @Drive.directory_visit _ _ d v
  rw [hvisit] at hbase hdirectory ⊢
  have hregisters := houtcome.registers_deliver
  refine {
    a := by rw [hregisters]
    carry := by rw [hregisters]; exact bne_iff_ne
    pc := by rw [Reply.deliver_eq]
    ix := ?ix
    iy := ?iy
    granted := ?granted
    kept := ?kept
    failed := ?failed
    written := fun x hx => houtcome.mayWrite hx
    base := hbase.1
    label := hbase.2
    directory := ?directory
    slot := ?slot
    succeeds := houtcome.status_of_tells
    changeDir := houtcome.status_of_changeDir
    findNext := houtcome.status_of_findNext }
  case ix | iy =>
    rw [hregisters]
    split <;> rfl
  case granted =>
    intro hentry
    rw [hregisters, if_pos hentry]
    exact ⟨rfl, rfl, rfl⟩
  case kept =>
    intro hentry
    rw [hregisters, if_neg hentry]
    exact ⟨rfl, rfl, rfl⟩
  case failed =>
    intro hstatus
    rw [Reply.deliver_eq, Reply.writeMemory_of_status_ne hstatus]
  case directory =>
    intro hstays
    obtain ⟨hnames, hpath⟩ := hdirectory hstays
    exact ⟨congrArg GuestPath.spelling hnames, hpath⟩
  case slot =>
    intro slot hslot
    obtain ⟨hentry, hstatus, hserial⟩ := houtcome.slot_of_ne hslot
    exact ⟨hentry, hstatus, congrArg Fin.val hserial⟩

end HostDrive

import HostDrive.Proofs.Drive.Calls

/-!
# The Footprint of a Call

Which bytes of the guest's memory a call looks at, and which it writes. Two guests with the same
registers and the same bytes where a call looks get the same answer, whatever else differs.

## Main statements

- `Drive.Reads`, `Drive.Writable`: the footprint of a call
- `Drive.answer_eq_of_reads`: the answer depends on nothing but what is read
- `Drive.writable_of_writes`: the answer writes nothing else
-/

namespace HostDrive

namespace Drive

/-- **The bytes that a call looks at**: its block, its text, or both. -/
def Reads (entry : EntryPoint) (r : CallRegisters) (view : Guest.View) (x : UInt16) : Prop :=
  match entry with
  | .findFirst => Guest.InText view r.iy longestGuestPath x ∨ Guest.Within r.ix InfoBlock.length x
  | .findNext => Guest.Within r.ix InfoBlock.length x
  | .changeDir => Guest.InText view r.hl longestGuestPath x
  | .alloc | .getCurrentDir | .getVolume => False

theorem blockAt_congr {view view' : Guest.View} {address : UInt16}
    (h : ∀ x, Guest.Within address InfoBlock.length x → view x = view' x) :
    blockAt view address = blockAt view' address :=
  congrArg InfoBlock.mk (Guest.readBlock_congr h)

/-- **The answer of a call depends on nothing but what it reads.** -/
theorem answer_eq_of_reads {view view' : Guest.View} {entry : EntryPoint} {r : CallRegisters}
    (h : ∀ x, Reads entry r view x → view x = view' x) (host : Host) (d : Drive) :
    d.answer host entry r view = d.answer host entry r view' := by
  cases entry with
  | alloc | getCurrentDir | getVolume => rfl
  | findFirst =>
    have htext := Guest.readText_congr fun x hx => h x (.inl hx)
    have hblock := blockAt_congr fun x hx => h x (.inr hx)
    simp only [answer, findFirst, htext, hblock]
  | findNext =>
    have hblock := blockAt_congr h
    simp only [answer, findNext, hblock]
  | changeDir =>
    have htext := Guest.readText_congr h
    simp only [answer, changeDirectory, htext]

/-- A call is an answer, delivered. -/
theorem call_of_answer {γ : Type} [Guest γ] {host : Host} {d d' : Drive} {entry : EntryPoint}
    {guest : γ} {reply : Reply}
    (h : d.answer host entry (Guest.registers guest) (Guest.peek guest) = (d', reply)) :
    d.call host entry guest = (d', reply.status, reply.deliver guest) := by
  unfold call
  rw [h]

end Drive

/-- **The bytes that a reply writes.** -/
def Reply.Writes (reply : Reply) (x : UInt16) : Prop :=
  match reply with
  | .store address bytes => Guest.Within address bytes.length x
  | _ => False

namespace Drive

/-- **The bytes that a call may write**: its block, or its buffer as far as the answer goes. -/
def Writable (d : Drive) (entry : EntryPoint) (r : CallRegisters) (x : UInt16) : Prop :=
  match entry with
  | .findFirst | .findNext => Guest.Within r.ix InfoBlock.length x
  | .getCurrentDir => Guest.Within r.de (Guest.plainText d.currentDirectory).length x
  | .getVolume => Guest.Within r.de (Guest.plainText d.label).length x
  | .alloc | .changeDir => False

theorem within_of_present {d : Drive} {view : Guest.View} {address index x : UInt16}
    (h : (d.present address (blockAt view address) index).Writes x) :
    Guest.Within address InfoBlock.length x := by
  have hlength : (blockAt view address).bytes.length = InfoBlock.length :=
    Guest.length_readBlock _ _ _
  rw [present_eq] at h
  cases hentry : d.searches.entry? (blockAt view address).serial index.toNat with
  | none =>
    rw [hentry] at h
    exact h.elim
  | some e =>
    rw [hentry] at h
    have hstored : Guest.Within address ((blockAt view address).present e index).bytes.length x := h
    rwa [InfoBlock.length_present (Nat.le_of_eq hlength.symm), hlength] at hstored

/-- **A call writes nothing else.** -/
theorem writable_of_writes {host : Host} {d : Drive} {entry : EntryPoint} {r : CallRegisters}
    {view : Guest.View} {x : UInt16} (h : (d.answer host entry r view).2.Writes x) :
    d.Writable entry r x := by
  cases entry with
  | alloc => exact h
  | getCurrentDir | getVolume => exact h
  | findNext =>
    have hreply : (d.findNext r view).Writes x := h
    unfold findNext at hreply
    simp only at hreply
    split at hreply
    · exact within_of_present hreply
    · exact hreply.elim
  | findFirst =>
    have hreply : (d.findFirst host r view).2.Writes x := h
    unfold findFirst at hreply
    simp only at hreply
    split at hreply
    · exact hreply.elim
    · exact within_of_present hreply
  | changeDir =>
    have hreply : (d.changeDirectory host r view).2.Writes x := h
    unfold changeDirectory at hreply
    simp only at hreply
    split at hreply <;> exact hreply

end Drive

end HostDrive

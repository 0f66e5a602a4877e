import HostDrive.Guest.Flat

/-!
# Blocks of Guest Memory

What a block write leaves at every address of a flat guest, and what the readers of memory make of
it. Addresses wrap at the top of memory, so a block is described by the distance of an address from
its start, taken modulo the size of memory.

## Main statements

- `FlatGuest.peek_store`: the byte at any address after a block write
- `FlatGuest.readBlock_store`: a block that was written reads back
- `Guest.readBlock_congr`, `Guest.readPlain_eq`: which bytes a reader depends on
- `Guest.InText`, `Guest.readText_congr`: the bytes that a reader of a text looks at
-/

namespace HostDrive

/-! ## Section 1: Addresses of a block -/

namespace Guest

/-- An address is one of the `length` addresses from `start` on. -/
def Within (start : UInt16) (length : Nat) (address : UInt16) : Prop :=
  (address - start).toNat < length

instance (start : UInt16) (length : Nat) (address : UInt16) :
    Decidable (Within start length address) :=
  inferInstanceAs (Decidable (_ < _))

/-- The distance of an address from the start of a block, when the block starts one byte later. -/
theorem toNat_sub_of_ne {address start : UInt16} (hne : address ≠ start) :
    (address - start).toNat = (address - (start + 1)).toNat + 1 := by
  have hlt := address.toNat_lt
  have hlt' := start.toNat_lt
  have hne' : address.toNat ≠ start.toNat := fun h => hne (UInt16.toNat_inj.mp h)
  rw [UInt16.toNat_sub, UInt16.toNat_sub, UInt16.toNat_add]
  simp only [UInt16.reduceToNat] at *
  omega

/-- The distance of the address itself, when the block starts one byte later. -/
theorem toNat_sub_succ_self (start : UInt16) :
    (start - (start + 1)).toNat = memorySize - 1 := by
  have hlt := start.toNat_lt
  rw [UInt16.toNat_sub, UInt16.toNat_add]
  simp only [UInt16.reduceToNat, memorySize] at *
  omega

@[simp] theorem toNat_add_ofNat_sub (start : UInt16) (i : Nat) :
    (start + UInt16.ofNat i - start).toNat = i % memorySize := by
  have hlt := start.toNat_lt
  rw [UInt16.toNat_sub, UInt16.toNat_add, UInt16.toNat_ofNat']
  simp only [memorySize] at *
  omega

theorem add_ofNat_succ (start : UInt16) (i : Nat) :
    start + UInt16.ofNat (i + 1) = start + 1 + UInt16.ofNat i := by
  rw [UInt16.ofNat_add, UInt16.add_assoc, UInt16.add_comm (UInt16.ofNat i)]
  rfl

/-- Every address of a block is its start plus a distance. -/
theorem Within.exists_eq {start : UInt16} {length : Nat} {address : UInt16}
    (h : Within start length address) :
    ∃ i < length, address = start + UInt16.ofNat i := by
  refine ⟨(address - start).toNat, h, ?_⟩
  rw [UInt16.ofNat_toNat, UInt16.add_comm, UInt16.sub_add_cancel]

theorem within_add_ofNat {start : UInt16} {length i : Nat} (hi : i < length) :
    Within start length (start + UInt16.ofNat i) := by
  rw [Within, toNat_add_ofNat_sub]
  exact Nat.lt_of_le_of_lt (Nat.mod_le _ _) hi

/-- The addresses of a block that does not run over the top of memory. -/
theorem within_iff {start : UInt16} {length : Nat} {address : UInt16}
    (hfit : start.toNat + length ≤ memorySize) :
    Within start length address ↔
      start.toNat ≤ address.toNat ∧ address.toNat < start.toNat + length := by
  have hlt := address.toNat_lt
  rw [Within, UInt16.toNat_sub]
  simp only [memorySize] at hfit
  omega

theorem Within.of_inner {start : UInt16} {offset inner length : Nat} {address : UInt16}
    (h : Within (start + UInt16.ofNat offset) inner address) (hfit : offset + inner ≤ length) :
    Within start length address := by
  obtain ⟨i, hi, rfl⟩ := h.exists_eq
  rw [UInt16.add_assoc, ← UInt16.ofNat_add]
  exact within_add_ofNat (by omega)

/-! ## Section 2: Reading -/

@[simp] theorem length_readBlock (view : View) (start : UInt16) (length : Nat) :
    (readBlock view start length).length = length := by
  induction length generalizing start with
  | zero => rfl
  | succ length ih => simp [readBlock, ih]

theorem getElem_readBlock (view : View) (start : UInt16) (length i : Nat)
    (hi : i < (readBlock view start length).length) :
    (readBlock view start length)[i] = view (start + UInt16.ofNat i) := by
  induction length generalizing start i with
  | zero => exact absurd hi (by simp [readBlock])
  | succ length ih =>
    cases i with
    | zero => simp [readBlock]
    | succ i =>
      simp only [readBlock, List.getElem_cons_succ]
      rw [ih, add_ofNat_succ]

/-- A block depends on the bytes at its addresses alone. -/
theorem readBlock_congr {view view' : View} {start : UInt16} {length : Nat}
    (h : ∀ address, Within start length address → view address = view' address) :
    readBlock view start length = readBlock view' start length := by
  apply List.ext_getElem (by simp)
  intro i hi _
  rw [getElem_readBlock, getElem_readBlock]
  exact h _ (within_add_ofNat (by simpa using hi))

/-- Blocks that read alike hold the same byte at each of their addresses. -/
theorem eq_of_readBlock_eq {view view' : View} {start : UInt16} {length : Nat}
    (h : readBlock view start length = readBlock view' start length) (address : UInt16)
    (hin : Within start length address) : view address = view' address := by
  obtain ⟨i, hi, rfl⟩ := hin.exists_eq
  rw [← getElem_readBlock view start length i (by simpa using hi),
    ← getElem_readBlock view' start length i (by simpa using hi)]
  simp only [h]

/-- Part of a block is the block at the inner address. -/
theorem readBlock_drop_take (view : View) (start : UInt16) (offset inner length : Nat)
    (hfit : offset + inner ≤ length) :
    ((readBlock view start length).drop offset).take inner =
      readBlock view (start + UInt16.ofNat offset) inner := by
  apply List.ext_getElem
  · simp only [List.length_take, List.length_drop, length_readBlock]
    omega
  · intro i _ _
    simp only [List.getElem_take, List.getElem_drop, getElem_readBlock]
    rw [UInt16.add_assoc, ← UInt16.ofNat_add]

/-- **Texts end at their first zero byte.** Where memory holds bytes, and a zero behind them unless
    the limit is reached there, the reader returns what stands before the first zero, cut at the
    limit; nothing else in memory matters. -/
theorem readPlain_of_run {view : View} {start : UInt16} {bytes : List UInt8} {limit : Nat}
    (hblock : readBlock view start bytes.length = bytes)
    (hend : bytes.length < limit → view (start + UInt16.ofNat bytes.length) = 0) :
    readPlain view start limit =
      ((bytes.takeWhile (· != 0)).take limit).map Text.plainByte := by
  -- the reader goes through the bytes as the list is built; the zero behind them stops it at last
  induction bytes generalizing start limit with
  | nil =>
    cases limit with
    | zero => rfl
    | succ limit =>
      have hstart : view start = 0 := by simpa using hend (Nat.succ_pos limit)
      simp [readPlain, hstart]
  | cons b bytes ih =>
    cases limit with
    | zero => simp [readPlain]
    | succ limit =>
      obtain ⟨hb, hrest⟩ := List.cons.inj hblock
      by_cases hzero : b = 0
      · simp [readPlain, hb, hzero]
      · have htail : readPlain view (start + 1) limit =
            ((bytes.takeWhile (· != 0)).take limit).map Text.plainByte := by
          apply ih hrest
          intro hlt
          rw [← add_ofNat_succ]
          exact hend (Nat.succ_lt_succ hlt)
        simp [readPlain, hb, hzero, htail]

theorem readPlain_eq (view : View) (start : UInt16) (bytes : List UInt8) (limit : Nat)
    (h : ∀ i (hi : i < (bytes ++ [0]).length),
      view (start + UInt16.ofNat i) = (bytes ++ [0])[i]) :
    readPlain view start limit =
      ((bytes.takeWhile (· != 0)).take limit).map Text.plainByte := by
  have hblock : readBlock view start bytes.length = bytes := by
    apply List.ext_getElem (by simp)
    intro i _ hi
    rw [getElem_readBlock, h i (by simp; omega), List.getElem_append_left hi]
  refine readPlain_of_run hblock fun _ => ?_
  simpa using h bytes.length (by simp)

/-- **The bytes that a reader of a text looks at**: those of the text and the zero byte behind it,
    if the reader gets that far. -/
def InText (view : View) (start : UInt16) (limit : Nat) (x : UInt16) : Prop :=
  Within start (min limit ((readPlain view start limit).length + 1)) x

/-- A text depends on the bytes that its reader looks at. -/
theorem readPlain_congr {view view' : View} {start : UInt16} {limit : Nat}
    (h : ∀ x, InText view start limit x → view x = view' x) :
    readPlain view start limit = readPlain view' start limit := by
  induction limit generalizing start with
  | zero => rfl
  | succ limit ih =>
    have hfirst : view start = view' start := by
      apply h
      show (start - start).toNat < min (limit + 1) _
      rw [UInt16.sub_self]
      exact Nat.lt_min.mpr ⟨Nat.succ_pos _, Nat.succ_pos _⟩
    by_cases hzero : view start = 0
    · simp only [readPlain, ← hfirst, hzero, beq_self_eq_true, if_true]
    · -- the first byte is none that ends the text, so the reader goes on behind it
      have hlength : (readPlain view start (limit + 1)).length =
          (readPlain view (start + 1) limit).length + 1 := by
        simp only [readPlain, beq_iff_eq, hzero, if_false, List.length_cons]
      have hrest : readPlain view (start + 1) limit = readPlain view' (start + 1) limit := by
        apply ih
        intro x hx
        apply h
        have hinner : Within (start + UInt16.ofNat 1) _ x := hx
        rw [InText, hlength]
        exact hinner.of_inner (by omega)
      simp only [readPlain, ← hfirst, beq_iff_eq, hzero, if_false, hrest]

/-- A reader looks no further than its limit. -/
theorem InText.within {view : View} {start : UInt16} {limit : Nat} {x : UInt16}
    (h : InText view start limit x) : Within start limit x :=
  Nat.lt_of_lt_of_le h (Nat.min_le_left _ _)

theorem readText_congr {view view' : View} {start : UInt16} {limit : Nat}
    (h : ∀ x, InText view start limit x → view x = view' x) :
    readText view start limit = readText view' start limit :=
  congrArg Text.latin1 (readPlain_congr h)

/-- A reader that goes on has seen no zero byte. -/
theorem ne_zero_of_lt_length {view : View} {start : UInt16} {limit i : Nat}
    (h : i < (readPlain view start limit).length) : view (start + UInt16.ofNat i) ≠ 0 := by
  induction limit generalizing start i with
  | zero => exact absurd h (Nat.not_lt_zero i)
  | succ limit ih =>
    simp only [readPlain] at h
    split at h
    · exact absurd h (Nat.not_lt_zero i)
    · rename_i hfirst
      cases i with
      | zero => simpa using hfirst
      | succ i =>
        rw [add_ofNat_succ]
        exact ih (Nat.lt_of_succ_lt_succ h)

/-- **A reader looks at nothing behind a zero byte**, and at nothing behind its limit. -/
theorem InText.exists_eq {view : View} {start : UInt16} {limit : Nat} {x : UInt16}
    (h : InText view start limit x) :
    ∃ i < limit, (∀ j < i, view (start + UInt16.ofNat j) ≠ 0) ∧ x = start + UInt16.ofNat i := by
  obtain ⟨i, hi, rfl⟩ := Within.exists_eq h
  obtain ⟨hlimit, hlength⟩ := Nat.lt_min.mp hi
  refine ⟨i, hlimit, fun j hj => ?_, rfl⟩
  have hseen : j < (readPlain view start limit).length := by omega
  exact ne_zero_of_lt_length hseen

end Guest

/-! ## Section 3: Flat memory -/

namespace FlatGuest

@[simp] theorem guest_peek (g : FlatGuest) : Guest.peek g = g.peek := rfl

@[simp] theorem guest_registers (g : FlatGuest) : Guest.registers g = g.registers := rfl

@[simp] theorem peek_setRegisters (g : FlatGuest) (r : CallRegisters) :
    (Guest.setRegisters g r).peek = g.peek := rfl

@[simp] theorem memory_setRegisters (g : FlatGuest) (r : CallRegisters) :
    (Guest.setRegisters g r).memory = g.memory := rfl

@[simp] theorem registers_setRegisters (g : FlatGuest) (r : CallRegisters) :
    (Guest.setRegisters g r).registers = r := rfl

@[simp] theorem peek_filled (b : UInt8) (x : UInt16) : (filled b).peek x = b := by
  simp [peek, filled]

theorem peek_poke (g : FlatGuest) (a x : UInt16) (b : UInt8) :
    (g.poke a b).peek x = if x = a then b else g.peek x := by
  have ha : a.toNat < memorySize := a.toNat_lt
  have hx : x.toNat < memorySize := x.toNat_lt
  show (g.memory.set a.toNat b ha)[x.toNat] = _
  rw [Vector.getElem_set]
  by_cases h : x = a
  · simp [h]
  · have hne : ¬ a.toNat = x.toNat := fun h' => h (UInt16.toNat_inj.mp h'.symm)
    simp only [hne, h, if_false]
    rfl

theorem store_eq (g : FlatGuest) (start : UInt16) (bytes : List UInt8) :
    Guest.store g start bytes = { g with memory := (Guest.store g start bytes).memory } := by
  induction bytes generalizing g start with
  | nil => rfl
  | cons b bytes ih =>
    simp only [Guest.store]
    rw [ih]
    rfl

@[simp] theorem registers_store (g : FlatGuest) (start : UInt16) (bytes : List UInt8) :
    (Guest.store g start bytes).registers = g.registers := by
  rw [store_eq]

@[simp] theorem pc_store (g : FlatGuest) (start : UInt16) (bytes : List UInt8) :
    (Guest.store g start bytes).pc = g.pc := by
  rw [store_eq]

@[simp] theorem devices_blocks_store (g : FlatGuest) (start : UInt16) (bytes : List UInt8) :
    (Guest.store g start bytes).devices = g.devices ∧
    (Guest.store g start bytes).blocks = g.blocks := by
  rw [store_eq]
  exact ⟨rfl, rfl⟩

/-- **Block writes, address by address.** A block no longer than memory puts each of its bytes at
    its distance from the start and leaves every other address alone. -/
theorem peek_store (g : FlatGuest) (start : UInt16) (bytes : List UInt8)
    (hfit : bytes.length ≤ memorySize) (x : UInt16) :
    (Guest.store g start bytes).peek x =
      (bytes[(x - start).toNat]?).getD (g.peek x) := by
  induction bytes generalizing g start with
  | nil => simp [Guest.store]
  | cons b bytes ih =>
    have hlen : bytes.length ≤ memorySize - 1 := by simpa using Nat.le_sub_one_of_lt hfit
    simp only [Guest.store]
    rw [ih _ _ (by omega)]
    by_cases hx : x = start
    · -- the rest of the block ends before it comes round to its own start
      subst hx
      rw [Guest.toNat_sub_succ_self, List.getElem?_eq_none hlen]
      simp [Guest.poke, peek_poke]
    · rw [Guest.toNat_sub_of_ne hx, List.getElem?_cons_succ]
      congr 1
      exact (peek_poke g start x b).trans (if_neg hx)

theorem peek_store_of_not_within {g : FlatGuest} {start : UInt16} {bytes : List UInt8} {x : UInt16}
    (hx : ¬ Guest.Within start bytes.length x) :
    (Guest.store g start bytes).peek x = g.peek x := by
  -- a block longer than memory would reach every address
  have hfit : bytes.length ≤ memorySize :=
    Nat.le_of_not_lt fun hlong => hx (Nat.lt_trans (x - start).toNat_lt hlong)
  rw [peek_store g start bytes hfit, List.getElem?_eq_none (Nat.le_of_not_lt hx)]
  rfl

theorem peek_store_add (g : FlatGuest) (start : UInt16) (bytes : List UInt8)
    (hfit : bytes.length ≤ memorySize) (i : Nat) (hi : i < bytes.length) :
    (Guest.store g start bytes).peek (start + UInt16.ofNat i) = bytes[i] := by
  rw [peek_store g start bytes hfit, Guest.toNat_add_ofNat_sub,
    Nat.mod_eq_of_lt (Nat.lt_of_lt_of_le hi hfit), List.getElem?_eq_getElem hi]
  rfl

/-- A block that was written reads back. -/
theorem readBlock_store (g : FlatGuest) (start : UInt16) (bytes : List UInt8)
    (hfit : bytes.length ≤ memorySize) :
    Guest.readBlock (Guest.store g start bytes).peek start bytes.length = bytes := by
  apply List.ext_getElem (by simp)
  intro i _ hi
  rw [Guest.getElem_readBlock, peek_store_add g start bytes hfit i hi]

/-- Two block writes of the same bytes agree where they write, and where the guests agreed. -/
theorem peek_store_congr {g g' : FlatGuest} {start : UInt16} {bytes : List UInt8} {x : UInt16}
    (h : g.peek x = g'.peek x ∨ Guest.Within start bytes.length x) :
    (Guest.store g start bytes).peek x = (Guest.store g' start bytes).peek x := by
  induction bytes generalizing g g' start with
  | nil =>
    rcases h with heq | hin
    · exact heq
    · exact absurd hin (Nat.not_lt_zero _)
  | cons b bytes ih =>
    simp only [Guest.store]
    apply ih
    -- a byte that the guests disagree on is written later, or it is the one written now
    by_cases hx : x = start
    · left
      simp only [Guest.poke, peek_poke, if_pos hx]
    · rcases h with heq | hin
      · left
        simp only [Guest.poke, peek_poke, if_neg hx, heq]
      · right
        have hdistance := Guest.toNat_sub_of_ne hx
        simp only [Guest.Within, List.length_cons] at hin ⊢
        omega

end FlatGuest

end HostDrive

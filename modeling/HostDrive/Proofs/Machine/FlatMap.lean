import HostDrive.Proofs.Machine.Cells

/-!
# Maps That Are Flat

As long as each page shows a segment of its own, the memory that the guest sees is plain memory: a
byte that is written shows at its address and at no other. That is how the machine starts, and no
write changes it.

## Main statements

- `MemoryMap.IsFlat`, `MemoryMap.isFlat_of_reset`: flat maps, and the one after a reset
- `MemoryMap.IsFlat.read_write`: one byte at a time
- `Board.read_store`: a board that is flat keeps what is stored as a flat guest does
- `Machine.load_eq`: loading a machine is storing on its board
-/

namespace HostDrive

/-! ## Section 1: Flat maps -/

namespace MemoryMap

/-- **A flat map**: all pages show RAM, and no two of them the same segment. -/
structure IsFlat (m : MemoryMap) : Prop where
  shows : ∀ page, m.showsMapper page = true
  apart : ∀ p q, (m.segmentOf p).val = (m.segmentOf q).val → p = q

/-- Being flat is a matter of the layout. -/
theorem SameLayout.isFlat {m m' : MemoryMap} (h : SameLayout m m') (hflat : m.IsFlat) :
    m'.IsFlat where
  shows page := (h.showsMapper page).trans (hflat.shows page)
  apart p q heq := by
    rw [h.segmentOf, h.segmentOf] at heq
    exact hflat.apart p q heq

/-- After a reset page 0 shows segment 3, page 1 segment 2, and so on. -/
theorem segmentOf_of_reset {m : MemoryMap} (hselected : m.selected = #v[3, 2, 1, 0]) (page : Page) :
    (m.segmentOf page).val = 3 - page.val := by
  have hnumbers : ∀ page : Page,
      (#v[3, 2, 1, 0] : Vector UInt8 4)[page].toNat = 3 - page.val := by decide
  have hsize := m.four_le
  have hnumber : m.selected[page].toNat = 3 - page.val := by
    rw [hselected]
    exact hnumbers page
  show m.selected[page].toNat % m.segments.size = _
  rw [hnumber]
  exact Nat.mod_eq_of_lt (by omega)

/-- **After a reset the map is flat.** -/
theorem isFlat_of_reset {m : MemoryMap} (hselected : m.selected = #v[3, 2, 1, 0])
    (hslots : m.slotSelect = 0xFF) : m.IsFlat where
  shows page := by
    have hslot : m.page1Slot = mapperSlot := by
      rw [page1Slot, hslots]
      decide
    simp only [showsMapper, hslot, beq_self_eq_true, Bool.or_true]
  apart p q heq := by
    rw [segmentOf_of_reset hselected, segmentOf_of_reset hselected] at heq
    apply Fin.ext
    omega

/-- Page and offset make up an address. -/
theorem eq_of_pageOf_offsetOf {a x : UInt16} (hpage : pageOf x = pageOf a)
    (hoffset : (offsetOf x).val = (offsetOf a).val) : x = a := by
  have hdiv : x.toNat / pageSize = a.toNat / pageSize := congrArg Fin.val hpage
  have hmod : x.toNat % pageSize = a.toNat % pageSize := hoffset
  apply UInt16.toNat_inj.mp
  rw [← Nat.div_add_mod x.toNat pageSize, hdiv, hmod, Nat.div_add_mod]

namespace IsFlat

variable {m : MemoryMap}

theorem write (h : m.IsFlat) (a : UInt16) (b : UInt8) : (m.write a b).IsFlat :=
  (SameLayout.write m a b).isFlat h

/-- **Flat memory keeps a byte at its address, and at no other.** -/
theorem read_write (h : m.IsFlat) (a : UInt16) (b : UInt8) (x : UInt16) :
    (m.write a b).read x = if x = a then b else m.read x := by
  have hcell : m.cell? a = some ⟨(m.segmentOf (pageOf a)).val, (offsetOf a).val⟩ :=
    cell?_eq_some.mpr ⟨h.shows _, rfl, rfl⟩
  rw [MemoryMap.read_write hcell]
  by_cases hx : x = a
  · rw [if_pos hx, if_pos (hx ▸ hcell)]
  · -- the cell shows at no other address, as no other page shows its segment
    have hother : m.cell? x ≠ some ⟨(m.segmentOf (pageOf a)).val, (offsetOf a).val⟩ := by
      intro hsame
      obtain ⟨-, hsegment, hoffset⟩ := cell?_eq_some.mp hsame
      exact hx (eq_of_pageOf_offsetOf (h.apart _ _ hsegment.symm) hoffset.symm)
    rw [if_neg hother, if_neg hx]

end IsFlat

end MemoryMap

/-! ## Section 2: Flat guests that show the same -/

/-- A flat guest with this memory and these registers. -/
def FlatGuest.showing (view : Guest.View) (r : CallRegisters) : FlatGuest where
  memory := Vector.ofFn fun i => view (UInt16.ofFin i)
  registers := r

@[simp] theorem FlatGuest.peek_showing (view : Guest.View) (r : CallRegisters) (x : UInt16) :
    (showing view r).peek x = view x :=
  Vector.getElem_ofFn (f := fun i => view (UInt16.ofFin i)) x.toFin.isLt

namespace Board

@[simp] theorem cpu_store (b : Board) (a : UInt16) (bytes : List UInt8) :
    (Guest.store b a bytes).cpu = b.cpu := by
  induction bytes generalizing b a with
  | nil => rfl
  | cons byte bytes ih => exact ih (Guest.poke b a byte) (a + 1)

theorem isFlat_store {b : Board} (h : b.bus.IsFlat) (a : UInt16) (bytes : List UInt8) :
    (Guest.store b a bytes).bus.IsFlat :=
  (sameLayout_store b a bytes).isFlat h

/-- **A flat board keeps what is stored as a flat guest does**, at every address where they agreed
    before. -/
theorem read_store_congr {b : Board} {g : FlatGuest} (hflat : b.bus.IsFlat) {x : UInt16}
    (hx : b.bus.read x = g.peek x) (a : UInt16) (bytes : List UInt8) :
    (Guest.store b a bytes).bus.read x = (Guest.store g a bytes).peek x := by
  induction bytes generalizing b g a with
  | nil => exact hx
  | cons byte bytes ih =>
    apply ih (hflat.write a byte)
    show (b.bus.write a byte).read x = (g.poke a byte).peek x
    rw [hflat.read_write, FlatGuest.peek_poke, hx]

/-- Each stored byte shows at its distance from the start, and all other addresses are as before. -/
theorem read_store {b : Board} (hflat : b.bus.IsFlat) (a : UInt16) {bytes : List UInt8}
    (hfit : bytes.length ≤ memorySize) (x : UInt16) :
    (Guest.store b a bytes).bus.read x = (bytes[(x - a).toNat]?).getD (b.bus.read x) := by
  have hshowing : b.bus.read x = (FlatGuest.showing b.bus.read {}).peek x :=
    (FlatGuest.peek_showing _ _ x).symm
  rw [read_store_congr hflat hshowing, FlatGuest.peek_store _ _ _ hfit, ← hshowing]

end Board

/-! ## Section 3: Loading a machine -/

namespace Machine

/-- **Loading is storing** on the board, and changes nothing else. -/
theorem load_eq (m : Machine) (a : UInt16) (bytes : List UInt8) :
    m.load a bytes = { m with board := Guest.store m.board a bytes } := by
  induction bytes generalizing m a with
  | nil => rfl
  | cons byte bytes ih => exact ih (m.poke a byte) (a + 1)

/-- The byte that shows at each address after bytes were loaded. -/
theorem read_load {m : Machine} (hflat : m.board.bus.IsFlat) (a : UInt16) {bytes : List UInt8}
    (hfit : bytes.length ≤ memorySize) (x : UInt16) :
    (m.load a bytes).peek x = (bytes[(x - a).toNat]?).getD (m.peek x) := by
  rw [load_eq]
  exact Board.read_store hflat a hfit x

variable {m : Machine} {bytes : List UInt8}

/-- A byte that was loaded shows at its place. -/
theorem peek_load_add (hflat : m.board.bus.IsFlat) (a : UInt16) (hfit : bytes.length ≤ memorySize)
    {i : Nat} (hi : i < bytes.length) : (m.load a bytes).peek (a + UInt16.ofNat i) = bytes[i] := by
  have hdistance : (a + UInt16.ofNat i - a).toNat = i := by
    rw [Guest.toNat_add_ofNat_sub]
    exact Nat.mod_eq_of_lt (Nat.lt_of_lt_of_le hi hfit)
  rw [read_load hflat a hfit, hdistance, List.getElem?_eq_getElem hi, Option.getD_some]

/-- A byte outside what was loaded is as before. -/
theorem peek_load_of_not_within (hflat : m.board.bus.IsFlat) {a : UInt16}
    (hfit : bytes.length ≤ memorySize) {x : UInt16} (hx : ¬ Guest.Within a bytes.length x) :
    (m.load a bytes).peek x = m.peek x := by
  have hbehind : bytes.length ≤ (x - a).toNat := Nat.le_of_not_lt hx
  rw [read_load hflat a hfit, List.getElem?_eq_none hbehind, Option.getD_none]

/-- Loading leaves a flat map flat. -/
theorem isFlat_load (hflat : m.board.bus.IsFlat) (a : UInt16) (bytes : List UInt8) :
    (m.load a bytes).board.bus.IsFlat := by
  rw [load_eq]
  exact Board.isFlat_store hflat a bytes

end Machine

end HostDrive

import HostDrive.Proofs.Machine.Clock

/-!
# Filling a Machine from Outside

Three requests fill a machine: the driver module goes into a segment, data goes into a segment, and
read-only memory goes into a slot. Each of them is granted as a whole or refused as a whole. What is
granted changes the bytes that were asked for and no others, and these show at every address of the
pages that select the segment or the slot at the time.

## Architecture

- `Machine.Fills` is a segment with new bytes in it, and what the pages show of them;
  `Machine.fills_modifySegment` says that replacing a segment byte by byte does that.
- `Machine.PlugsIn` is the same for a slot, and `Machine.plugsIn_pluggedIn` its proof.
- `Machine.Precise` ties a request to what it asks for; `Machine.loaders_precise` does so for all
  three.
-/

namespace HostDrive.Machine

variable {m : Machine}

/-! ## Section 1: Segments -/

/-- **A segment is filled**: these are its new bytes, by their offsets, and nothing else changes. -/
structure Fills (n : Nat) (byte? : Nat → Option UInt8) (m m' : Machine) : Prop where
  processor : m'.board.cpu = m.board.cpu ∧ m'.clock = m.clock ∧ m'.limit = m.limit
  guard : m'.guard = m.guard
  layout : m.board.bus.SameLayout m'.board.bus
  identities : m'.nextDevice = m.nextDevice
  others : ∀ k, k ≠ n → m'.board.bus.segments[k]? = m.board.bus.segments[k]?
  bytes : ∃ before after, m.board.bus.segments[n]? = some before ∧
    m'.board.bus.segments[n]? = some after ∧
    ∀ i : Fin pageSize, after.get i = (byte? i.val).getD (before.get i)
  /-- Where the segment shows, its new bytes show at their offsets. -/
  shown : ∀ a c, m.board.bus.cell? a = some c → c.segment = n →
    m'.peek a = (byte? c.offset).getD (m.peek a)
  hidden : ∀ a, (∀ c, m.board.bus.cell? a = some c → c.segment ≠ n) → m'.peek a = m.peek a

/-- **Replacing a segment byte by byte** fills it. -/
theorem fills_modifySegment {n : Nat} (hn : n < m.segmentCount) {f : Segment → Segment}
    {byte? : Nat → Option UInt8}
    (hf : ∀ (s : Segment) (i : Fin pageSize), (f s).get i = (byte? i.val).getD (s.get i)) :
    Fills n byte? m (m.mapBus fun bus => bus.modifySegment n f) := by
  obtain ⟨segment, hsegment⟩ : ∃ segment, m.board.bus.segments[n]? = some segment :=
    ⟨_, Array.getElem?_eq_getElem hn⟩
  have hlayout := MemoryMap.SameLayout.modifySegment m.board.bus n f
  have hfilled : (m.board.bus.modifySegment n f).segments[n]? = some (f segment) := by
    rw [MemoryMap.getElem?_segments_modifySegment, if_pos rfl, hsegment]
    rfl
  refine {
    processor := ⟨rfl, rfl, rfl⟩
    guard := rfl
    layout := hlayout
    identities := rfl
    others := ?others
    bytes := ⟨_, _, hsegment, hfilled, fun i => hf _ i⟩
    shown := ?shown
    hidden := ?hidden }
  case others =>
    intro k hk
    exact (MemoryMap.getElem?_segments_modifySegment _ _ _ _).trans (if_neg (Ne.symm hk))
  case shown =>
    rintro a c hcell rfl
    obtain ⟨hshows, hselected, hoffset⟩ := MemoryMap.cell?_eq_some.mp hcell
    show (m.board.bus.modifySegment c.segment f).read a = _
    rw [hselected] at hsegment
    rw [MemoryMap.read_modifySegment _ _ hshows hsegment, if_pos hselected, hf, hoffset]
    exact congrArg _ (MemoryMap.read_eq hshows hsegment).symm
  case hidden =>
    intro a ha
    show (m.board.bus.modifySegment n f).read a = m.board.bus.read a
    cases hcell : m.board.bus.cell? a with
    | none => exact hlayout.read_of_no_cell hcell
    | some c =>
      obtain ⟨hshows, hselected, -⟩ := MemoryMap.cell?_eq_some.mp hcell
      rw [MemoryMap.read_modifySegment n f hshows (Array.getElem?_eq_getElem (Fin.isLt _)),
        if_neg fun heq => ha c hcell (hselected.trans heq.symm)]

/-- The bytes of data that is loaded from an offset on. -/
def loadedByte? (offset : Nat) (data : List UInt8) (i : Nat) : Option UInt8 :=
  if offset ≤ i then data[i - offset]? else none

theorem get_fillSegment (offset : Nat) (data : List UInt8) (s : Segment) (i : Fin pageSize) :
    (fillSegment s offset data).get i = (loadedByte? offset data i.val).getD (s.get i) := by
  have hget := getElem_fillSegment s offset data i.val i.isLt
  unfold loadedByte?
  split
  · rename_i hle
    rw [if_pos hle] at hget
    exact hget
  · rename_i hlt
    rw [if_neg hlt] at hget
    exact hget

/-- **The bytes of the driver module**: its signature, and a return at each entry point. -/
def driverByte? (i : Nat) : Option UInt8 :=
  if i < 14 then signature[i]?
  else if i ∈ [0x20, 0x23, 0x26, 0x29, 0x2C, 0x2F] then some 0xC9
  else none

theorem getElem_setEach (offsets : List Nat) (b : UInt8) (s : Segment) (i : Nat)
    (hi : i < pageSize) :
    (offsets.foldl (fun s offset => s.setIfInBounds offset b) s)[i] =
      if i ∈ offsets then b else s[i] := by
  induction offsets generalizing s with
  | nil => simp
  | cons offset offsets ih =>
    rw [List.foldl_cons, ih, Vector.getElem_setIfInBounds]
    by_cases hlater : i ∈ offsets
    · rw [if_pos hlater, if_pos (List.mem_cons_of_mem _ hlater)]
    · by_cases hhere : offset = i
      · simp [hhere]
      · simp [hlater, hhere, Ne.symm hhere]

theorem get_withDriver (s : Segment) (i : Fin pageSize) :
    (withDriver s).get i = (driverByte? i.val).getD (s.get i) := by
  have hoffsets : EntryPoint.all.map (fun entry => driverOffset entry.address) =
      [0x20, 0x23, 0x26, 0x29, 0x2C, 0x2F] := rfl
  have hsigned := getElem_fillSegment s 0 signature i.val i.isLt
  rw [if_pos (Nat.zero_le _), Nat.sub_zero] at hsigned
  have hset := getElem_setEach [0x20, 0x23, 0x26, 0x29, 0x2C, 0x2F] retOpcode
    (fillSegment s 0 signature) i.val i.isLt
  rw [← hoffsets, List.foldl_map, hoffsets, hsigned] at hset
  refine Eq.trans hset ?_
  unfold driverByte?
  by_cases hlt : i.val < 14
  · have hbefore : i.val ∉ [0x20, 0x23, 0x26, 0x29, 0x2C, 0x2F] := by
      simp only [List.mem_cons, List.not_mem_nil, or_false]
      omega
    rw [if_neg hbefore, if_pos hlt]
    rfl
  · rw [if_neg hlt]
    split
    · rfl
    · have hbehind : signature[i.val]? = none := List.getElem?_eq_none (Nat.le_of_not_lt hlt)
      rw [hbehind]
      rfl

/-! ## Section 2: Slots -/

/-- **A slot is filled**: this read-only memory is in it, and nothing else changes. -/
structure PlugsIn (slot : Nat) (image : List UInt8) (m m' : Machine) : Prop where
  processor : m'.board.cpu = m.board.cpu ∧ m'.clock = m.clock ∧ m'.limit = m.limit
  guard : m'.guard = m.guard
  segments : m'.board.bus.segments = m.board.bus.segments
  selection : m'.board.bus.selected = m.board.bus.selected ∧
    m'.board.bus.slotSelect = m.board.bus.slotSelect
  identities : m'.nextDevice = m.nextDevice.next
  slots : ∀ k : Fin romSlots, m'.board.bus.roms.get k =
    if k.val = slot then some ⟨m.nextDevice, image.toArray⟩ else m.board.bus.roms.get k
  /-- Where the slot shows, the image shows at its offsets, and ones behind the end of it. -/
  shown : ∀ a, a.toNat / 0x4000 = 1 → ((m.board.bus.slotSelect >>> 2) &&& 3).toNat = slot →
    m'.peek a = (image[a.toNat % 0x4000]?).getD 0xFF
  hidden : ∀ a, ¬ (a.toNat / 0x4000 = 1 ∧ ((m.board.bus.slotSelect >>> 2) &&& 3).toNat = slot) →
    m'.peek a = m.peek a

/-- **Other read-only memory in a slot.** -/
theorem plugsIn_pluggedIn {slot : Nat} (hslot : slot < romSlots) (image : List UInt8) :
    PlugsIn slot image m (m.pluggedIn slot image hslot) := by
  have hslots : ∀ k : Fin romSlots,
      (m.board.bus.roms.set slot (some ⟨m.nextDevice, image.toArray⟩) hslot).get k =
        if k.val = slot then some ⟨m.nextDevice, image.toArray⟩
        else m.board.bus.roms.get k := by
    intro k
    refine (Vector.getElem_set hslot k.isLt).trans ?_
    simp only [eq_comm (a := k.val)]
    rfl
  let bus' : MemoryMap := { m.board.bus with
    roms := m.board.bus.roms.set slot (some ⟨m.nextDevice, image.toArray⟩) hslot }
  have hcell : ∀ a, bus'.cell? a = m.board.bus.cell? a := fun a => rfl
  refine {
    processor := ⟨rfl, rfl, rfl⟩
    guard := rfl
    segments := rfl
    selection := ⟨rfl, rfl⟩
    identities := rfl
    slots := hslots
    shown := ?shown
    hidden := ?hidden }
  case shown =>
    intro a hpage hselected
    -- slot 3 is the mapper, so no cell shows here
    have hrom : (m.board.bus.slotSelect >>> 2) &&& 3 ≠ 3 := by
      intro hmapper
      rw [hmapper] at hselected
      exact absurd hslot (hselected ▸ Nat.lt_irrefl 3)
    have hnone : bus'.cell? a = none := if_pos ⟨hpage, hrom⟩
    obtain ⟨k, hk, hread⟩ := MemoryMap.read_of_no_cell hnone
    refine hread.trans ?_
    have hget : bus'.roms.get k = some ⟨m.nextDevice, image.toArray⟩ :=
      (hslots k).trans (if_pos (hk.trans hselected))
    rw [hget, Option.bind_some, List.getElem?_toArray]
  case hidden =>
    intro a ha
    show bus'.read a = m.board.bus.read a
    cases hshown : m.board.bus.cell? a with
    | some c => exact MemoryMap.read_eq_of_cell? rfl hshown ((hcell a).trans hshown)
    | none =>
      obtain ⟨k, hk, hread⟩ := MemoryMap.read_of_no_cell hshown
      obtain ⟨k', hk', hread'⟩ := MemoryMap.read_of_no_cell ((hcell a).trans hshown)
      obtain rfl : k' = k := Fin.ext (hk'.trans hk.symm)
      have hpage : a.toNat / 0x4000 = 1 := by
        by_contra hother
        unfold MemoryMap.cell? at hshown
        rw [if_neg fun hrom => hother hrom.1] at hshown
        exact nomatch hshown
      have hget : bus'.roms.get k' = m.board.bus.roms.get k' :=
        (hslots k').trans (if_neg fun heq => ha ⟨hpage, hk ▸ heq⟩)
      rw [hread, hread', hget]

/-! ## Section 3: Requests -/

/-- **A precise request**: it is granted just when it is allowed, and then has this effect.
    Otherwise it is refused for this reason, and the machine stays as it is. -/
structure Precise (m : Machine) (request : Adjustment) (answer : Except SetupError Machine)
    (allowed : Prop) (effect : Machine → Prop) (reason : SetupError) : Prop where
  granted_iff : (∃ m', answer = .ok m') ↔ allowed
  granted : ∀ m', answer = .ok m' → m.adjust request = m' ∧ effect m'
  refused : ∀ e, answer = .error e → e = reason ∧ m.adjust request = m

variable {request : Adjustment} {answer : Except SetupError Machine} {allowed : Prop}
  {effect : Machine → Prop} {reason : SetupError}

theorem Precise.of_ok {m' : Machine} (hanswer : answer = .ok m') (hadjust : m.adjust request = m')
    (hallowed : allowed) (heffect : effect m') :
    m.Precise request answer allowed effect reason where
  granted_iff := iff_of_true ⟨m', hanswer⟩ hallowed
  granted m'' hok := by
    obtain rfl := Except.ok.inj (hanswer.symm.trans hok)
    exact ⟨hadjust, heffect⟩
  refused e herror := nomatch hanswer.symm.trans herror

theorem Precise.of_error (hanswer : answer = .error reason) (hadjust : m.adjust request = m)
    (hallowed : ¬ allowed) : m.Precise request answer allowed effect reason where
  granted_iff := iff_of_false (fun ⟨_, hok⟩ => nomatch hanswer.symm.trans hok) hallowed
  granted _ hok := nomatch hanswer.symm.trans hok
  refused _ herror := ⟨(Except.error.inj (hanswer.symm.trans herror)).symm, hadjust⟩

theorem precise_installDriver (m : Machine) (n : UInt8) :
    m.Precise (.installDriver n) (m.installDriver n) (n.toNat < m.segmentCount)
      (Fills n.toNat driverByte? m) (.invalidSegment n) := by
  by_cases hlt : n.toNat < m.segmentCount
  · have hok := installDriver_of_lt hlt
    exact .of_ok hok (by simp only [adjust, left_installDriver, hok]) hlt
      (fills_modifySegment hlt get_withDriver)
  · have herror : m.installDriver n = .error (.invalidSegment n) :=
      (m.installDriver_eq n).trans (if_pos (Nat.le_of_not_lt hlt))
    exact .of_error herror (by simp only [adjust, left_installDriver, herror]) hlt

/-- Data that is too large is refused for its size, whatever the segment is. -/
theorem precise_loadSegment (m : Machine) (n : UInt8) (offset : Nat) (data : List UInt8) :
    m.Precise (.loadSegment n offset data) (m.loadSegment n offset data)
      (n.toNat < m.segmentCount ∧ offset + data.length ≤ 0x4000)
      (Fills n.toNat (loadedByte? offset data) m)
      (if offset + data.length ≤ 0x4000 then .invalidSegment n
        else .imageTooLarge (offset + data.length)) := by
  by_cases hfit : offset + data.length ≤ 0x4000
  · rw [if_pos hfit]
    by_cases hlt : n.toNat < m.segmentCount
    · have hok := loadSegment_of_lt hfit hlt
      exact .of_ok hok (by simp only [adjust, left_loadSegment, hok]) ⟨hlt, hfit⟩
        (fills_modifySegment hlt (get_fillSegment offset data))
    · have herror : m.loadSegment n offset data = .error (.invalidSegment n) :=
        (m.loadSegment_eq n offset data).trans
          ((if_neg (Nat.not_lt_of_le hfit)).trans (if_pos (Nat.le_of_not_lt hlt)))
      exact .of_error herror (by simp only [adjust, left_loadSegment, herror])
        fun hallowed => hlt hallowed.1
  · rw [if_neg hfit]
    have herror : m.loadSegment n offset data = .error (.imageTooLarge (offset + data.length)) :=
      (m.loadSegment_eq n offset data).trans (if_pos (Nat.lt_of_not_le hfit))
    exact .of_error herror (by simp only [adjust, left_loadSegment, herror])
      fun hallowed => hfit hallowed.2

/-- A slot that takes no read-only memory is refused before the image is looked at. -/
theorem precise_insertRom (m : Machine) (slot : UInt8) (image : List UInt8) :
    m.Precise (.insertRom slot image) ((m.insertRom slot image).map Prod.fst)
      ((slot = 0 ∨ slot = 1 ∨ slot = 2) ∧ image.length ≤ 0x4000)
      (PlugsIn slot.toNat image m)
      (if slot = 0 ∨ slot = 1 ∨ slot = 2 then .imageTooLarge image.length
        else .slotWithoutRom slot) := by
  have hslots : (slot = 0 ∨ slot = 1 ∨ slot = 2) ↔ slot.toNat < romSlots := by
    simp only [← UInt8.toNat_inj, UInt8.reduceToNat, romSlots]
    omega
  by_cases hslot : slot.toNat < romSlots
  · rw [if_pos (hslots.mpr hslot)]
    by_cases hfit : image.length ≤ 0x4000
    · have hok := insertRom_of_lt (m := m) hslot hfit
      exact .of_ok (congrArg (Except.map Prod.fst) hok)
        (by simp only [adjust, left_insertRom, hok]) ⟨hslots.mpr hslot, hfit⟩
        (plugsIn_pluggedIn hslot image)
    · have herror : m.insertRom slot image = .error (.imageTooLarge image.length) :=
        (m.insertRom_eq slot image).trans
          ((dif_neg (Nat.not_le_of_lt hslot)).trans (if_pos (Nat.lt_of_not_le hfit)))
      exact .of_error (congrArg (Except.map Prod.fst) herror)
        (by simp only [adjust, left_insertRom, herror]) fun hallowed => hfit hallowed.2
  · rw [if_neg (mt hslots.mp hslot)]
    have herror : m.insertRom slot image = .error (.slotWithoutRom slot) :=
      (m.insertRom_eq slot image).trans (dif_pos (Nat.le_of_not_lt hslot))
    exact .of_error (congrArg (Except.map Prod.fst) herror)
      (by simp only [adjust, left_insertRom, herror]) fun hallowed => hslot (hslots.mp hallowed.1)

/-- **Filling a machine is precise.** The driver module and data are granted for each segment of the
    machine, read-only memory for the slots 0, 1 and 2, and nothing that would end behind a page.
    Whatever is refused leaves the machine as it is. What is granted changes the first fourteen
    bytes and the six entry points of the segment, the bytes that the data takes up, or the slot,
    and nothing else. The new bytes show at once wherever the segment or the slot shows, and no
    other address shows a change. -/
theorem loaders_precise (m : Machine) :
    (∀ n, m.Precise (.installDriver n) (m.installDriver n) (n.toNat < m.segmentCount)
      (Fills n.toNat driverByte? m) (.invalidSegment n)) ∧
    (∀ n offset data, m.Precise (.loadSegment n offset data) (m.loadSegment n offset data)
      (n.toNat < m.segmentCount ∧ offset + data.length ≤ 0x4000)
      (Fills n.toNat (loadedByte? offset data) m)
      (if offset + data.length ≤ 0x4000 then .invalidSegment n
        else .imageTooLarge (offset + data.length))) ∧
    ∀ slot image, m.Precise (.insertRom slot image) ((m.insertRom slot image).map Prod.fst)
      ((slot = 0 ∨ slot = 1 ∨ slot = 2) ∧ image.length ≤ 0x4000)
      (PlugsIn slot.toNat image m)
      (if slot = 0 ∨ slot = 1 ∨ slot = 2 then .imageTooLarge image.length
        else .slotWithoutRom slot) :=
  ⟨precise_installDriver m, precise_loadSegment m, precise_insertRom m⟩

end HostDrive.Machine

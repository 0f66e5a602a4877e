import HostDrive.Machine.Basic

/-!
# Requests to a Machine

A request looks at everything that it needs before it changes anything. So there are two ends to it:
it is granted with its whole effect, or refused with none.

## Architecture

- `Request.needSegment_bind` and `Request.needRoom_bind` are the checks: one that fails ends the
  request there, and one that does not leaves the machine to the rest of it.
- `Request.carryOut_installDriver`, `Request.carryOut_loadSegment` and `Request.carryOut_insertRom`
  say for each request when it is refused, and which machine it leaves.
- `installDriver_eq`, `loadSegment_eq` and `insertRom_eq` are the answers alone, and
  `left_installDriver`, `left_loadSegment` and `left_insertRom` the machines.
-/

namespace HostDrive.Machine

/-- The machine with read-only memory in a slot, under a number of its own. -/
def pluggedIn (m : Machine) (slot : Nat) (image : List UInt8) (hslot : slot < romSlots) : Machine :=
  { m.mapBus (fun bus => { bus with
      roms := bus.roms.set slot (some ⟨m.nextDevice, image.toArray⟩) hslot }) with
    nextDevice := m.nextDevice.next }

namespace Request

/-! ## Section 1: Checks -/

variable {α : Type} (rest : Unit → Request α) (m : Machine)

theorem needSegment_bind (n : UInt8) :
    (needSegment n >>= rest).carryOut m =
      if m.segmentCount ≤ n.toNat then (.error (.invalidSegment n), m)
      else (rest ()).carryOut m := by
  have hcheck : (needSegment n >>= rest).carryOut m =
      (((if m.segmentCount ≤ n.toNat then throw (.invalidSegment n) else pure ()) >>= rest :
        Request α)).carryOut m := rfl
  rw [hcheck]
  split <;> rfl

theorem needRoom_bind (size : Nat) :
    (needRoom size >>= rest).carryOut m =
      if pageSize < size then (.error (.imageTooLarge size), m) else (rest ()).carryOut m := by
  unfold needRoom
  split <;> rfl

/-! ## Section 2: Requests -/

/-- **The driver module** goes into a segment that there is, or nowhere. -/
theorem carryOut_installDriver (n : UInt8) :
    (installDriver n).carryOut m =
      if m.segmentCount ≤ n.toNat then (.error (.invalidSegment n), m)
      else (.ok (), m.mapBus fun bus => bus.modifySegment n.toNat withDriver) :=
  needSegment_bind _ m n

/-- **Data** goes into a segment that there is if it fits, or nowhere. -/
theorem carryOut_loadSegment (n : UInt8) (offset : Nat) (data : List UInt8) :
    (loadSegment n offset data).carryOut m =
      if pageSize < offset + data.length then (.error (.imageTooLarge (offset + data.length)), m)
      else if m.segmentCount ≤ n.toNat then (.error (.invalidSegment n), m)
      else (.ok (), m.mapBus fun bus =>
        bus.modifySegment n.toNat fun segment => fillSegment segment offset data) := by
  rw [loadSegment, needRoom_bind, needSegment_bind]
  rfl

/-- **Read-only memory** goes into a slot that takes it if it fits, or nowhere. Only then does it get
    a number. -/
theorem carryOut_insertRom (slot : UInt8) (image : List UInt8) :
    (insertRom slot image).carryOut m =
      if h : romSlots ≤ slot.toNat then (.error (.slotWithoutRom slot), m)
      else if pageSize < image.length then (.error (.imageTooLarge image.length), m)
      else (.ok m.nextDevice, m.pluggedIn slot.toNat image (Nat.lt_of_not_le h)) := by
  unfold insertRom
  split
  · rfl
  · rw [needRoom_bind]
    rfl

end Request

/-! ## Section 3: Answers -/

variable (m : Machine)

theorem installDriver_eq (n : UInt8) :
    m.installDriver n = if m.segmentCount ≤ n.toNat then .error (.invalidSegment n)
      else .ok (m.mapBus fun bus => bus.modifySegment n.toNat withDriver) := by
  rw [installDriver, Request.granted, Request.carryOut_installDriver]
  by_cases hnone : m.segmentCount ≤ n.toNat
  · simp only [if_pos hnone]
    rfl
  · simp only [if_neg hnone]
    rfl

theorem loadSegment_eq (n : UInt8) (offset : Nat) (data : List UInt8) :
    m.loadSegment n offset data =
      if pageSize < offset + data.length then .error (.imageTooLarge (offset + data.length))
      else if m.segmentCount ≤ n.toNat then .error (.invalidSegment n)
      else .ok (m.mapBus fun bus =>
        bus.modifySegment n.toNat fun segment => fillSegment segment offset data) := by
  rw [loadSegment, Request.granted, Request.carryOut_loadSegment]
  by_cases hlarge : pageSize < offset + data.length
  · simp only [if_pos hlarge]
    rfl
  · by_cases hnone : m.segmentCount ≤ n.toNat
    · simp only [if_neg hlarge, if_pos hnone]
      rfl
    · simp only [if_neg hlarge, if_neg hnone]
      rfl

theorem insertRom_eq (slot : UInt8) (image : List UInt8) :
    m.insertRom slot image =
      if h : romSlots ≤ slot.toNat then .error (.slotWithoutRom slot)
      else if pageSize < image.length then .error (.imageTooLarge image.length)
      else .ok (m.pluggedIn slot.toNat image (Nat.lt_of_not_le h), m.nextDevice) := by
  rw [insertRom, Request.granted, Request.carryOut_insertRom]
  by_cases hslot : romSlots ≤ slot.toNat
  · simp only [dif_pos hslot]
    rfl
  · by_cases hlarge : pageSize < image.length
    · simp only [dif_neg hslot, if_pos hlarge]
      rfl
    · simp only [dif_neg hslot, if_neg hlarge]
      rfl

/-- **A refused driver module** leaves the machine as it is. -/
theorem left_installDriver (n : UInt8) :
    ((Request.installDriver n).carryOut m).2 = match m.installDriver n with
      | .ok m' => m'
      | .error _ => m := by
  rw [Request.carryOut_installDriver, installDriver_eq]
  by_cases hnone : m.segmentCount ≤ n.toNat
  · simp only [if_pos hnone]
  · simp only [if_neg hnone]

/-- **Refused data** leaves the machine as it is. -/
theorem left_loadSegment (n : UInt8) (offset : Nat) (data : List UInt8) :
    ((Request.loadSegment n offset data).carryOut m).2 = match m.loadSegment n offset data with
      | .ok m' => m'
      | .error _ => m := by
  rw [Request.carryOut_loadSegment, loadSegment_eq]
  by_cases hlarge : pageSize < offset + data.length
  · simp only [if_pos hlarge]
  · by_cases hnone : m.segmentCount ≤ n.toNat
    · simp only [if_neg hlarge, if_pos hnone]
    · simp only [if_neg hlarge, if_neg hnone]

/-- **Refused read-only memory** leaves the machine as it is, without a number taken. -/
theorem left_insertRom (slot : UInt8) (image : List UInt8) :
    ((Request.insertRom slot image).carryOut m).2 = match m.insertRom slot image with
      | .ok (m', _) => m'
      | .error _ => m := by
  rw [Request.carryOut_insertRom, insertRom_eq]
  by_cases hslot : romSlots ≤ slot.toNat
  · simp only [dif_pos hslot]
  · by_cases hlarge : pageSize < image.length
    · simp only [dif_neg hslot, if_pos hlarge]
    · simp only [dif_neg hslot, if_neg hlarge]

/-! ## Section 4: Granted requests -/

variable {m : Machine} {m' : Machine}

theorem installDriver_of_lt {n : UInt8} (h : n.toNat < m.segmentCount) :
    m.installDriver n = .ok (m.mapBus fun bus => bus.modifySegment n.toNat withDriver) :=
  (m.installDriver_eq n).trans (if_neg (Nat.not_le_of_lt h))

theorem loadSegment_of_lt {n : UInt8} {offset : Nat} {data : List UInt8}
    (hfit : offset + data.length ≤ pageSize) (h : n.toNat < m.segmentCount) :
    m.loadSegment n offset data = .ok (m.mapBus fun bus =>
      bus.modifySegment n.toNat fun segment => fillSegment segment offset data) :=
  (m.loadSegment_eq n offset data).trans
    ((if_neg (Nat.not_lt_of_le hfit)).trans (if_neg (Nat.not_le_of_lt h)))

theorem insertRom_of_lt {slot : UInt8} {image : List UInt8} (hslot : slot.toNat < romSlots)
    (hfit : image.length ≤ pageSize) :
    m.insertRom slot image = .ok (m.pluggedIn slot.toNat image hslot, m.nextDevice) :=
  (m.insertRom_eq slot image).trans
    ((dif_neg (Nat.not_le_of_lt hslot)).trans (if_neg (Nat.not_lt_of_le hfit)))

/-- The driver module is installed only if there is such a segment. -/
theorem installDriver_eq_ok {n : UInt8} (h : m.installDriver n = .ok m') :
    n.toNat < m.segmentCount ∧
      m' = m.mapBus fun bus => bus.modifySegment n.toNat withDriver := by
  rw [installDriver_eq] at h
  split at h
  · exact nomatch h
  · rename_i hlt
    exact ⟨Nat.lt_of_not_le hlt, (Except.ok.inj h).symm⟩

/-- Data is loaded only if there is such a segment, and if the data fits. -/
theorem loadSegment_eq_ok {n : UInt8} {offset : Nat} {data : List UInt8}
    (h : m.loadSegment n offset data = .ok m') :
    offset + data.length ≤ pageSize ∧ n.toNat < m.segmentCount ∧
      m' = m.mapBus fun bus => bus.modifySegment n.toNat fun s => fillSegment s offset data := by
  rw [loadSegment_eq] at h
  split at h
  · exact nomatch h
  · rename_i hfit
    split at h
    · exact nomatch h
    · rename_i hlt
      exact ⟨Nat.le_of_not_lt hfit, Nat.lt_of_not_le hlt, (Except.ok.inj h).symm⟩

/-- Read-only memory is plugged in only if the slot can hold it, and if it fits a page. Its number
    is the next one. -/
theorem insertRom_eq_ok {slot : UInt8} {image : List UInt8} {device : DeviceId}
    (h : m.insertRom slot image = .ok (m', device)) :
    ∃ hslot : slot.toNat < romSlots, image.length ≤ pageSize ∧ device = m.nextDevice ∧
      m' = m.pluggedIn slot.toNat image hslot := by
  rw [insertRom_eq] at h
  split at h
  · exact nomatch h
  · rename_i hslot
    split at h
    · exact nomatch h
    · rename_i hfit
      obtain ⟨rfl, rfl⟩ := Prod.mk.inj (Except.ok.inj h)
      exact ⟨Nat.lt_of_not_le hslot, Nat.le_of_not_lt hfit, rfl, rfl⟩

end HostDrive.Machine

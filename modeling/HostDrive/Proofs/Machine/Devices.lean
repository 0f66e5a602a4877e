import HostDrive.Proofs.Machine.Reachable

/-!
# Numbers of Devices

All devices are numbered from one counter, which starts over after 4294967296 numbers. As long as
fewer devices than that were made behind a mapper, none of them has its number. The next one has.

## Architecture

- `DeviceId.after` counts without a bound; `DeviceId.after_eq_self_iff` says when the numbers come
  round.
- `MemoryMap.SameParts` is what a processor cannot change, the read-only memory in the slots among
  it.
- `Machine.Numbered` is the invariant of the counter; `Numbered.operates` is its step by an
  operation, and `Machine.numbered_of_reachable` the history.
-/

namespace HostDrive

/-! ## Section 1: The counter -/

namespace DeviceId

/-- The identity of the device that is made as the `n`-th behind this one. -/
def after (device : DeviceId) (n : Nat) : DeviceId := ⟨device.number + UInt32.ofNat n⟩

theorem next_after (device : DeviceId) (n : Nat) :
    (device.after n).next = device.after (n + 1) := by
  have hnumber : (device.after n).next.number = (device.after (n + 1)).number := by
    show device.number + UInt32.ofNat n + 1 = device.number + UInt32.ofNat (n + 1)
    rw [UInt32.ofNat_add, UInt32.add_assoc]
    rfl
  exact congrArg DeviceId.mk hnumber

/-- **The numbers come round** after 4294967296 devices, and not before. -/
theorem after_eq_self_iff (device : DeviceId) (n : Nat) :
    device.after n = device ↔ 4294967296 ∣ n := by
  obtain ⟨number⟩ := device
  have hlt := number.toNat_lt
  rw [after, DeviceId.mk.injEq, ← UInt32.toNat_inj, UInt32.toNat_add, UInt32.toNat_ofNat',
    Nat.dvd_iff_mod_eq_zero]
  simp only [Nat.reducePow] at hlt ⊢
  omega

end DeviceId

/-! ## Section 2: Parts of a map -/

namespace MemoryMap

/-- **Same parts**: as many segments in the same mapper, and the same read-only memory in the slots.
    Neither writing nor selecting changes them. -/
structure SameParts (m m' : MemoryMap) : Prop where
  mapper : m'.mapper = m.mapper
  size : m'.segments.size = m.segments.size
  roms : m'.roms = m.roms

theorem SameParts.refl (m : MemoryMap) : SameParts m m := ⟨rfl, rfl, rfl⟩

theorem SameParts.trans {m m' m'' : MemoryMap} (h : SameParts m m') (h' : SameParts m' m'') :
    SameParts m m'' :=
  ⟨h'.mapper.trans h.mapper, h'.size.trans h.size, h'.roms.trans h.roms⟩

theorem SameLayout.sameParts {m m' : MemoryMap} (h : SameLayout m m') : SameParts m m' :=
  ⟨h.mapper, h.size, h.roms⟩

theorem sameParts_output (m : MemoryMap) (address : UInt16) (b : UInt8) :
    SameParts m (m.output address b) := by
  unfold output
  simp only
  split
  · exact ⟨rfl, rfl, rfl⟩
  · split
    · exact ⟨rfl, rfl, rfl⟩
    · exact .refl m

/-- No program changes the parts of the map that it runs on. -/
theorem keeps_sameParts (m : MemoryMap) : Z80.Bus.Keeps (SameParts m) where
  write bus address b h := h.trans (SameLayout.write bus address b).sameParts
  output bus address b h := h.trans (bus.sameParts_output address b)

/-- All the read-only memory was made behind the mapper, as one of so many devices. -/
def RomsBehind (made : Nat) (m : MemoryMap) : Prop :=
  ∀ slot : Fin romSlots, ∀ rom, m.roms.get slot = some rom →
    ∃ n, 0 < n ∧ n ≤ made ∧ rom.device = m.mapper.after n

theorem RomsBehind.of_sameParts {made : Nat} {m m' : MemoryMap} (h : m.RomsBehind made)
    (hparts : SameParts m m') : m'.RomsBehind made := by
  unfold RomsBehind
  rw [hparts.roms, hparts.mapper]
  exact h

theorem RomsBehind.mono {made made' : Nat} {m : MemoryMap} (h : m.RomsBehind made)
    (hle : made ≤ made') : m.RomsBehind made' := by
  intro slot rom hrom
  obtain ⟨n, hpos, hn, hdevice⟩ := h slot rom hrom
  exact ⟨n, hpos, Nat.le_trans hn hle, hdevice⟩

/-- **No device passes for the mapper** before the numbers come round. -/
theorem RomsBehind.ne_mapper {made : Nat} {m : MemoryMap} (h : m.RomsBehind made)
    (hfew : made < 4294967296) {slot : Fin romSlots} {rom : Rom}
    (hrom : m.roms.get slot = some rom) : rom.device ≠ m.mapper := by
  obtain ⟨n, hpos, hn, hdevice⟩ := h slot rom hrom
  rw [hdevice]
  intro hround
  have hdvd : 4294967296 ∣ n := (DeviceId.after_eq_self_iff _ n).mp hround
  have hle := Nat.le_of_dvd hpos hdvd
  omega

end MemoryMap

/-! ## Section 3: The counter of a machine -/

namespace Machine

/-- **The numbers are in order**: the next one is that behind all devices made so far, and all the
    read-only memory is among these. -/
structure Numbered (made : Nat) (m : Machine) : Prop where
  next : m.nextDevice = m.board.bus.mapper.after (made + 1)
  roms : m.board.bus.RomsBehind made

variable {made : Nat} {m m' : Machine}

/-- **The step by plugging in**: the new memory is the next device. -/
theorem Numbered.insertRom (h : m.Numbered made) {slot : UInt8} {image : List UInt8}
    {device : DeviceId} (hok : m.insertRom slot image = .ok (m', device)) :
    m'.Numbered (made + 1) := by
  obtain ⟨hslot, -, -, rfl⟩ := insertRom_eq_ok hok
  refine ⟨(congrArg DeviceId.next h.next).trans (DeviceId.next_after _ _), ?_⟩
  intro other rom hrom
  have hget : (m.board.bus.roms.set slot.toNat (some ⟨m.nextDevice, image.toArray⟩)
      hslot)[other.val] = some rom := hrom
  rw [Vector.getElem_set] at hget
  split at hget
  · obtain rfl := Option.some.inj hget
    exact ⟨made + 1, Nat.succ_pos made, Nat.le_refl _, h.next⟩
  · exact h.roms.mono (Nat.le_succ made) other rom hget

/-- On the same parts the numbers stay in order, if none is taken. -/
theorem Numbered.of_sameParts (h : m.Numbered made) (hnone : m'.nextDevice = m.nextDevice)
    (hparts : m.board.bus.SameParts m'.board.bus) : m'.Numbered made where
  next := by rw [hnone, h.next, hparts.mapper]
  roms := h.roms.of_sameParts hparts

/-- **The step by an operation** that makes no device. -/
theorem Numbered.operates (h : m.Numbered made) (hop : m.Operates m')
    (hnone : m'.nextDevice = m.nextDevice) : m'.Numbered made := by
  cases hop with
  | installDriver hok =>
    obtain ⟨-, rfl⟩ := installDriver_eq_ok hok
    exact h.of_sameParts hnone (MemoryMap.SameLayout.modifySegment _ _ _).sameParts
  | loadSegment hok =>
    obtain ⟨-, -, rfl⟩ := loadSegment_eq_ok hok
    exact h.of_sameParts hnone (MemoryMap.SameLayout.modifySegment _ _ _).sameParts
  | insertRom hok =>
    -- the number would have to be its own successor
    obtain ⟨_, -, -, rfl⟩ := insertRom_eq_ok hok
    have hround : m.nextDevice.after 1 = m.nextDevice := hnone
    exact absurd ((DeviceId.after_eq_self_iff _ 1).mp hround) (by decide)
  | selectPage1Slot | selectSegment | setLimit => exact h.of_sameParts hnone ⟨rfl, rfl, rfl⟩
  | poke address b =>
    exact h.of_sameParts hnone (MemoryMap.SameLayout.write _ address b).sameParts
  | run hrun =>
    obtain ⟨last, hlast, hboard, -⟩ :=
      run?_keeps hrun (.of_bus m.board.bus.keeps_sameParts _) (.refl _)
    exact h.of_sameParts hnone (hboard ▸ hlast)

/-- **Every reachable machine has its numbers in order.** -/
theorem numbered_of_reachable {segments : Nat} (h : m.Reachable segments made) :
    m.Numbered made := by
  induction h with
  | new device =>
    refine ⟨rfl, ?_⟩
    intro slot rom hrom
    have hempty : (MemoryMap.new segments device).roms.get slot = none :=
      Vector.getElem_replicate slot.isLt
    exact nomatch hempty.symm.trans hrom
  | attach _ drive ih => exact ⟨ih.next, ih.roms⟩
  | insertRom _ hok ih => exact ih.insertRom hok
  | elsewhere _ ih =>
    exact ⟨(congrArg DeviceId.next ih.next).trans (DeviceId.next_after _ _),
      ih.roms.mono (Nat.le_succ _)⟩
  | operate _ hop hnone ih => exact ih.operates hop hnone

/-- **The next device passes for the mapper** each time that the numbers come round. -/
theorem Numbered.next_eq_mapper_iff (h : m.Numbered made) :
    m.nextDevice = m.board.bus.mapper ↔ 4294967296 ∣ made + 1 := by
  rw [h.next, DeviceId.after_eq_self_iff]

end Machine

end HostDrive

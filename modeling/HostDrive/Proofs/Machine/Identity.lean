import HostDrive.Proofs.Machine.Devices
import Mathlib.Tactic.ByContra

/-!
# The Identity of the Driver on a Machine

Whatever programs a machine runs, and however it is operated on, the token of its guard names the
mapper and one of its segments. So once the token is known, a routine is answered exactly where
page 1 shows that segment: in no other slot, whatever is plugged in there, and for no other segment,
whatever it holds.

The one exception is a device that has the number of the mapper. There is none as long as fewer than
4294967296 devices were made behind the mapper, and the next one is one.

## Architecture

- `MemoryMap.ShowsAsMapper` is what the guard takes for the mapper; `shows_iff` says what the
  driver's page shows in terms of that and of the register that selects the segment.
- `Sound` is the invariant of the token. `Sound.fetch` is its step by a call, `Sound.of_same` that by
  an instruction, and `Sound.operates` that by an operation.
- `Machine.sound_of_reachable` is the history.
- `Recognised` is what a known token means in general, `Identified` as long as its number is that of
  the mapper alone.
-/

namespace HostDrive

/-! ## Section 1: What passes for the mapper -/

namespace MemoryMap

variable {m : MemoryMap}

/-- **Page 1 shows the number of the mapper**: the mapper itself in slot 3, or read-only memory of
    the same number in the slot that is selected. -/
def ShowsAsMapper (m : MemoryMap) : Prop :=
  (m.slotSelect >>> 2) &&& 3 = 3 ∨ ∃ slot : Fin romSlots, ∃ rom,
    slot.val = ((m.slotSelect >>> 2) &&& 3).toNat ∧ m.roms.get slot = some rom ∧
      rom.device = m.mapper

theorem shownRom?_eq_some_iff {rom : Rom} :
    m.shownRom? = some rom ↔ ∃ slot : Fin romSlots,
      slot.val = ((m.slotSelect >>> 2) &&& 3).toNat ∧ m.roms.get slot = some rom := by
  -- the slot may hold nothing, or have a number that no slot has
  unfold shownRom?
  constructor
  · intro h
    split at h
    case h_1 rom? hget =>
      obtain ⟨hlt, hslot⟩ := Vector.getElem?_eq_some_iff.mp hget
      exact ⟨⟨m.page1Slot.toNat, hlt⟩, rfl, hslot.trans h⟩
    case h_2 => exact nomatch h
  · rintro ⟨slot, hslot, hrom⟩
    have hget : m.roms[m.page1Slot.toNat]? = some (some rom) := by
      rw [← show slot.val = m.page1Slot.toNat from hslot]
      exact Vector.getElem?_eq_some_iff.mpr ⟨slot.isLt, hrom⟩
    rw [hget]

theorem showsMapper_driverPage :
    m.showsMapper driverPage = true ↔ (m.slotSelect >>> 2) &&& 3 = 3 := by
  simp [showsMapper, driverPage, page1Slot, mapperSlot]

/-- The slots find the mapper in page 1 exactly if its number shows there. -/
theorem deviceInPage_driverPage_iff :
    m.deviceInPage driverPage = some m.mapper ↔ m.ShowsAsMapper := by
  unfold deviceInPage ShowsAsMapper
  by_cases hmapper : m.showsMapper driverPage = true
  · rw [if_pos hmapper]
    exact iff_of_true rfl (.inl (showsMapper_driverPage.mp hmapper))
  · have hslot : ¬ (m.slotSelect >>> 2) &&& 3 = 3 := mt showsMapper_driverPage.mpr hmapper
    rw [if_neg hmapper, or_iff_right hslot, Option.map_eq_some_iff]
    constructor
    · rintro ⟨rom, hrom, hdevice⟩
      obtain ⟨slot, hnumber, hget⟩ := shownRom?_eq_some_iff.mp hrom
      exact ⟨slot, rom, hnumber, hget, hdevice⟩
    · rintro ⟨slot, rom, hnumber, hget, hdevice⟩
      exact ⟨rom, shownRom?_eq_some_iff.mpr ⟨slot, hnumber, hget⟩, hdevice⟩

/-- Before the numbers come round, only the mapper passes for the mapper. -/
theorem RomsBehind.showsAsMapper_iff {made : Nat} (h : m.RomsBehind made)
    (hfew : made < 4294967296) : m.ShowsAsMapper ↔ (m.slotSelect >>> 2) &&& 3 = 3 :=
  or_iff_left fun ⟨_, _, _, hrom, hdevice⟩ => h.ne_mapper hfew hrom hdevice

/-- A segment number fits the byte that is to hold it. -/
theorem toNat_segmentOf (m : MemoryMap) (page : Page) :
    (UInt8.ofNat (m.segmentOf page).val).toNat = (m.segmentOf page).val := by
  have hlt : (m.segmentOf page).val < 256 := Nat.lt_of_lt_of_le (m.segmentOf page).isLt m.le_max
  rw [UInt8.toNat_ofNat', Nat.mod_eq_of_lt hlt]

end MemoryMap

/-- What the driver's page shows, if the guard can know it: a segment of the mapper. -/
theorem Shows.device_block {b : Board} {token : Token} (h : Shows b token) :
    token.device = b.bus.mapper ∧
      token.block.toNat = b.bus.selected[driverPage].toNat % b.bus.segments.size := by
  obtain ⟨-, hblock⟩ := h
  have hblock' : b.bus.blockInPage token.device driverPage = some token.block := hblock
  unfold MemoryMap.blockInPage at hblock'
  split at hblock'
  · rename_i hdevice
    rw [← Option.some.inj hblock', MemoryMap.toNat_segmentOf]
    exact ⟨hdevice, rfl⟩
  · exact nomatch hblock'

/-- **What the driver's page shows**, in terms of the registers: a token of the mapper shows exactly
    if something passes for the mapper and the register of the page selects its segment. -/
theorem shows_iff {b : Board} {token : Token} (hdevice : token.device = b.bus.mapper) :
    Shows b token ↔ b.bus.ShowsAsMapper ∧
      b.bus.selected[driverPage].toNat % b.bus.segments.size = token.block.toNat := by
  have hin : Slots.deviceInPage b driverPage = some token.device ↔ b.bus.ShowsAsMapper := by
    rw [hdevice]
    exact MemoryMap.deviceInPage_driverPage_iff
  constructor
  · exact fun hshows => ⟨hin.mp hshows.1, hshows.device_block.2.symm⟩
  · rintro ⟨hmapper, hselected⟩
    have hblock : UInt8.ofNat (b.bus.segmentOf driverPage).val = token.block :=
      UInt8.toNat_inj.mp ((b.bus.toNat_segmentOf driverPage).trans hselected)
    refine ⟨hin.mpr hmapper, ?_⟩
    show b.bus.blockInPage token.device driverPage = _
    rw [MemoryMap.blockInPage, if_pos hdevice, hblock]

/-! ## Section 2: The invariant -/

/-- **A sound identity**: there are this many segments, and a token that is known names the mapper
    and one of them. -/
structure Sound (count : Nat) (map : MemoryMap) (guard? : Option Guard) : Prop where
  size : map.segments.size = count
  token : ∀ guard token, guard? = some guard → guard.token = some token →
    token.device = map.mapper ∧ token.block.toNat < count

namespace Sound

variable {count : Nat} {map map' : MemoryMap} {guard? : Option Guard} {host : Host}

/-- Neither the read-only memory nor what is selected matters. -/
theorem of_same (h : Sound count map guard?) (hmapper : map'.mapper = map.mapper)
    (hsize : map'.segments.size = map.segments.size) : Sound count map' guard? := by
  refine ⟨hsize.trans h.size, ?_⟩
  rw [hmapper]
  exact h.token

theorem of_sameLayout (h : Sound count map guard?) (hlayout : map.SameLayout map') :
    Sound count map' guard? :=
  h.of_same hlayout.mapper hlayout.size

/-- **The step by a call**: the guard knows what it knew, or what it captured. -/
theorem fetch {b : Board} {guard : Guard} (h : Sound count b.bus (some guard)) :
    Sound count (guard.fetch ⟨host, b⟩).2.2.bus (some (guard.fetch ⟨host, b⟩).1) := by
  have hlayout := Board.sameLayout_fetch guard host b
  refine ⟨hlayout.size.trans h.size, ?_⟩
  rw [hlayout.mapper]
  rintro guard' token ⟨⟩ htoken
  rcases Guard.token_fetch.mp htoken with hknown | ⟨-, -, hshows, -⟩
  · exact h.token guard token rfl hknown
  · -- a token that is new names what the driver's page shows
    obtain ⟨hdevice, hblock⟩ := hshows.device_block
    have hsize : 0 < b.bus.segments.size := Nat.lt_of_lt_of_le (by decide) b.bus.four_le
    refine ⟨hdevice, ?_⟩
    rw [hblock, ← h.size]
    exact Nat.mod_lt _ hsize

/-- The identity stays sound as long as a run goes on. -/
theorem keeps (count : Nat) (host : Host) :
    Run.Keeps host fun run => Sound count run.board.bus run.guard where
  answered run guard service hguard _ h := by
    rw [hguard] at h
    exact h.fetch
  execute run h := by
    have hparts : run.board.bus.SameParts run.execute.board.bus :=
      Z80.State.step_keeps run.board.bus.keeps_sameParts (.refl _)
    exact h.of_same hparts.mapper hparts.size

/-- **The step by an operation.** -/
theorem operates {m m' : Machine} (h : Sound count m.board.bus m.guard) (hop : m.Operates m') :
    Sound count m'.board.bus m'.guard := by
  cases hop with
  | installDriver hok =>
    obtain ⟨-, rfl⟩ := Machine.installDriver_eq_ok hok
    exact h.of_sameLayout (.modifySegment _ _ _)
  | loadSegment hok =>
    obtain ⟨-, -, rfl⟩ := Machine.loadSegment_eq_ok hok
    exact h.of_sameLayout (.modifySegment _ _ _)
  | insertRom hok =>
    obtain ⟨_, -, -, rfl⟩ := Machine.insertRom_eq_ok hok
    exact h.of_same rfl rfl
  | selectPage1Slot slot => exact h.of_same rfl rfl
  | selectSegment page n => exact h.of_same rfl rfl
  | poke address b => exact h.of_sameLayout (.write _ _ _)
  | setLimit limit => exact h
  | run hrun =>
    obtain ⟨last, hlast, hboard, hguard⟩ := Machine.run?_keeps hrun (keeps count _) h
    rw [hboard, hguard]
    exact hlast

end Sound

/-- **Every reachable machine has a sound identity.** -/
theorem Machine.sound_of_reachable {segments made : Nat} {m : Machine}
    (h : m.Reachable segments made) :
    Sound (max 4 (min segments 256)) m.board.bus m.guard := by
  induction h with
  | new => exact ⟨Array.size_replicate, nofun⟩
  | attach _ drive ih =>
    refine ⟨ih.size, ?_⟩
    rintro guard token ⟨⟩ htoken
    exact nomatch htoken
  | insertRom _ hok ih => exact ih.operates (.insertRom hok)
  | elsewhere _ ih => exact ih
  | operate _ hop _ ih => exact ih.operates hop

/-! ## Section 3: What a known token means -/

/-- A turn with instructions left logs a service exactly if the guard answers the fetch. -/
theorem Run.serviced_turn_iff {host : Host} {limit : Nat} {run : Run} {guard : Guard}
    (hlt : run.executed < limit) (hguard : run.guard = some guard) :
    (∃ service, (run.turn host limit).1.serviced = run.serviced.push service) ↔
      guard.Services ⟨host, run.board⟩ := by
  constructor
  · rintro ⟨service, hpush⟩
    by_contra hnot
    -- an instruction logs nothing, so the log would be longer than itself
    rw [turn_of_not_services hlt hguard hnot] at hpush
    have hsize : run.serviced.size = (run.serviced.push service).size := congrArg Array.size hpush
    rw [Array.size_push] at hsize
    omega
  · rintro ⟨entry, status, hserviced⟩
    rw [turn_of_services hlt hguard hserviced]
    exact ⟨⟨entry, status⟩, rfl⟩

/-- With a sound identity, and a known token, a routine is answered exactly where something passes
    for the mapper and the register of page 1 selects the segment of the token. -/
theorem Sound.services_iff {count : Nat} {b : Board} {guard : Guard} {token : Token}
    (h : Sound count b.bus (some guard)) (htoken : guard.token = some token) (host : Host) :
    guard.Services ⟨host, b⟩ ↔ b.cpu.pc ∈ entryAddresses ∧ b.bus.ShowsAsMapper ∧
      b.bus.selected[driverPage].toNat % count = token.block.toNat := by
  have hdevice := (h.token guard token rfl htoken).1
  have htrusts : (∃ token', Trusts guard.token b token') ↔ Shows b token := by
    -- there is no choice left of which token to trust
    rw [htoken]
    constructor
    · rintro ⟨token', hshows, hknown | ⟨hunknown, -⟩⟩
      · obtain rfl := Option.some.inj hknown
        exact hshows
      · exact nomatch hunknown
    · exact fun hshows => ⟨token, hshows, .inl rfl⟩
  rw [Guard.services_iff, htrusts, shows_iff hdevice, h.size]
  exact Iff.rfl

/-- **What a known token means** at a fetch of a run. -/
structure Recognised (count : Nat) (host : Host) (limit : Nat) (run : Run) (guard : Guard)
    (token : Token) : Prop where
  /-- The token names the mapper, and a segment that there is. -/
  size : run.board.bus.segments.size = count
  device : token.device = run.board.bus.mapper
  block : token.block.toNat < count
  /-- At an entry point the drive answers exactly if page 1 shows slot 3, or read-only memory that
      has the number of the mapper, and its register selects the segment that the token names. -/
  services : run.board.cpu.pc ∈ entryAddresses →
    (guard.Services ⟨host, run.board⟩ ↔
      ((run.board.bus.slotSelect >>> 2) &&& 3 = 3 ∨ ∃ slot : Fin romSlots, ∃ rom,
        slot.val = ((run.board.bus.slotSelect >>> 2) &&& 3).toNat ∧
          run.board.bus.roms.get slot = some rom ∧ rom.device = token.device) ∧
      run.board.bus.selected[driverPage].toNat % count = token.block.toNat)
  logs : run.executed < limit →
    ((∃ service, (run.turn host limit).1.serviced = run.serviced.push service) ↔
      guard.Services ⟨host, run.board⟩)
  /-- No other segment is answered, whatever it holds. -/
  otherSegment : run.board.bus.selected[driverPage].toNat % count ≠ token.block.toNat →
    ¬ guard.Services ⟨host, run.board⟩
  /-- Any number will do in the register of page 1 that selects the segment. -/
  anyNumber : run.board.cpu.pc ∈ entryAddresses → (run.board.bus.slotSelect >>> 2) &&& 3 = 3 →
    ∀ n : UInt8, n.toNat % count = token.block.toNat →
      guard.Services ⟨host,
        { run.board with bus := run.board.bus.selectSegment driverPage n }⟩

/-- **What it means as long as its number is that of the mapper alone.** -/
structure Identified (count : Nat) (host : Host) (run : Run) (guard : Guard) (token : Token) :
    Prop where
  notRom : ∀ slot : Fin romSlots, ∀ rom, run.board.bus.roms.get slot = some rom →
    rom.device ≠ token.device
  /-- At an entry point the drive answers exactly if page 1 shows slot 3 and the segment that the
      token names. -/
  services : run.board.cpu.pc ∈ entryAddresses →
    (guard.Services ⟨host, run.board⟩ ↔ (run.board.bus.slotSelect >>> 2) &&& 3 = 3 ∧
      run.board.bus.selected[driverPage].toNat % count = token.block.toNat)
  /-- Nothing in another slot is answered, with the signature or without. -/
  otherSlot : (run.board.bus.slotSelect >>> 2) &&& 3 ≠ 3 → ¬ guard.Services ⟨host, run.board⟩

theorem Sound.recognised {count : Nat} {run : Run} {guard : Guard} {token : Token}
    (h : Sound count run.board.bus run.guard) (hguard : run.guard = some guard)
    (htoken : guard.token = some token) (host : Host) (limit : Nat) :
    Recognised count host limit run guard token := by
  rw [hguard] at h
  obtain ⟨hdevice, hblock⟩ := h.token guard token rfl htoken
  have hservices := h.services_iff htoken host
  refine {
    size := h.size
    device := hdevice
    block := hblock
    services := fun hpc => ?services
    logs := fun hlt => Run.serviced_turn_iff hlt hguard
    otherSegment := fun hselected h => hselected (hservices.mp h).2.2
    anyNumber := ?anyNumber }
  case services =>
    rw [hdevice]
    exact hservices.trans (and_iff_right hpc)
  case anyNumber =>
    intro hpc hslot n hn
    -- the register is no part of what makes the identity sound
    let board : Board := { run.board with bus := run.board.bus.selectSegment driverPage n }
    have h' : Sound count board.bus (some guard) := h.of_same rfl rfl
    refine (h'.services_iff htoken host).mpr ⟨hpc, .inl hslot, ?_⟩
    have hselected : board.bus.selected[driverPage] = n := Vector.getElem_set_self _
    rw [hselected, hn]

theorem Sound.identified {count made : Nat} {run : Run} {guard : Guard} {token : Token}
    (h : Sound count run.board.bus run.guard) (hroms : run.board.bus.RomsBehind made)
    (hfew : made < 4294967296) (hguard : run.guard = some guard) (htoken : guard.token = some token)
    (host : Host) : Identified count host run guard token := by
  rw [hguard] at h
  have hdevice := (h.token guard token rfl htoken).1
  have hservices := h.services_iff htoken host
  rw [hroms.showsAsMapper_iff hfew] at hservices
  exact {
    notRom := fun slot rom hrom => hdevice ▸ hroms.ne_mapper hfew hrom
    services := fun hpc => hservices.trans (and_iff_right hpc)
    otherSlot := fun hslot h => hslot (hservices.mp h).2.1 }

/-- **The identity on a machine.** On every machine that can be reached, at every state that a run
    from there comes by, a token that the guard knows names the mapper and one of its segments. The
    routines of the driver are answered where page 1 shows that segment of a device with the number
    of the mapper. As long as fewer than 4294967296 devices were numbered behind the mapper, that is
    the mapper in slot 3 and nothing else. The next read-only memory that is plugged in has the
    number of the mapper exactly if the count of devices comes round with it. -/
theorem identity_names_mapper {segments made : Nat} {m : Machine} (hm : m.Reachable segments made)
    {host : Host} {address : UInt16} {run : Run}
    (hrun : Run.Reaches host m.limit (m.start address) run) {guard : Guard} {token : Token}
    (hguard : run.guard = some guard) (htoken : guard.token = some token) :
    Recognised (max 4 (min segments 256)) host m.limit run guard token ∧
    (made < 4294967296 → Identified (max 4 (min segments 256)) host run guard token) ∧
    ∀ slot image m' device, m.insertRom slot image = .ok (m', device) →
      (device = token.device ↔ 4294967296 ∣ made + 1) := by
  have hsound : Sound (max 4 (min segments 256)) run.board.bus run.guard :=
    hrun.keeps (Sound.keeps _ host) (Machine.sound_of_reachable hm)
  have hnumbered := Machine.numbered_of_reachable hm
  -- no program plugs anything in
  have hparts : m.board.bus.SameParts run.board.bus :=
    hrun.keeps (.of_bus m.board.bus.keeps_sameParts host) (.refl _)
  have hrecognised := hsound.recognised hguard htoken host m.limit
  refine ⟨hrecognised, fun hfew => ?_, ?_⟩
  · exact hsound.identified (hnumbered.roms.of_sameParts hparts) hfew hguard htoken host
  · intro slot image m' device hok
    obtain ⟨-, -, rfl, -⟩ := Machine.insertRom_eq_ok hok
    rw [hrecognised.device, hparts.mapper]
    exact hnumbered.next_eq_mapper_iff

/-- A machine with the driver module in segment 2, and its first call: the guard knows the module,
    and nothing else has changed. -/
theorem Machine.known_after_alloc (host : Host) (drive : Drive) :
    let m : Machine := { (Machine.new 4).attach ⟨drive, none⟩ with limit := 1 }
    ∃ m₁ m₂ exit, m.installDriver 2 = .ok m₁ ∧ m₁.run? host 0x4020 = some (m₂, exit) ∧
      m₂.guard = some ⟨drive, some ⟨firstDevice, 2⟩⟩ ∧ m₂.board.bus = MemoryMap.installed ∧
      m₂.Reachable 4 0 := by
  intro m
  obtain ⟨m₁, m₂, exit, hinstall, hrun, -, hguard, hbus, -⟩ := run?_installed host drive
  -- nothing was plugged in meanwhile
  have hm : m.Reachable 4 0 := ((Reachable.new firstDevice).attach drive).operate (.setLimit _ 1) rfl
  have hsame : m₁.nextDevice = m.nextDevice := by
    rw [(installDriver_eq_ok hinstall).2]
    rfl
  have hm₁ : m₁.Reachable 4 0 := hm.operate (.installDriver hinstall) hsame
  exact ⟨m₁, m₂, exit, hinstall, hrun, hguard, hbus,
    hm₁.operate (.run hrun) (nextDevice_run? hrun)⟩

/-- After that call the number 6 selects the module as well, as there are four segments, and the
    number 3 selects another segment. -/
theorem identity_names_mapper_congruent :
    let host : Host := ⟨fun _ => false, fun _ => .ok []⟩
    let drive := Drive.new ⟨"/none"⟩ "L"
    let m : Machine := { (Machine.new 4).attach ⟨drive, none⟩ with limit := 1 }
    ∃ m₁ m₂ exit guard, m.installDriver 2 = .ok m₁ ∧ m₁.run? host 0x4020 = some (m₂, exit) ∧
      m₂.guard = some guard ∧ guard.token = some ⟨firstDevice, 2⟩ ∧
      guard.Services ⟨host, ((m₂.selectSegment 1 6).start 0x4020).board⟩ ∧
      ¬ guard.Services ⟨host, ((m₂.selectSegment 1 3).start 0x4020).board⟩ := by
  intro host drive m
  obtain ⟨m₁, m₂, exit, hinstall, hrun, hguard, hbus, hm₂⟩ :=
    Machine.known_after_alloc host drive
  have hknown : ∀ n, Recognised 4 host (m₂.selectSegment 1 n).limit
      ((m₂.selectSegment 1 n).start 0x4020) ⟨drive, some ⟨firstDevice, 2⟩⟩ ⟨firstDevice, 2⟩ ∧
      Identified 4 host ((m₂.selectSegment 1 n).start 0x4020) ⟨drive, some ⟨firstDevice, 2⟩⟩
        ⟨firstDevice, 2⟩ := by
    intro n
    obtain ⟨hrecognised, hidentified, -⟩ :=
      identity_names_mapper (hm₂.operate (.selectSegment m₂ 1 n) rfl) (.here _) hguard rfl
    exact ⟨hrecognised, hidentified (by decide)⟩
  -- the registers of page 1 on the machine as the first call left it
  have hslot : ∀ n, ((m₂.selectSegment 1 n).start 0x4020).board.bus.slotSelect = 0xFF := by
    intro n
    show m₂.board.bus.slotSelect = 0xFF
    rw [hbus]
    rfl
  have hselected : ∀ n,
      ((m₂.selectSegment 1 n).start 0x4020).board.bus.selected[driverPage] = n :=
    fun n => Vector.getElem_set_self _
  refine ⟨m₁, m₂, exit, _, hinstall, hrun, hguard, rfl, ?_, ?_⟩
  · refine ((hknown 6).2.services List.mem_cons_self).mpr ⟨?_, ?_⟩
    · rw [hslot]
      decide
    · rw [hselected]
      decide
  · apply (hknown 3).1.otherSegment
    rw [hselected]
    decide

/-! ## Section 4: When the numbers come round -/

namespace Machine

/-- Plugs the same image into the same slot this many times. -/
def insertRoms (m : Machine) (slot : UInt8) (image : List UInt8) : Nat → Except SetupError Machine
  | 0 => .ok m
  | n + 1 => do
    let m ← m.insertRoms slot image n
    let (m, _) ← m.insertRom slot image
    return m

/-- **Plugging in again and again** takes a number each time, and touches the slots only. -/
structure InsertsRoms (n : Nat) (m m' : Machine) : Prop where
  next : m'.nextDevice = m.nextDevice.after n
  guard : m'.guard = m.guard
  selected : m'.board.bus.selected = m.board.bus.selected
  slotSelect : m'.board.bus.slotSelect = m.board.bus.slotSelect
  reachable : ∀ {segments made}, m.Reachable segments made → m'.Reachable segments (made + n)

theorem exists_insertRoms (m : Machine) {slot : UInt8} {image : List UInt8}
    (hslot : slot.toNat < romSlots) (hfit : image.length ≤ pageSize) (n : Nat) :
    ∃ m', m.insertRoms slot image n = .ok m' ∧ m.InsertsRoms n m' := by
  induction n with
  | zero =>
    have hsame : m.nextDevice.after 0 = m.nextDevice :=
      (DeviceId.after_eq_self_iff _ 0).mpr (Nat.dvd_zero _)
    exact ⟨m, rfl, hsame.symm, rfl, rfl, rfl, fun h => h⟩
  | succ n ih =>
    obtain ⟨m', hok, hplugged⟩ := ih
    have hlast := insertRom_of_lt (m := m') hslot hfit
    refine ⟨m'.pluggedIn slot.toNat image hslot, ?_, ?_⟩
    · rw [insertRoms, hok]
      show (do let (m, _) ← m'.insertRom slot image; return m) = _
      rw [hlast]
      rfl
    · exact {
        next := (congrArg DeviceId.next hplugged.next).trans (DeviceId.next_after _ n)
        guard := hplugged.guard
        selected := hplugged.selected
        slotSelect := hplugged.slotSelect
        reachable := fun h => (hplugged.reachable h).insertRom hlast }

end Machine

/-- **Read-only memory that passes for the mapper.** After the first call something is plugged into
    slot 0, over and over. The last of 4294967296 times it gets the number of the mapper, and where
    slot 0 shows in page 1, with nothing in it, the drive answers. -/
theorem identity_names_rom :
    let host : Host := ⟨fun _ => false, fun _ => .ok []⟩
    let drive := Drive.new ⟨"/none"⟩ "L"
    let m : Machine := { (Machine.new 4).attach ⟨drive, none⟩ with limit := 1 }
    ∃ m₁ m₂ exit m₃ guard rom, m.installDriver 2 = .ok m₁ ∧
      m₁.run? host 0x4020 = some (m₂, exit) ∧ m₂.insertRoms 0 [] 4294967296 = .ok m₃ ∧
      let m₄ := m₃.selectPage1Slot 0
      m₄.Reachable 4 4294967296 ∧ m₄.guard = some guard ∧
      guard.token = some ⟨firstDevice, 2⟩ ∧ (m₄.board.bus.slotSelect >>> 2) &&& 3 = 0 ∧
      m₄.board.bus.roms[0]? = some (some rom) ∧ rom.device = m₄.board.bus.mapper ∧
      guard.Services ⟨host, (m₄.start 0x4020).board⟩ := by
  intro host drive m
  obtain ⟨m₁, m₂, exit, hinstall, hrun, hguard, hbus, hm₂⟩ :=
    Machine.known_after_alloc host drive
  have hslot : (0 : UInt8).toNat < romSlots := by decide
  have hfit : ([] : List UInt8).length ≤ pageSize := Nat.zero_le _
  -- the last time the number of the mapper is due
  obtain ⟨before, hbefore, hplugged⟩ := m₂.exists_insertRoms hslot hfit 4294967295
  have hround : before.nextDevice = before.board.bus.mapper :=
    (Machine.numbered_of_reachable (hplugged.reachable hm₂)).next_eq_mapper_iff.mpr (by decide)
  have hlast := Machine.insertRom_of_lt (m := before) hslot hfit
  let m₃ := before.pluggedIn (0 : UInt8).toNat [] hslot
  have hall : m₂.insertRoms 0 [] (4294967295 + 1) = .ok m₃ := by
    rw [Machine.insertRoms, hbefore]
    show (do let (m, _) ← before.insertRom 0 []; return m) = _
    rw [hlast]
    rfl
  let m₄ := m₃.selectPage1Slot 0
  have hm₄ : m₄.Reachable 4 4294967296 :=
    ((hplugged.reachable hm₂).insertRom hlast).operate (.selectPage1Slot m₃ 0) rfl
  have hguard₄ : m₄.guard = some ⟨drive, some ⟨firstDevice, 2⟩⟩ := hplugged.guard.trans hguard
  have hslots : (m₄.board.bus.slotSelect >>> 2) &&& 3 = 0 := by
    have hselect : before.board.bus.slotSelect = 0xFF := by
      rw [hplugged.slotSelect, hbus]
      rfl
    show ((before.board.bus.selectPage1Slot 0).slotSelect >>> 2) &&& 3 = 0
    simp only [MemoryMap.selectPage1Slot, hselect]
    decide
  have hrom : m₄.board.bus.roms[0]? = some (some ⟨before.nextDevice, #[]⟩) :=
    Vector.getElem?_set_self hslot
  refine ⟨m₁, m₂, exit, m₃, ⟨drive, some ⟨firstDevice, 2⟩⟩, ⟨before.nextDevice, #[]⟩, hinstall,
    hrun, hall, hm₄, hguard₄, rfl, hslots, hrom, hround, ?_⟩
  have hsound : Sound 4 m₄.board.bus m₄.guard := Machine.sound_of_reachable hm₄
  rw [hguard₄] at hsound
  have hin := (Vector.getElem?_eq_some_iff.mp hrom).2
  refine (Sound.services_iff (b := (m₄.start 0x4020).board) hsound rfl host).mpr
    ⟨List.mem_cons_self, .inr ⟨⟨0, by decide⟩, _, ?_, hin, hround⟩, ?_⟩
  · rw [show (m₄.start 0x4020).board.bus = m₄.board.bus from rfl, hslots]
    rfl
  · show before.board.bus.selected[driverPage].toNat % 4 = 2
    rw [hplugged.selected, hbus]
    decide

end HostDrive

import HostDrive.Proofs.Machine.Termination
import HostDrive.Proofs.Z80.Bus

/-!
# Reachable Machines

The machines that there can be: made with some number of segments, then changed from outside and
run, as often as one likes and by any program. What an operation keeps, and an answered call, and an
instruction, holds of all of them.

## Architecture

- `Run.Keeps` is a property that a turn keeps; `Reaches.keeps` and `Machine.run?_keeps` carry it
  through a run.
- `Machine.Operates` lists the operations on a machine, runs among them. `Operates.makes` says which
  of them take a number for a new device.
- `Machine.Reachable` is their closure, from a new machine on, with a count of these numbers.
-/

namespace HostDrive

/-! ## Section 1: What runs keep -/

namespace Run

variable {host : Host} {limit : Nat} {P : Run → Prop}

/-- **Kept by a run**: an answered call and an executed instruction leave the property true. -/
structure Keeps (host : Host) (P : Run → Prop) : Prop where
  answered : ∀ run guard service, run.guard = some guard → guard.Services ⟨host, run.board⟩ →
    P run → P (run.answered guard host service)
  execute : ∀ run, P run → P run.execute

theorem Keeps.turn (hP : Keeps host P) {run : Run} (h : P run) : P (run.turn host limit).1 := by
  obtain ⟨-, hturn⟩ | ⟨-, guard, service, hguard, hservices, hturn⟩ | ⟨-, -, hturn⟩ :=
    turn_cases host limit run
  · -- a turn that stops leaves the run as it is
    rw [hturn]
    exact h
  · rw [hturn]
    exact hP.answered run guard service hguard hservices h
  · rw [hturn]
    exact hP.execute run h

/-- **What a processor and a write keep, a run keeps.** -/
theorem Keeps.of_bus {P : MemoryMap → Prop} (hP : Z80.Bus.Keeps P) (host : Host) :
    Keeps host fun run => P run.board.bus where
  answered _ guard _ _ _ h := Board.fetch_keeps hP.write h guard host
  execute _ h := Z80.State.step_keeps hP h

/-- What a run keeps holds wherever the run comes by. -/
theorem Reaches.keeps {run last : Run} (hreaches : Reaches host limit run last)
    (hP : Keeps host P) (h : P run) : P last := by
  induction hreaches with
  | here => exact h
  | @turn run next last hturn _ ih =>
    have hnext : P (run.turn host limit).1 := hP.turn h
    rw [hturn] at hnext
    exact ih hnext

end Run

namespace Machine

/-- What a run keeps holds of the machine that it leaves. -/
theorem run?_keeps {host : Host} {P : Run → Prop} {m m' : Machine} {address : UInt16} {exit : Exit}
    (hrun : m.run? host address = some (m', exit)) (hP : Run.Keeps host P)
    (h : P (m.start address)) :
    ∃ last, P last ∧ m'.board = last.board ∧ m'.guard = last.guard := by
  obtain ⟨last, hfinish, hboard, hguard, -⟩ := run?_eq_some hrun
  obtain ⟨before, hreaches, hstop⟩ := Run.finish?_eq_some_iff.mp hfinish
  have hlast : P (before.turn host m.limit).1 := hP.turn (hreaches.keeps hP h)
  rw [hstop] at hlast
  exact ⟨last, hlast, hboard, hguard⟩

/-! ## Section 2: Operations -/

/-- **An operation on a machine**, from outside or by running it. One that fails changes nothing. -/
inductive Operates : Machine → Machine → Prop where
  | installDriver {m m' : Machine} {n : UInt8} (h : m.installDriver n = .ok m') : Operates m m'
  | loadSegment {m m' : Machine} {n : UInt8} {offset : Nat} {data : List UInt8}
      (h : m.loadSegment n offset data = .ok m') : Operates m m'
  | insertRom {m m' : Machine} {slot : UInt8} {image : List UInt8} {device : DeviceId}
      (h : m.insertRom slot image = .ok (m', device)) : Operates m m'
  | selectPage1Slot (m : Machine) (slot : UInt8) : Operates m (m.selectPage1Slot slot)
  | selectSegment (m : Machine) (page : Page) (n : UInt8) : Operates m (m.selectSegment page n)
  | poke (m : Machine) (address : UInt16) (b : UInt8) : Operates m (m.poke address b)
  | setLimit (m : Machine) (limit : Nat) : Operates m { m with limit := limit }
  | run {m m' : Machine} {host : Host} {address : UInt16} {exit : Exit}
      (h : m.run? host address = some (m', exit)) : Operates m m'

variable {m m' : Machine}

/-- A run makes no device. -/
theorem nextDevice_run? {host : Host} {address : UInt16} {exit : Exit}
    (h : m.run? host address = some (m', exit)) : m'.nextDevice = m.nextDevice := by
  obtain ⟨last, hfinish, -⟩ := run?_eq_some h
  obtain ⟨rfl, -⟩ := Prod.mk.inj (Option.some.inj (h.symm.trans (run?_of_finish? hfinish)))
  rfl

/-- **Devices are made by plugging in** read-only memory, and by no other operation. -/
theorem Operates.makes (hop : m.Operates m') :
    m'.nextDevice = m.nextDevice ∨
      ∃ slot image device, m.insertRom slot image = .ok (m', device) := by
  cases hop with
  | installDriver hok =>
    obtain ⟨-, rfl⟩ := installDriver_eq_ok hok
    exact .inl rfl
  | loadSegment hok =>
    obtain ⟨-, -, rfl⟩ := loadSegment_eq_ok hok
    exact .inl rfl
  | insertRom hok => exact .inr ⟨_, _, _, hok⟩
  | selectPage1Slot | selectSegment | poke | setLimit => exact .inl rfl
  | run hrun => exact .inl (nextDevice_run? hrun)

/-- **Reachable**: made with this many segments, whatever number was due, operated on, and given a
    new guard at some time. Meanwhile this many devices were numbered behind the mapper. All
    machines take their numbers in turn, so they can belong to other ones. -/
inductive Reachable (segments : Nat) : Nat → Machine → Prop where
  | new (device : DeviceId) : Reachable segments 0 (new segments device)
  | attach {made : Nat} {m : Machine} (h : Reachable segments made m) (drive : Drive) :
      Reachable segments made (m.attach ⟨drive, none⟩)
  | insertRom {made : Nat} {m m' : Machine} {slot : UInt8} {image : List UInt8} {device : DeviceId}
      (h : Reachable segments made m) (hok : m.insertRom slot image = .ok (m', device)) :
      Reachable segments (made + 1) m'
  | elsewhere {made : Nat} {m : Machine} (h : Reachable segments made m) :
      Reachable segments (made + 1) { m with nextDevice := m.nextDevice.next }
  | operate {made : Nat} {m m' : Machine} (h : Reachable segments made m) (hop : Operates m m')
      (hnone : m'.nextDevice = m.nextDevice) : Reachable segments made m'

variable {segments made : Nat}

/-- Whatever is done to a reachable machine, it stays reachable. -/
theorem Reachable.operates (h : m.Reachable segments made) (hop : m.Operates m') :
    m'.Reachable segments made ∨ m'.Reachable segments (made + 1) := by
  obtain hnone | ⟨slot, image, device, hok⟩ := hop.makes
  · exact .inl (h.operate hop hnone)
  · exact .inr (h.insertRom hok)

/-- Loading bytes is writing one after the other. -/
theorem Reachable.load (h : m.Reachable segments made) (address : UInt16) (data : List UInt8) :
    (m.load address data).Reachable segments made := by
  induction data generalizing m address with
  | nil => exact h
  | cons b data ih => exact ih (h.operate (.poke m address b) rfl) (address + 1)

/-- Running a program is loading it and running the machine. -/
theorem Reachable.runProgram (h : m.Reachable segments made) {host : Host} {p : Program}
    {exit : Exit} (hrun : m.runProgram? host p = some (m', exit)) : m'.Reachable segments made :=
  (h.load programAddress p.code).operate (.run hrun) (nextDevice_run? hrun)

end Machine

end HostDrive

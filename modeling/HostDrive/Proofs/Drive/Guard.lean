import HostDrive.Drive.Guard
import HostDrive.Proofs.Guest.Memory

/-!
# The Trust of the Guard

When the guard lets the drive answer, and when it keeps out of the way, for every history of fetches
by guests in any state.

## Architecture

- `Moment` is a fetch with the host and the guest that it finds; `Guard.watch` runs a history.
- `Trusts` is the rule in terms of what the guest shows. A token that was just captured is active
  (`Token.isActive_of_capture?`), so the guard never keeps one that it does not go by.
- `fetch_cases` says once what a fetch can do, in three cases.
- `token_fetch` is the step of the token, `token_watch` its run: it comes from one serviced fetch
  and never changes.
-/

namespace HostDrive

/-! ## Section 1: What the guest shows -/

/-- The addresses at which the driver's routines start. -/
def entryAddresses : List UInt16 := [0x4020, 0x4023, 0x4026, 0x4029, 0x402C, 0x402F]

/-- The driver's page shows this block of this device. -/
def Shows {γ : Type} [Slots γ] (guest : γ) (token : Token) : Prop :=
  Slots.deviceInPage guest driverPage = some token.device ∧
  Slots.blockInPage guest token.device driverPage = some token.block

/-- The driver's page starts with the text `FileSysDriver` and a zero byte. -/
def Signed {γ : Type} [Guest γ] (guest : γ) : Prop :=
  Guest.readBlock (Guest.peek guest) 0x4000 14 =
    [0x46, 0x69, 0x6C, 0x65, 0x53, 0x79, 0x73, 0x44, 0x72, 0x69, 0x76, 0x65, 0x72, 0x00]

/-- **The rule of the guard**: the page shows the known token, or no token is known yet and the page
    has the signature. -/
def Trusts {γ : Type} [Guest γ] [Slots γ] (known : Option Token) (guest : γ) (token : Token) :
    Prop :=
  Shows guest token ∧ (known = some token ∨ known = none ∧ Signed guest)

namespace EntryPoint

theorem ofAddress?_eq_some {a : UInt16} {entry : EntryPoint} :
    ofAddress? a = some entry ↔ entry.address = a := by
  constructor
  · intro h
    simpa using List.find?_some h
  · rintro rfl
    cases entry <;> rfl

theorem ofAddress?_eq_none {a : UInt16} : ofAddress? a = none ↔ a ∉ entryAddresses := by
  have haddresses : entryAddresses = all.map address := rfl
  simp only [ofAddress?, List.find?_eq_none, haddresses, List.mem_map, not_exists, not_and,
    beq_iff_eq]

theorem address_mem (entry : EntryPoint) : entry.address ∈ entryAddresses := by
  cases entry <;> decide

theorem address_inj {entry entry' : EntryPoint} (h : entry.address = entry'.address) :
    entry = entry' := by
  have hentry := ofAddress?_eq_some.mpr h
  exact Option.some.inj (hentry.symm.trans (ofAddress?_eq_some.mpr rfl))

end EntryPoint

namespace Token

theorem shown?_eq_some {γ : Type} [Slots γ] {guest : γ} {token : Token} :
    shown? guest = some token ↔ Shows guest token := by
  obtain ⟨device, block⟩ := token
  unfold shown? Shows
  cases hdevice : Slots.deviceInPage guest driverPage with
  | none => simp
  | some shown =>
    simp only [Option.map_eq_some_iff, Option.some.injEq, Token.mk.injEq]
    constructor
    · rintro ⟨block', hblock, rfl, rfl⟩
      exact ⟨rfl, hblock⟩
    · rintro ⟨rfl, hblock⟩
      exact ⟨block, hblock, rfl, rfl⟩

theorem isActive_eq_true {γ : Type} [Slots γ] {guest : γ} {token : Token} :
    token.isActive guest = true ↔ Shows guest token := by
  rw [isActive, beq_iff_eq, shown?_eq_some]

theorem capture?_eq_some {γ : Type} [Guest γ] [Slots γ] {guest : γ} {token : Token} :
    capture? guest = some token ↔ Shows guest token ∧ Signed guest := by
  have hsigned : Guest.readBlock (Guest.peek guest) signatureAddress signature.length = signature ↔
      Signed guest := Iff.rfl
  rw [← shown?_eq_some]
  unfold capture?
  cases shown? guest with
  | none => simp
  | some shown =>
    by_cases h : Signed guest
    · simp only [if_pos (hsigned.mpr h), h, and_true]
    · simp only [if_neg (mt hsigned.mp h), h, reduceCtorEq, and_false]

/-- **A token that was just captured is active.** -/
theorem isActive_of_capture? {γ : Type} [Guest γ] [Slots γ] {guest : γ} {token : Token}
    (h : capture? guest = some token) : token.isActive guest = true :=
  isActive_eq_true.mpr (capture?_eq_some.mp h).1

end Token

/-- A page shows one token at most. -/
theorem Shows.unique {γ : Type} [Slots γ] {guest : γ} {token token' : Token}
    (h : Shows guest token) (h' : Shows guest token') : token = token' :=
  Option.some.inj ((Token.shown?_eq_some.mpr h).symm.trans (Token.shown?_eq_some.mpr h'))

/-! ## Section 2: One fetch -/

/-- A fetch as the guard meets it: the host and the guest as they are then. -/
structure Moment (γ : Type) where
  host : Host
  guest : γ

namespace Guard

variable {γ : Type} [Guest γ] [Slots γ]

/-- Guard, outcome and guest after a fetch. -/
def fetch (guard : Guard) (now : Moment γ) : Guard × Fetch × γ :=
  guard.beforeFetch now.host now.guest

/-- The guard after a history of fetches. -/
def watch (guard : Guard) (history : List (Moment γ)) : Guard :=
  history.foldl (fun guard now => (guard.fetch now).1) guard

@[simp] theorem watch_nil (guard : Guard) : guard.watch ([] : List (Moment γ)) = guard := rfl

/-- The drive answered in place of the routine. -/
def Services (guard : Guard) (now : Moment γ) : Prop :=
  ∃ entry status, (guard.fetch now).2.1 = .serviced entry status

theorem drive_identify (guard : Guard) (guest : γ) : (guard.identify guest).drive = guard.drive := by
  unfold identify
  split <;> rfl

/-- The guard sees the driver if it trusts what shows, and then it knows the token. -/
theorem seesDriver_identify {guard : Guard} {guest : γ} {token : Token}
    (h : Trusts guard.token guest token) :
    (guard.identify guest).token = some token ∧
      (guard.identify guest).seesDriver guest = true := by
  have htoken : (guard.identify guest).token = some token := by
    obtain ⟨hshows, hknown | ⟨hunknown, hsigned⟩⟩ := h
    · rw [identify, hknown, hknown]
    · rw [identify, hunknown]
      exact Token.capture?_eq_some.mpr ⟨hshows, hsigned⟩
  refine ⟨htoken, ?_⟩
  rw [seesDriver, htoken]
  exact Token.isActive_eq_true.mpr h.1

/-- Otherwise there is nothing that it captures or sees. -/
theorem identify_of_not_trusts {guard : Guard} {guest : γ}
    (h : ∀ token, ¬ Trusts guard.token guest token) :
    guard.identify guest = guard ∧ guard.seesDriver guest = false := by
  cases hknown : guard.token with
  | some token =>
    have hinactive : ¬ token.isActive guest = true :=
      fun hactive => h token ⟨Token.isActive_eq_true.mp hactive, .inl hknown⟩
    refine ⟨by simp only [identify, hknown], ?_⟩
    rw [seesDriver, hknown]
    exact Bool.eq_false_iff.mpr hinactive
  | none =>
    -- a token that was captured would be active, and so trusted
    have hnone : Token.capture? guest = none := by
      cases hcapture : Token.capture? guest with
      | none => rfl
      | some token =>
        have hshows := Token.isActive_eq_true.mp (Token.isActive_of_capture? hcapture)
        exact absurd ⟨hshows, .inr ⟨hknown, (Token.capture?_eq_some.mp hcapture).2⟩⟩ (h token)
    obtain ⟨drive, known⟩ := guard
    obtain rfl : known = none := hknown
    exact ⟨congrArg (Guard.mk drive) hnone, rfl⟩

/-- **What a fetch can do**: keep out as the address is no entry point, keep out as the driver does
    not show, or serve exactly one call, return from it, and know the token from then on. -/
theorem fetch_cases (guard : Guard) (now : Moment γ) :
    (Guest.pc now.guest ∉ entryAddresses ∧ guard.fetch now = (guard, .notHooked, now.guest)) ∨
    (Guest.pc now.guest ∈ entryAddresses ∧ (∀ token, ¬ Trusts guard.token now.guest token) ∧
      guard.fetch now = (guard, .passthrough, now.guest)) ∨
    ∃ entry token, entry.address = Guest.pc now.guest ∧ Trusts guard.token now.guest token ∧
      let called := guard.drive.call now.host entry now.guest
      guard.fetch now =
        (⟨called.1, some token⟩, .serviced entry called.2.1, Guest.forceReturn called.2.2) := by
  unfold fetch beforeFetch
  cases hentry : EntryPoint.ofAddress? (Guest.pc now.guest) with
  | none => exact .inl ⟨EntryPoint.ofAddress?_eq_none.mp hentry, rfl⟩
  | some entry =>
    have haddress := EntryPoint.ofAddress?_eq_some.mp hentry
    have hmem : Guest.pc now.guest ∈ entryAddresses := haddress ▸ entry.address_mem
    right
    by_cases htrusts : ∃ token, Trusts guard.token now.guest token
    · obtain ⟨token, htoken⟩ := htrusts
      obtain ⟨hknown, hsees⟩ := seesDriver_identify htoken
      refine .inr ⟨entry, token, haddress, htoken, ?_⟩
      simp only [hsees, if_true, hknown, drive_identify]
    · have hnone : ∀ token, ¬ Trusts guard.token now.guest token :=
        fun token h => htrusts ⟨token, h⟩
      obtain ⟨hsame, hsees⟩ := identify_of_not_trusts hnone
      refine .inl ⟨hmem, hnone, ?_⟩
      simp only [hsame, hsees, Bool.false_eq_true, if_false]

/-- At an entry point, with a token that the rule trusts, the drive answers. -/
theorem fetch_of_trusts {guard : Guard} (now : Moment γ) (entry : EntryPoint) {token : Token}
    (hpc : Guest.pc now.guest = entry.address) (htrusts : Trusts guard.token now.guest token) :
    guard.fetch now =
      let called := guard.drive.call now.host entry now.guest
      (⟨called.1, some token⟩, .serviced entry called.2.1, Guest.forceReturn called.2.2) := by
  obtain ⟨hnot, -⟩ | ⟨-, hnone, -⟩ | ⟨entry', token', haddress, htrusts', hfetch⟩ :=
    guard.fetch_cases now
  · exact absurd (hpc ▸ entry.address_mem) hnot
  · exact absurd htrusts (hnone token)
  · obtain rfl : entry' = entry := EntryPoint.address_inj (haddress.trans hpc)
    obtain rfl : token' = token := htrusts'.1.unique htrusts.1
    exact hfetch

/-- A fetch is serviced exactly when an entry point is entered and the rule trusts what shows. -/
theorem services_iff {guard : Guard} {now : Moment γ} :
    guard.Services now ↔
      Guest.pc now.guest ∈ entryAddresses ∧ ∃ token, Trusts guard.token now.guest token := by
  unfold Services
  obtain ⟨hpc, hfetch⟩ | ⟨hpc, hnone, hfetch⟩ | ⟨entry, token, haddress, htrusts, hfetch⟩ :=
    guard.fetch_cases now
  · simp [hfetch, hpc]
  · simp [hfetch, hnone]
  · have hmem : Guest.pc now.guest ∈ entryAddresses := haddress ▸ entry.address_mem
    simp only [hfetch, hmem, true_and]
    exact ⟨fun _ => ⟨token, htrusts⟩, fun _ => ⟨entry, _, rfl⟩⟩

theorem fetch_eq_notHooked_iff {guard : Guard} {now : Moment γ} :
    (guard.fetch now).2.1 = .notHooked ↔ Guest.pc now.guest ∉ entryAddresses := by
  obtain ⟨hpc, hfetch⟩ | ⟨hpc, hnone, hfetch⟩ | ⟨entry, token, haddress, htrusts, hfetch⟩ :=
    guard.fetch_cases now
  · simp [hfetch, hpc]
  · simp [hfetch, hpc]
  · simp [hfetch, haddress ▸ entry.address_mem]

theorem fetch_eq_passthrough_iff {guard : Guard} {now : Moment γ} :
    (guard.fetch now).2.1 = .passthrough ↔
      Guest.pc now.guest ∈ entryAddresses ∧ ¬ ∃ token, Trusts guard.token now.guest token := by
  obtain ⟨hpc, hfetch⟩ | ⟨hpc, hnone, hfetch⟩ | ⟨entry, token, haddress, htrusts, hfetch⟩ :=
    guard.fetch_cases now
  · simp [hfetch, hpc]
  · simp [hfetch, hpc, hnone]
  · have hsome : ∃ token, Trusts guard.token now.guest token := ⟨token, htrusts⟩
    simp [hfetch, hsome]

/-- A fetch that is not answered changes nothing. -/
theorem fetch_unchanged {guard : Guard} {now : Moment γ}
    (h : (guard.fetch now).2.1 = .notHooked ∨ (guard.fetch now).2.1 = .passthrough) :
    (guard.fetch now).1 = guard ∧ (guard.fetch now).2.2 = now.guest := by
  obtain ⟨hpc, hfetch⟩ | ⟨hpc, hnone, hfetch⟩ | ⟨entry, token, haddress, htrusts, hfetch⟩ :=
    guard.fetch_cases now
  · exact ⟨congrArg Prod.fst hfetch, congrArg (·.2.2) hfetch⟩
  · exact ⟨congrArg Prod.fst hfetch, congrArg (·.2.2) hfetch⟩
  · rw [hfetch] at h
    exact h.elim nofun nofun

/-- A fetch that is answered is one call and one return. -/
theorem fetch_serviced {guard : Guard} {now : Moment γ} {entry : EntryPoint} {status : Status}
    (h : (guard.fetch now).2.1 = .serviced entry status) :
    entry.address = Guest.pc now.guest ∧
    let called := guard.drive.call now.host entry now.guest
    (guard.fetch now).1.drive = called.1 ∧ status = called.2.1 ∧
      (guard.fetch now).2.2 = Guest.forceReturn called.2.2 := by
  obtain ⟨hpc, hfetch⟩ | ⟨hpc, hnone, hfetch⟩ | ⟨entry', token, haddress, htrusts, hfetch⟩ :=
    guard.fetch_cases now
  · rw [hfetch] at h
    exact nomatch h
  · rw [hfetch] at h
    exact nomatch h
  · rw [hfetch] at h ⊢
    obtain ⟨rfl, rfl⟩ := Fetch.serviced.inj h
    exact ⟨haddress, rfl, rfl, rfl⟩

/-! ## Section 3: The token -/

/-- A fetch captures a token: none was known, the fetch is serviced, and the token shows together
    with the signature. -/
def Captures (guard : Guard) (now : Moment γ) (token : Token) : Prop :=
  guard.token = none ∧ guard.Services now ∧ Shows now.guest token ∧ Signed now.guest

/-- **The step of the token**: it is the one known before, or else the one captured. -/
theorem token_fetch {guard : Guard} {now : Moment γ} {token : Token} :
    (guard.fetch now).1.token = some token ↔
      guard.token = some token ∨ guard.Captures now token := by
  unfold Captures
  obtain ⟨hpc, hfetch⟩ | ⟨hpc, hnone, hfetch⟩ | ⟨entry, shown, haddress, htrusts, hfetch⟩ :=
    guard.fetch_cases now
  · simp [hfetch, services_iff, hpc]
  · simp [hfetch, services_iff, hnone]
  · have hmem : Guest.pc now.guest ∈ entryAddresses := haddress ▸ entry.address_mem
    have hservices : guard.Services now := services_iff.mpr ⟨hmem, shown, htrusts⟩
    obtain ⟨hshows, hknown | ⟨hunknown, hsigned⟩⟩ := htrusts
    · simp [hfetch, hknown]
    · simp only [hfetch, hunknown, hservices, hsigned, reduceCtorEq, false_or, true_and, and_true,
        Option.some.injEq]
      constructor
      · rintro rfl
        exact hshows
      · exact hshows.unique

/-- **The run of the token**: after a history it is the one known at the start, or else the one that
    some fetch of the history captured. -/
theorem token_watch {guard : Guard} {history : List (Moment γ)} {token : Token} :
    (guard.watch history).token = some token ↔
      guard.token = some token ∨ ∃ before now since, history = before ++ now :: since ∧
        (guard.watch before).Captures now token := by
  -- on the history, for any guard: either its first fetch captures the token or a later one does
  induction history generalizing guard with
  | nil => simp [watch]
  | cons first history ih =>
    show ((guard.fetch first).1.watch history).token = some token ↔ _
    rw [ih, token_fetch, or_assoc]
    apply or_congr_right
    constructor
    · rintro (hcaptures | ⟨before, now, since, rfl, hcaptures⟩)
      · exact ⟨[], first, history, rfl, hcaptures⟩
      · exact ⟨first :: before, now, since, rfl, hcaptures⟩
    · rintro ⟨before, now, since, hhistory, hcaptures⟩
      cases before with
      | nil =>
        obtain ⟨rfl, rfl⟩ := List.cons.inj hhistory
        exact .inl hcaptures
      | cons earlier before =>
        obtain ⟨rfl, rfl⟩ := List.cons.inj hhistory
        exact .inr ⟨before, now, since, rfl, hcaptures⟩

/-! ## Section 4: Every history -/

/-- The rule, spelled out for what a page shows. -/
theorem exists_trusts {known : Option Token} {guest : γ} :
    (∃ token, Trusts known guest token) ↔
      ∃ device block, Slots.deviceInPage guest 1 = some device ∧
        Slots.blockInPage guest device 1 = some block ∧
        (known = some ⟨device, block⟩ ∨ known = none ∧ Signed guest) := by
  constructor
  · rintro ⟨⟨device, block⟩, ⟨hdevice, hblock⟩, hknown⟩
    exact ⟨device, block, hdevice, hblock, hknown⟩
  · rintro ⟨device, block, hdevice, hblock, hknown⟩
    exact ⟨⟨device, block⟩, ⟨hdevice, hblock⟩, hknown⟩

/-- **The guard can be trusted.** After any history of fetches from a new guard: an address that is
    no entry point is never hooked; a routine is answered exactly when the page shows the known
    token, or none is known and the page shows the signature; otherwise the guest's own code runs.
    A fetch that is not answered changes neither guard nor guest, and one that is answered makes
    exactly one call of the drive and then exactly one return. A known token stays, a new one comes
    with an answered fetch that shows it, and so the token after a history is the one that a single
    fetch of the history captured. -/
theorem guard_trusts_driver (drive : Drive) (history : List (Moment γ)) (now : Moment γ) :
    let guard := (Guard.mk drive none).watch history
    let outcome := guard.fetch now
    let isEntry := Guest.pc now.guest ∈
      ([0x4020, 0x4023, 0x4026, 0x4029, 0x402C, 0x402F] : List UInt16)
    let isTrusted := ∃ device block, Slots.deviceInPage now.guest 1 = some device ∧
      Slots.blockInPage now.guest device 1 = some block ∧
      (guard.token = some ⟨device, block⟩ ∨
        guard.token = none ∧ Guest.readBlock (Guest.peek now.guest) 0x4000 14 =
          [0x46, 0x69, 0x6C, 0x65, 0x53, 0x79, 0x73, 0x44, 0x72, 0x69, 0x76, 0x65, 0x72, 0x00])
    (outcome.2.1 = .notHooked ↔ ¬ isEntry) ∧
    ((∃ entry status, outcome.2.1 = .serviced entry status) ↔ isEntry ∧ isTrusted) ∧
    (outcome.2.1 = .passthrough ↔ isEntry ∧ ¬ isTrusted) ∧
    (outcome.2.1 = .notHooked ∨ outcome.2.1 = .passthrough →
      outcome.1 = guard ∧ outcome.2.2 = now.guest) ∧
    (∀ entry status, outcome.2.1 = .serviced entry status →
      entry.address = Guest.pc now.guest ∧
      let called := guard.drive.call now.host entry now.guest
      outcome.1.drive = called.1 ∧ status = called.2.1 ∧
        outcome.2.2 = Guest.forceReturn called.2.2) ∧
    (∀ token, guard.token = some token → outcome.1.token = some token) ∧
    (∀ token, guard.token = none → outcome.1.token = some token →
      (∃ entry status, outcome.2.1 = .serviced entry status) ∧
        Shows now.guest token ∧ Signed now.guest) ∧
    (∀ token, guard.token = some token ↔ ∃ before earlier since,
      history = before ++ earlier :: since ∧
        ((Guard.mk drive none).watch before).Captures earlier token) := by
  intro guard outcome isEntry isTrusted
  have htrusted : isTrusted ↔ ∃ token, Trusts guard.token now.guest token := exists_trusts.symm
  have hpassthrough : outcome.2.1 = .passthrough ↔ isEntry ∧ ¬ isTrusted := by
    rw [htrusted]
    exact fetch_eq_passthrough_iff
  have hserviced : (∃ entry status, outcome.2.1 = .serviced entry status) ↔
      isEntry ∧ isTrusted := by
    rw [htrusted]
    exact services_iff
  refine ⟨fetch_eq_notHooked_iff, hserviced, hpassthrough, fetch_unchanged,
    fun _ _ => fetch_serviced, fun _ h => token_fetch.mpr (.inl h), ?captured, ?origin⟩
  case captured =>
    intro token hnone hsome
    rcases token_fetch.mp hsome with h | h
    · exact nomatch hnone.symm.trans h
    · exact h.2
  case origin =>
    intro token
    exact token_watch.trans ⟨fun h => h.resolve_left nofun, .inr⟩

/-- A guest that enters a routine while its only block shows. -/
def enteringGuest : FlatGuest :=
  { FlatGuest.filled 0 with
    pc := 0x4020
    devices := fun _ => some ⟨7⟩
    blocks := fun _ _ => some 2 }

/-- With the signature in that block, a new guard lets the drive answer. -/
theorem guard_trusts_driver_at_once :
    let now : Moment FlatGuest :=
      ⟨⟨fun _ => false, fun _ => .ok []⟩, Guest.store enteringGuest 0x4000 signature⟩
    ∃ entry status,
      ((Guard.mk (Drive.new ⟨"/d"⟩ "D") none).fetch now).2.1 = .serviced entry status := by
  intro now
  have hpc : Guest.pc now.guest = 0x4020 := FlatGuest.pc_store ..
  have hdevice : Slots.deviceInPage now.guest 1 = some ⟨7⟩ :=
    congrFun (FlatGuest.devices_blocks_store ..).1 1
  have hblock : Slots.blockInPage now.guest ⟨7⟩ 1 = some 2 :=
    congrFun (congrFun (FlatGuest.devices_blocks_store ..).2 ⟨7⟩) 1
  have hsigned := FlatGuest.readBlock_store enteringGuest 0x4000 signature (by decide)
  have htrusts := guard_trusts_driver (Drive.new ⟨"/d"⟩ "D") [] now
  simp only [watch_nil] at htrusts
  exact htrusts.2.1.mpr
    ⟨hpc ▸ List.mem_cons_self, ⟨7⟩, 2, hdevice, hblock, .inr ⟨trivial, hsigned⟩⟩

end Guard

end HostDrive

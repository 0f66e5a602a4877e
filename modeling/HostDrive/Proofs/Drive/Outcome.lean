import HostDrive.Proofs.Drive.Calls

/-!
# Outcomes of Calls

What a call can do at all, case by case: the drive that it leaves, and the reply that it delivers.
A property of every call is proved by going through these cases; nothing else has to open the
routines.

## Architecture

- `Visit.Enters` says when a call enters a directory, as `Visit.Takes` says when it takes a
  snapshot.
- `Outcome` lists the cases, each with its guard; `Drive.exists_outcome` says that there are no
  others.
-/

namespace HostDrive

variable {γ : Type} [Guest γ]

/-! ## Section 1: Entering a directory -/

namespace Visit

/-- The path that `HL` points at. -/
def path (v : Visit γ) : String :=
  Guest.readText (Guest.peek v.guest) (Guest.registers v.guest).hl longestGuestPath

/-- **The directory that a call enters.** Only a change-directory enters one, and only if its path
    resolves. -/
def Enters (base : HostPath) (v : Visit γ) (names : List String) (directory : HostPath) : Prop :=
  v.entry = .changeDir ∧ names = GuestPath.components v.path ∧
    v.host.resolve base names = some directory

/-- A call enters no directory, whatever drive with this base it goes to. -/
def Stays (base : HostPath) (v : Visit γ) : Prop :=
  ∀ names directory, ¬ v.Enters base names directory

theorem enters_or_stays (base : HostPath) (v : Visit γ) :
    (∃ names directory, v.Enters base names directory) ∨ v.Stays base := by
  by_cases henters : ∃ names directory, v.Enters base names directory
  · exact .inl henters
  · exact .inr fun names directory h => henters ⟨names, directory, h⟩

end Visit

namespace Drive

variable {d : Drive} {v : Visit γ}

/-- The answer of a change-directory, from the path that it resolves. -/
theorem visit_changeDir (hentry : v.entry = .changeDir) :
    d.visit v =
      let answered : Drive × Reply :=
        match v.host.resolve d.base (GuestPath.components v.path) with
        | some directory =>
          ({ d with directory := GuestPath.components v.path, hostDirectory := directory }, .accept)
        | none => (d, .noDirectory)
      (answered.1, answered.2.status, answered.2.deliver v.guest) := by
  unfold visit call
  rw [hentry]
  rfl

/-- A call that enters a directory sets its spelling and its path together. -/
theorem visit_of_enters {names : List String} {directory : HostPath}
    (h : v.Enters d.base names directory) :
    d.visit v = ({ d with directory := names, hostDirectory := directory }, .ok,
      Reply.accept.deliver v.guest) := by
  obtain ⟨hentry, rfl, hresolve⟩ := h
  rw [visit_changeDir hentry]
  simp only [hresolve]
  rfl

/-- A change-directory that enters nothing fails. -/
theorem visit_changeDir_of_stays (hentry : v.entry = .changeDir) (h : v.Stays d.base) :
    d.visit v = (d, .noDirectory, Reply.noDirectory.deliver v.guest) := by
  have hresolve : v.host.resolve d.base (GuestPath.components v.path) = none := by
    cases hdirectory : v.host.resolve d.base (GuestPath.components v.path) with
    | none => rfl
    | some directory => exact absurd ⟨hentry, rfl, hdirectory⟩ (h _ directory)
  rw [visit_changeDir hentry]
  simp only [hresolve]
  rfl

/-! ## Section 2: Routines that only tell -/

theorem visit_alloc (hentry : v.entry = .alloc) :
    d.visit v = (d, .ok, Reply.grant.deliver v.guest) := by
  unfold visit call
  rw [hentry]
  rfl

theorem visit_getCurrentDir (hentry : v.entry = .getCurrentDir) :
    d.visit v = (d, .ok, (Reply.store (Guest.registers v.guest).de
      (Guest.plainText d.currentDirectory)).deliver v.guest) := by
  unfold visit call
  rw [hentry]
  rfl

theorem visit_getVolume (hentry : v.entry = .getVolume) :
    d.visit v = (d, .ok, (Reply.store (Guest.registers v.guest).de
      (Guest.plainText d.label)).deliver v.guest) := by
  unfold visit call
  rw [hentry]
  rfl

end Drive

/-! ## Section 3: All cases -/

/-- **What a call can do**: the drive afterwards, and the reply. -/
inductive Outcome (d : Drive) (v : Visit γ) : Drive → Reply → Prop where
  | granted (hentry : v.entry = .alloc) : Outcome d v d .grant
  /-- The directory of a search cannot be listed. -/
  | noListing (hentry : v.entry = .findFirst) (h : ∀ found, ¬ v.Takes d.base found) :
      Outcome d v d .noDirectory
  /-- A search takes a snapshot and hands over its first entry. -/
  | foundFirst {found : List Entry} {e : Entry} (h : v.Takes d.base found)
      (he : found[0]? = some e) :
      Outcome d v { d with searches := d.searches.insert v.block.serial found.toArray }
        (.store v.address (v.block.present e 0).bytes)
  /-- A search takes a snapshot, but it is empty. -/
  | foundNone (h : v.Takes d.base []) :
      Outcome d v { d with searches := d.searches.insert v.block.serial #[] } .noFile
  | foundNext (hentry : v.entry = .findNext) {index : UInt16} {e : Entry}
      (hindex : Drive.nextIndex? v.block.index = some index)
      (he : d.searches.entry? v.block.serial index.toNat = some e) :
      Outcome d v d (.store v.address (v.block.present e index).bytes)
  | foundLast (hentry : v.entry = .findNext) : Outcome d v d .noFile
  | entered {names : List String} {directory : HostPath} (h : v.Enters d.base names directory) :
      Outcome d v { d with directory := names, hostDirectory := directory } .accept
  | notEntered (hentry : v.entry = .changeDir) (h : v.Stays d.base) : Outcome d v d .noDirectory
  | toldDirectory (hentry : v.entry = .getCurrentDir) :
      Outcome d v d
        (.store (Guest.registers v.guest).de (Guest.plainText d.currentDirectory))
  | toldLabel (hentry : v.entry = .getVolume) :
      Outcome d v d (.store (Guest.registers v.guest).de (Guest.plainText d.label))

/-- **There is no other case.** -/
theorem Drive.exists_outcome (d : Drive) (v : Visit γ) :
    ∃ d' reply, Outcome d v d' reply ∧ d.visit v = (d', reply.status, reply.deliver v.guest) := by
  cases hentry : v.entry with
  | alloc => exact ⟨_, _, .granted hentry, visit_alloc hentry⟩
  | getCurrentDir => exact ⟨_, _, .toldDirectory hentry, visit_getCurrentDir hentry⟩
  | getVolume => exact ⟨_, _, .toldLabel hentry, visit_getVolume hentry⟩
  | findFirst =>
    -- the directory is listed or not, and if it is, the snapshot may still be empty
    by_cases htakes : ∃ found, v.Takes d.base found
    · obtain ⟨found, hfound⟩ := htakes
      have hvisit := visit_findFirst_of_takes hfound
      cases found with
      | nil => exact ⟨_, _, .foundNone hfound, hvisit⟩
      | cons e rest => exact ⟨_, _, .foundFirst hfound rfl, hvisit⟩
    · have hnone : ∀ found, ¬ v.Takes d.base found := fun found h => htakes ⟨found, h⟩
      exact ⟨_, _, .noListing hentry hnone, visit_findFirst_of_not_takes hentry hnone⟩
  | findNext =>
    rw [visit_findNext hentry]
    -- either there is no next position, or no entry at it, or both are there
    cases hindex : nextIndex? v.block.index with
    | none => exact ⟨_, _, .foundLast hentry, rfl⟩
    | some index =>
      simp only [present_eq]
      cases he : d.searches.entry? v.block.serial index.toNat with
      | none => exact ⟨_, _, .foundLast hentry, rfl⟩
      | some e => exact ⟨_, _, .foundNext hentry hindex he, rfl⟩
  | changeDir =>
    obtain ⟨names, directory, henters⟩ | hstays := v.enters_or_stays d.base
    · exact ⟨_, _, .entered henters, visit_of_enters henters⟩
    · exact ⟨_, _, .notEntered hentry hstays, visit_changeDir_of_stays hentry hstays⟩

/-- Only a change-directory that succeeds changes the current directory. -/
theorem Drive.directory_visit {d : Drive} {v : Visit γ}
    (h : ¬ (v.entry = .changeDir ∧ (d.visit v).2.1 = .ok)) :
    (d.visit v).1.directory = d.directory ∧ (d.visit v).1.hostDirectory = d.hostDirectory := by
  obtain ⟨d', reply, houtcome, hvisit⟩ := d.exists_outcome v
  rw [hvisit] at h ⊢
  -- of all cases, one touches the directory, and that is a success
  cases houtcome with
  | entered henters => exact absurd ⟨henters.1, rfl⟩ h
  | _ => exact ⟨rfl, rfl⟩

end HostDrive

import HostDrive.Proofs.Drive.CurrentDirectory
import HostDrive.Proofs.Drive.SearchedDirectory

/-!
# Entering the Directory One Was Told

A guest that asks for the current directory and hands the answer back as a path ends up where it
was: the names survive being spelled out, stored, read and cut into pieces again, and they resolve
to the same directory of the host, as long as the host is the one on which it was found.

## Architecture

- `Drive.enteredOn` is the host on which the current directory of a drive was found.
- `Drive.resolves_after`, by induction over the history: on that host the names of the current
  directory still lead to it.
- `Drive.path_of_told`: the text that the guest was told is the text that is read again.
-/

namespace HostDrive

variable {γ : Type} [Guest γ]

/-! ## Section 1: The host that was asked -/

namespace Drive

/-- **The host on which the current directory was found**: that of the last change-directory in a
    history that succeeded, if there is one. -/
def enteredOn (d : Drive) : List (Visit γ) → Option Host
  | [] => none
  | v :: history =>
    match (d.visit v).1.enteredOn history with
    | some host => some host
    | none => if v.entry = .changeDir ∧ (d.visit v).2.1 = .ok then some v.host else none

/-- The names of the current directory lead to it on this host. -/
def Resolves (d : Drive) (host : Host) : Prop :=
  host.resolve d.base d.directory = some d.hostDirectory

/-- **The step of a call.** A change-directory that succeeds finds its directory on the host of the
    call. -/
theorem resolves_visit {d : Drive} {v : Visit γ} (hentry : v.entry = .changeDir)
    (hok : (d.visit v).2.1 = .ok) : (d.visit v).1.Resolves v.host := by
  obtain ⟨names, directory, henters⟩ := changeDir_ok_iff.mp ⟨hentry, hok⟩
  rw [visit_of_enters henters]
  obtain ⟨-, -, hresolve⟩ := henters
  exact hresolve

/-- **The run.** After a history the names lead to the current directory on the host on which it was
    found, and without such a host the directory is still the old one. -/
theorem resolves_after (d : Drive) (history : List (Visit γ)) :
    (∀ host, d.enteredOn history = some host → (d.after history).Resolves host) ∧
    (d.enteredOn history = none → (d.after history).directory = d.directory ∧
      (d.after history).hostDirectory = d.hostDirectory) := by
  induction history generalizing d with
  | nil => exact ⟨nofun, fun _ => ⟨rfl, rfl⟩⟩
  | cons v history ih =>
    obtain ⟨hfound, hkept⟩ := ih (d.visit v).1
    have hbase : ((d.visit v).1.after history).base = (d.visit v).1.base := base_after _ _
    rw [after_cons, enteredOn]
    cases hrest : (d.visit v).1.enteredOn history with
    | some host' =>
      refine ⟨fun host h => ?_, nofun⟩
      obtain rfl : host' = host := Option.some.inj h
      exact hfound host' hrest
    | none =>
      -- the rest of the history left the directory alone, so this call decides
      obtain ⟨hnames, hpath⟩ := hkept hrest
      by_cases hv : v.entry = .changeDir ∧ (d.visit v).2.1 = .ok
      · refine ⟨fun host h => ?_, fun h => ?_⟩
        · obtain rfl : v.host = host := by simpa [hv] using h
          rw [Resolves, hnames, hpath, hbase]
          exact resolves_visit hv.1 hv.2
        · simp [hv] at h
      · obtain ⟨hnames', hpath'⟩ := directory_visit hv
        refine ⟨fun host h => ?_, fun _ => ?_⟩
        · simp [hv] at h
        · rw [hnames, hpath]
          exact ⟨hnames', hpath'⟩

/-- The current directory after a history was found on this host, or else it is still the one at the
    start, and this host has that. -/
def FoundOn (d : Drive) (host : Host) (history : List (Visit γ)) : Prop :=
  d.enteredOn history = some host ∨
    (d.enteredOn history = none ∧ host.isDirectory d.base = true)

theorem resolves_after_new {base : HostPath} {label : String} {host : Host}
    {history : List (Visit γ)} (h : (new base label).FoundOn host history) :
    ((new base label).after history).Resolves host := by
  obtain ⟨hfound, hkept⟩ := (new base label).resolves_after history
  rcases h with hlast | ⟨hnone, hbase⟩
  · exact hfound host hlast
  · -- no name leads from the base to itself
    obtain ⟨hnames, hpath⟩ := hkept hnone
    rw [Resolves, hnames, hpath, base_after]
    exact if_pos hbase

end Drive

/-! ## Section 2: The text that the guest was told -/

/-- A flat guest that hands the answer to a get-directory back as a path is heard to say the current
    directory. -/
theorem Drive.path_of_told {d : Drive} {base : HostPath}
    (h : LiesBelow base d.directory d.hostDirectory) {v w : Visit FlatGuest}
    (hv : v.entry = .getCurrentDir) (haddress : w.guest.registers.hl = v.guest.registers.de)
    (hmemory : w.guest.peek = (d.visit v).2.2.peek) : w.path = d.currentDirectory := by
  rw [visit_getCurrentDir hv, FlatGuest.peek_deliver] at hmemory
  show Guest.readText w.guest.peek w.guest.registers.hl longestGuestPath = _
  rw [hmemory, haddress]
  exact h.readText_store v.guest v.guest.registers.de (Nat.le_refl _)

/-! ## Section 3: Back to where one is -/

/-- **The current directory can be entered again** on this host. -/
structure Reenters (d : Drive) (host : Host) : Prop where
  /-- What the guest is told comes down to the names of the directory. -/
  components : GuestPath.components d.currentDirectory = d.directory
  /-- They lead to the directory. -/
  resolves : host.resolve d.base d.directory = some d.hostDirectory
  /-- A get-directory into any buffer succeeds, and so does a change-directory to what stands in the
      buffer then. Both leave the drive as it is. -/
  stays : ∀ v w : Visit FlatGuest, v.entry = .getCurrentDir → w.entry = .changeDir →
    w.host = host → w.guest.registers.hl = v.guest.registers.de →
    w.guest.peek = (d.visit v).2.2.peek →
    (d.visit v).2.1 = .ok ∧ (d.visit v).1 = d ∧
      ((d.visit v).1.visit w).2.1 = .ok ∧ ((d.visit v).1.visit w).1 = d

/-- **Asking for the current directory and entering it changes nothing**, after any history of
    calls, on the host on which it was found. -/
theorem told_directory_reenters {base : HostPath} {label : String} {host : Host}
    {history : List (Visit γ)} (hfound : (Drive.new base label).FoundOn host history) :
    Reenters ((Drive.new base label).after history) host := by
  have hbelow := Drive.liesBelow_after_new base label history
  have hresolves := Drive.resolves_after_new hfound
  -- from here on only base and directory of the drive matter, not how it came about
  generalize (Drive.new base label).after history = d at hbelow hresolves
  have hcomponents : GuestPath.components d.currentDirectory = d.directory :=
    GuestPath.components_spelling hbelow.isPlainName
  refine ⟨hcomponents, hresolves, fun v w hv hw hhost haddress hmemory => ?_⟩
  have henters : w.Enters d.base d.directory d.hostDirectory := by
    refine ⟨hw, ?_, hhost ▸ hresolves⟩
    rw [Drive.path_of_told hbelow hv haddress hmemory, hcomponents]
  rw [Drive.visit_getCurrentDir hv]
  exact ⟨rfl, rfl, by rw [Drive.visit_of_enters henters], by rw [Drive.visit_of_enters henters]⟩

/-- The directory of the games, told into a buffer at the very end of memory. -/
theorem told_directory_reenters_wrapped :
    let enter : Visit FlatGuest := ⟨gamesHost, .changeDir, .giving "a:games"⟩
    let d := (Drive.new ⟨"/d"⟩ "D").after [enter]
    let ask : Visit FlatGuest :=
      ⟨gamesHost, .getCurrentDir, Guest.setRegisters (FlatGuest.filled 0xFF) { de := 0xFFFD }⟩
    let again : Visit FlatGuest :=
      ⟨gamesHost, .changeDir, Guest.setRegisters (d.visit ask).2.2 { hl := 0xFFFD }⟩
    (Drive.new ⟨"/d"⟩ "D").FoundOn gamesHost [enter] ∧ d.hostDirectory = ⟨"/d/GAMES"⟩ ∧
      ((d.visit ask).1.visit again).2.1 = .ok ∧ ((d.visit ask).1.visit again).1 = d := by
  intro enter d ask again
  have hpath : enter.path = Guest.heard longestGuestPath "a:games" :=
    Visit.path_of_holdsText (FlatGuest.holdsText_giving (by decide) _) (by simp)
  have henters : enter.Enters ⟨"/d"⟩ ["games"] ⟨"/d/GAMES"⟩ := by
    refine ⟨rfl, ?_, by decide⟩
    rw [hpath]
    decide
  have hvisit := Drive.visit_of_enters (d := Drive.new ⟨"/d"⟩ "D") henters
  have hfound : (Drive.new ⟨"/d"⟩ "D").FoundOn gamesHost [enter] :=
    .inl (by simp [Drive.enteredOn, hvisit, enter])
  have hdirectory : d.hostDirectory = ⟨"/d/GAMES"⟩ := by
    have hafter : d = (Drive.new ⟨"/d"⟩ "D").after [enter] := rfl
    rw [hafter, Drive.after_cons, Drive.after_nil, hvisit]
  obtain ⟨-, -, hstays⟩ := told_directory_reenters hfound
  obtain ⟨-, -, hok, hsame⟩ := hstays ask again rfl rfl rfl rfl (FlatGuest.peek_setRegisters _ _)
  exact ⟨hfound, hdirectory, hok, hsame⟩

end HostDrive

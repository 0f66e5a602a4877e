import HostDrive.Proofs.Drive.Outcome
import HostDrive.Proofs.Guest.Text
import HostDrive.Proofs.Host.Resolve

/-!
# The Current Directory

Whatever calls a drive has served, its current directory is one that the guest can be told in a
buffer of 64 bytes, and that lies below the base directory. Only a successful change-directory
moves it, and then both its spelling for the guest and its path on the host.

## Architecture

- `LiesBelow` is the invariant, and `Visit.Enters.liesBelow` its step: it holds of any directory
  that a call enters, whatever text the guest gave. `changeDir_ok_iff` says that this is a success.
- `directory_after` is the run: it says which call of a history the current directory comes from.
- `DirectoryKept` collects what follows for the drive and for the guest that asks.
-/

namespace HostDrive

open GuestPath (IsName IsPlainName)

variable {γ : Type} [Guest γ]

/-! ## Section 1: Entering a directory -/

/-- **Success is entering**: a change-directory succeeds exactly if it enters a directory. -/
theorem Drive.changeDir_ok_iff {d : Drive} {v : Visit γ} :
    v.entry = .changeDir ∧ (d.visit v).2.1 = .ok ↔
      ∃ names directory, v.Enters d.base names directory := by
  constructor
  · rintro ⟨hentry, hok⟩
    obtain henters | hstays := v.enters_or_stays d.base
    · exact henters
    · rw [visit_changeDir_of_stays hentry hstays] at hok
      exact nomatch hok
  · rintro ⟨names, directory, h⟩
    rw [visit_of_enters h]
    exact ⟨h.1, rfl⟩

/-! ## Section 2: The call that entered the current directory -/

/-- **The directory entered last** in a history: some call entered it, and no call since then
    entered any. -/
def LastEntered (base : HostPath) (history : List (Visit γ)) (names : List String)
    (directory : HostPath) : Prop :=
  ∃ before v since, history = before ++ v :: since ∧ v.Enters base names directory ∧
    ∀ w ∈ since, w.Stays base

theorem LastEntered.cons {base : HostPath} {history : List (Visit γ)} {names : List String}
    {directory : HostPath} (h : LastEntered base history names directory) (v : Visit γ) :
    LastEntered base (v :: history) names directory := by
  obtain ⟨before, w, since, rfl, henters, hsince⟩ := h
  exact ⟨v :: before, w, since, rfl, henters, hsince⟩

/-- **Where the current directory comes from**: the last call that entered one, or else it is still
    the one at the start. -/
theorem Drive.directory_after (d : Drive) (history : List (Visit γ)) :
    LastEntered d.base history (d.after history).directory (d.after history).hostDirectory ∨
      ((∀ v ∈ history, v.Stays d.base) ∧ (d.after history).directory = d.directory ∧
        (d.after history).hostDirectory = d.hostDirectory) := by
  induction history generalizing d with
  | nil => exact .inr ⟨List.forall_mem_nil _, rfl, rfl⟩
  | cons v history ih =>
    have hrest := ih (d.visit v).1
    rw [(d.base_visit v).1] at hrest
    rw [after_cons]
    rcases hrest with hlast | ⟨hstay, hnames, hpath⟩
    · exact .inl (hlast.cons v)
    · -- the rest of the history left the directory alone, so the first call decides
      rw [hnames, hpath]
      obtain ⟨names, directory, henters⟩ | hv := v.enters_or_stays d.base
      · rw [visit_of_enters henters]
        exact .inl ⟨[], v, history, rfl, henters, hstay⟩
      · have hnot : ¬ (v.entry = .changeDir ∧ (d.visit v).2.1 = .ok) := by
          intro hok
          obtain ⟨names, directory, henters⟩ := changeDir_ok_iff.mp hok
          exact hv names directory henters
        obtain ⟨hnames', hpath'⟩ := directory_visit hnot
        rw [hnames', hpath']
        exact .inr ⟨List.forall_mem_cons.mpr ⟨hv, hstay⟩, rfl, rfl⟩

/-! ## Section 3: The invariant -/

/-- **A directory below the base that the guest can be told**: its names are plain and not too many,
    and its path on the host is the base followed by one host name for each. -/
structure LiesBelow (base : HostPath) (names : List String) (directory : HostPath) : Prop where
  isPlainName : ∀ n ∈ names, IsPlainName n
  isPlainChar : ∀ n ∈ names, ∀ c ∈ n.toList, Text.IsPlainChar c
  short : (GuestPath.spelling names).length ≤ longestGuestPath
  spelled : ∃ spelled, SpelledAs spelled names ∧ directory = base.along spelled

theorem liesBelow_root (base : HostPath) : LiesBelow base [] base where
  isPlainName := List.forall_mem_nil _
  isPlainChar := List.forall_mem_nil _
  short := Nat.zero_le _
  spelled := ⟨[], List.Forall₂.nil, rfl⟩

/-- Whatever text the guest gave as a path, a directory that is entered lies below the base. -/
theorem Visit.Enters.liesBelow {base : HostPath} {v : Visit γ} {names : List String}
    {directory : HostPath} (h : v.Enters base names directory) :
    LiesBelow base names directory := by
  obtain ⟨-, rfl, hresolve⟩ := h
  obtain ⟨hcolon, hspelled⟩ := Host.resolve_eq_some hresolve
  obtain ⟨hlength, hplain⟩ := Guest.readText_bounds (Guest.peek v.guest)
    (Guest.registers v.guest).hl longestGuestPath
  -- the host lets no colon through; the rest is due to the text that the names come from
  refine ⟨?name, ?char, ?short, hspelled⟩
  case name =>
    intro n hn
    exact ⟨(GuestPath.isName_of_mem_components hn).1, fun c hc heq => hcolon n hn (heq ▸ hc)⟩
  case char =>
    intro n hn c hc
    exact hplain c ((GuestPath.isName_of_mem_components hn).2 c hc)
  case short => exact (GuestPath.length_spelling_components v.path).trans hlength

/-- Only backslashes come in when the names are spelled out. -/
theorem LiesBelow.isPlainChar_spelling {base : HostPath} {names : List String}
    {directory : HostPath} (h : LiesBelow base names directory) :
    ∀ c ∈ (GuestPath.spelling names).toList, Text.IsPlainChar c := by
  intro c hc
  rcases GuestPath.mem_spelling hc with rfl | ⟨n, hn, hc⟩
  · decide
  · exact h.isPlainChar n hn c hc

/-- The current directory always lies below the base. -/
theorem Drive.liesBelow_after_new (base : HostPath) (label : String) (history : List (Visit γ)) :
    LiesBelow base ((new base label).after history).directory
      ((new base label).after history).hostDirectory := by
  rcases (new base label).directory_after history with hlast | ⟨-, hnames, hpath⟩
  · obtain ⟨_, _, _, -, henters, -⟩ := hlast
    exact henters.liesBelow
  · rw [hnames, hpath]
    exact liesBelow_root base

/-! ## Section 4: Telling the guest -/

namespace LiesBelow

variable {base directory : HostPath} {names : List String}

/-- The buffer that the guest has to have for it. -/
theorem length_plainText_le (h : LiesBelow base names directory) :
    (Guest.plainText (GuestPath.spelling names)).length ≤ 64 := by
  rw [Guest.length_plainText_of_ascii (Text.ascii_of_plain h.isPlainChar_spelling)]
  exact Nat.succ_le_succ h.short

/-- The guest reads it back wherever memory keeps what was written. -/
theorem readText_of_holds (h : LiesBelow base names directory) {view : Guest.View}
    {address : UInt16} {limit : Nat} (hlimit : 63 ≤ limit)
    (hkept : Guest.readBlock view address (Guest.plainText (GuestPath.spelling names)).length =
      Guest.plainText (GuestPath.spelling names)) :
    Guest.readText view address limit = GuestPath.spelling names :=
  Guest.readText_of_holds h.isPlainChar_spelling (h.short.trans hlimit) hkept

/-- Flat memory keeps it. -/
theorem readText_store (h : LiesBelow base names directory) (g : FlatGuest) (address : UInt16)
    {limit : Nat} (hlimit : 63 ≤ limit) :
    Guest.readText (Guest.store g address (Guest.plainText (GuestPath.spelling names))).peek address
      limit = GuestPath.spelling names := by
  have hfit : (Guest.plainText (GuestPath.spelling names)).length ≤ memorySize :=
    h.length_plainText_le.trans (by decide)
  exact h.readText_of_holds hlimit (FlatGuest.readBlock_store g address _ hfit)

end LiesBelow

/-- What is known of the current directory of a drive with this base, after this history. -/
structure DirectoryKept (base : HostPath) (history : List (Visit γ)) (d : Drive) : Prop where
  /-- The guest is told an ASCII text of at most 63 bytes, names with backslashes between them. -/
  isAscii : Text.isAscii d.currentDirectory = true
  short : (Text.utf8 d.currentDirectory).length ≤ 63
  names : d.currentDirectory = "\\".intercalate d.directory
  /-- No name is empty, `.` or `..`, or holds a separator, a colon or a zero byte. -/
  plain : ∀ n ∈ d.directory, IsPlainName n ∧ ∀ c ∈ n.toList, c.toNat ≠ 0
  /-- The host's path is the base followed by one name for each, the same but for case. -/
  host : ∃ spelled, List.Forall₂ (fun s n => Text.sameIgnoringCase s n = true) spelled d.directory ∧
    d.hostDirectory = spelled.foldl HostPath.join base
  /-- Both come from the last call that entered a directory, or are the root's. -/
  entered : LastEntered base history d.directory d.hostDirectory ∨
    ((∀ v ∈ history, v.Stays base) ∧ d.currentDirectory = "" ∧ d.hostDirectory = base)
  /-- The calls that enter a directory are the change-directories that succeed. -/
  succeeds : ∀ v : Visit γ, v.entry = .changeDir ∧ (d.visit v).2.1 = .ok ↔
    ∃ names directory, v.Enters base names directory
  /-- Every other call leaves both as they are. -/
  stays : ∀ v : Visit γ, ¬ (v.entry = .changeDir ∧ (d.visit v).2.1 = .ok) →
    (d.visit v).1.currentDirectory = d.currentDirectory ∧
    (d.visit v).1.hostDirectory = d.hostDirectory
  /-- The guest that asks for it gets at most 64 bytes, and reads it back wherever memory keeps
      them. -/
  told : ∀ v : Visit γ, v.entry = .getCurrentDir → ∃ bytes, bytes.length ≤ 64 ∧
    (d.visit v).2 = (.ok, (Reply.store (Guest.registers v.guest).de bytes).deliver v.guest) ∧
    ∀ view limit, Guest.readBlock view (Guest.registers v.guest).de bytes.length = bytes →
      63 ≤ limit →
      Guest.readText view (Guest.registers v.guest).de limit = d.currentDirectory
  /-- Flat memory keeps them. -/
  readBack : ∀ v : Visit FlatGuest, v.entry = .getCurrentDir → ∀ limit, 63 ≤ limit →
    Guest.readText (d.visit v).2.2.peek v.guest.registers.de limit = d.currentDirectory

/-- **The current directory, after any history of calls**: where it lies, what it comes from, and
    that the guest is told no less and no more. -/
theorem current_directory_kept (base : HostPath) (label : String) (history : List (Visit γ)) :
    DirectoryKept base history ((Drive.new base label).after history) := by
  have hbase : ((Drive.new base label).after history).base = base := Drive.base_after _ _
  have hbelow := Drive.liesBelow_after_new base label history
  have hentered := (Drive.new base label).directory_after history
  -- from here on only base and directory of the drive matter, not how it came about
  generalize (Drive.new base label).after history = d at hbase hbelow hentered
  subst hbase
  refine ⟨Text.isAscii_of_plain hbelow.isPlainChar_spelling, ?short, rfl, ?plain, hbelow.spelled,
    ?entered, fun v => Drive.changeDir_ok_iff, ?stays, ?told, ?readBack⟩
  case short =>
    rw [Drive.currentDirectory, Text.length_utf8_of_plain hbelow.isPlainChar_spelling]
    exact hbelow.short
  case plain =>
    intro n hn
    exact ⟨hbelow.isPlainName n hn, fun c hc => Nat.ne_of_gt (hbelow.isPlainChar n hn c hc).1⟩
  case entered =>
    apply hentered.imp_right
    rintro ⟨hstay, hnames, hpath⟩
    have hroot : GuestPath.spelling d.directory = "" := by
      rw [hnames]
      rfl
    exact ⟨hstay, hroot, hpath⟩
  case stays =>
    intro v hv
    obtain ⟨hnames, hpath⟩ := Drive.directory_visit hv
    exact ⟨congrArg GuestPath.spelling hnames, hpath⟩
  case told =>
    intro v hentry
    refine ⟨Guest.plainText d.currentDirectory, hbelow.length_plainText_le, ?_, ?_⟩
    · rw [Drive.visit_getCurrentDir hentry]
    · intro view limit hkept hlimit
      exact hbelow.readText_of_holds hlimit hkept
  case readBack =>
    intro v hentry limit hlimit
    rw [Drive.visit_getCurrentDir hentry, FlatGuest.peek_deliver]
    exact hbelow.readText_store v.guest v.guest.registers.de hlimit

end HostDrive

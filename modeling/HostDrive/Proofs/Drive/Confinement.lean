import HostDrive.Proofs.Drive.Calls
import HostDrive.Proofs.Host.Resolve

/-!
# Confinement

A guest learns nothing of a host but what lies below the base directory of its drive, and there
nothing of files whose names it could not spell. This compares two runs: on hosts that agree on all
of that, whatever else they hold, every call of a session comes out the same.

## Architecture

- `Host.AgreesBelow` is what the two hosts have in common.
- `AgreesBelow.enter` is the step: both hosts go down the same way, to a directory below which they
  still agree. `AgreesBelow.resolve` follows a whole path.
- `Drive.answer_congr`: a single call comes out the same.
- A session is a list of requests, and by induction over it all its calls do.
-/

namespace HostDrive

open GuestPath (IsName IsPlainName)

/-! ## Section 1: Hosts that agree below a directory -/

namespace Host

/-- A listing without the files that stay hidden from every guest. A directory whose name is no
    short name stays, as a path may still lead through it. -/
def unhidden (listing : List Entry) : List Entry :=
  listing.filter fun e => e.isDirectory || ShortName.isLegal e.name

/-- Two answers to a request for a listing: both refuse it, or they differ in hidden files only. -/
inductive ListAlike :
    Except ListingError (List Entry) → Except ListingError (List Entry) → Prop where
  | refused (reason reason' : ListingError) : ListAlike (.error reason) (.error reason')
  | listed {listing listing' : List Entry} (h : unhidden listing = unhidden listing') :
      ListAlike (.ok listing) (.ok listing')

/-- **Agreeing below a directory**: on every path from there along plain names, both hosts say the
    same about whether it is a directory, and list alike. -/
structure AgreesBelow (host host' : Host) (directory : HostPath) : Prop where
  isDirectory : ∀ names : List String, (∀ n ∈ names, IsPlainName n) →
    host.isDirectory (directory.along names) = host'.isDirectory (directory.along names)
  list : ∀ names : List String, (∀ n ∈ names, IsPlainName n) →
    ListAlike (host.list (directory.along names)) (host'.list (directory.along names))

/-- A directory with a name is not hidden, so it is found with or without the hidden files. -/
theorem matchingDirectory?_unhidden (listing : List Entry) (name : String) :
    matchingDirectory? (unhidden listing) name = matchingDirectory? listing name := by
  unfold matchingDirectory? unhidden
  rw [List.find?_filter]
  congr 1
  funext e
  cases e.isDirectory <;> simp

variable {host host' : Host} {directory : HostPath}

namespace AgreesBelow

/-- Hosts that agree below a directory agree below each of its members. -/
theorem join (h : AgreesBelow host host' directory) {name : String} (hname : IsPlainName name) :
    AgreesBelow host host' (directory.join name) where
  isDirectory names hnames :=
    h.isDirectory (name :: names) (List.forall_mem_cons.mpr ⟨hname, hnames⟩)
  list names hnames := h.list (name :: names) (List.forall_mem_cons.mpr ⟨hname, hnames⟩)

/-- **The step of a name**: both hosts go the same way, to where they still agree. -/
theorem enter (h : AgreesBelow host host' directory) {name : String} (hname : IsName name) :
    host.enter directory name = host'.enter directory name ∧
      ∀ inner, host.enter directory name = some inner → AgreesBelow host host' inner := by
  by_cases hcolon : ':' ∈ name.toList
  · -- no host is asked about a name with a colon
    have hnone : ∀ host : Host, host.enter directory name = none :=
      fun host => if_pos (by simpa using hcolon)
    rw [hnone, hnone]
    exact ⟨rfl, nofun⟩
  · have hplain : IsPlainName name := ⟨hname, fun c hc heq => hcolon (heq ▸ hc)⟩
    refine ⟨?same, ?below⟩
    case below =>
      intro inner hinner
      -- the host may spell the name its own way, and that is a plain name too
      obtain ⟨-, spelled, hspelled, rfl⟩ := enter_eq_some hinner
      exact h.join (hplain.of_sameIgnoringCase hspelled)
    case same =>
      have hexact : host.isDirectory (directory.join name) =
          host'.isDirectory (directory.join name) := h.isDirectory [name] (by simpa using hplain)
      have hlist : ListAlike (host.list directory) (host'.list directory) :=
        h.list [] (List.forall_mem_nil _)
      unfold Host.enter
      rw [hexact]
      generalize host.list directory = listed at hlist ⊢
      generalize host'.list directory = listed' at hlist ⊢
      cases hlist with
      | refused reason reason' => rfl
      | @listed listing listing' hunhidden =>
        -- hidden files do not take part in the search for a directory
        have hmatch : matchingDirectory? listing name = matchingDirectory? listing' name := by
          rw [← matchingDirectory?_unhidden listing, hunhidden, matchingDirectory?_unhidden]
        simp only [hmatch]

/-- Both hosts go the same way along names, to where they still agree. -/
theorem descend (h : AgreesBelow host host' directory) {names : List String}
    (hnames : ∀ n ∈ names, IsName n) :
    host.descend directory names = host'.descend directory names ∧
      ∀ inner, host.descend directory names = some inner → AgreesBelow host host' inner := by
  induction names generalizing directory with
  | nil =>
    refine ⟨rfl, fun inner hinner => ?_⟩
    obtain rfl : directory = inner := Option.some.inj hinner
    exact h
  | cons name rest ih =>
    obtain ⟨hsame, hbelow⟩ := h.enter (hnames name List.mem_cons_self)
    unfold Host.descend
    rw [← hsame]
    cases hnext : host.enter directory name with
    | none =>
      refine ⟨rfl, fun inner hinner => ?_⟩
      cases hinner
    | some next => exact ih (hbelow next hnext) fun n hn => hnames n (List.mem_cons_of_mem _ hn)

/-- **Both hosts resolve a path alike**, to a directory below which they still agree. -/
theorem resolve (h : AgreesBelow host host' directory) {names : List String}
    (hnames : ∀ n ∈ names, IsName n) :
    host.resolve directory names = host'.resolve directory names ∧
      ∀ inner, host.resolve directory names = some inner → AgreesBelow host host' inner := by
  have hbase : host.isDirectory directory = host'.isDirectory directory :=
    h.isDirectory [] (List.forall_mem_nil _)
  unfold Host.resolve
  rw [← hbase]
  split
  · exact h.descend hnames
  · exact ⟨rfl, nofun⟩

end AgreesBelow

end Host

/-! ## Section 2: One call -/

namespace Drive

variable {host host' : Host} {d : Drive}

/-- A search never hands over a hidden file. -/
theorem selection_unhidden (pattern : String) (listing : List Entry) :
    selection pattern (Host.unhidden listing) = selection pattern listing := by
  unfold selection Host.unhidden
  rw [List.filter_filter]
  congr 2
  funext e
  cases ShortName.isLegal e.name <;> simp

/-- What a search text asks for differs in hidden files only. -/
theorem lookUp_congr (h : host.AgreesBelow host' d.base) (search : GuestPath.Search) :
    (d.lookUp host search).map Host.unhidden = (d.lookUp host' search).map Host.unhidden := by
  have hnames : ∀ n ∈ GuestPath.components search.directory, IsName n :=
    fun n hn => (GuestPath.isName_of_mem_components hn).1
  -- the same directory on both hosts, and two listings of it that are alike
  obtain ⟨hsame, hbelow⟩ := h.resolve hnames
  unfold lookUp
  rw [← hsame]
  cases hdirectory : host.resolve d.base (GuestPath.components search.directory) with
  | none => rfl
  | some directory =>
    have hlist : Host.ListAlike (host.list directory) (host'.list directory) :=
      (hbelow directory hdirectory).list [] (List.forall_mem_nil _)
    simp only
    generalize host.list directory = listed at hlist ⊢
    generalize host'.list directory = listed' at hlist ⊢
    cases hlist with
    | refused reason reason' => rfl
    | listed hunhidden => exact congrArg some hunhidden

theorem findFirst_congr (h : host.AgreesBelow host' d.base) (r : CallRegisters)
    (view : Guest.View) : d.findFirst host r view = d.findFirst host' r view := by
  have hlookUp := lookUp_congr h
    (GuestPath.searchPath (Guest.readText view r.iy longestGuestPath))
  simp only [findFirst]
  generalize GuestPath.searchPath (Guest.readText view r.iy longestGuestPath) = search at hlookUp ⊢
  generalize d.lookUp host search = listing? at hlookUp ⊢
  generalize d.lookUp host' search = listing?' at hlookUp ⊢
  cases listing? with
  | none =>
    obtain rfl : listing?' = none := Option.map_eq_none_iff.mp hlookUp.symm
    rfl
  | some listing =>
    obtain ⟨listing', rfl, hunhidden⟩ := Option.map_eq_some_iff.mp hlookUp.symm
    have hfound : selection search.pattern listing = selection search.pattern listing' := by
      rw [← selection_unhidden, ← hunhidden, selection_unhidden]
    simp only [hfound]

theorem changeDirectory_congr (h : host.AgreesBelow host' d.base) (r : CallRegisters)
    (view : Guest.View) : d.changeDirectory host r view = d.changeDirectory host' r view := by
  have hnames : ∀ n ∈ GuestPath.components (Guest.readText view r.hl longestGuestPath), IsName n :=
    fun n hn => (GuestPath.isName_of_mem_components hn).1
  simp only [changeDirectory]
  rw [(h.resolve hnames).1]

/-- **A call comes out the same** on hosts that agree below the base. -/
theorem answer_congr (h : host.AgreesBelow host' d.base) (entry : EntryPoint) (r : CallRegisters)
    (view : Guest.View) : d.answer host entry r view = d.answer host' entry r view := by
  cases entry with
  | alloc | findNext | getCurrentDir | getVolume => rfl
  | findFirst => exact findFirst_congr h r view
  | changeDir => exact changeDirectory_congr h r view

theorem visit_congr {γ : Type} [Guest γ] (h : host.AgreesBelow host' d.base) (entry : EntryPoint)
    (guest : γ) : d.visit ⟨host, entry, guest⟩ = d.visit ⟨host', entry, guest⟩ := by
  unfold visit call
  rw [answer_congr h]

end Drive

/-! ## Section 3: Sessions -/

/-- **A request**: what the guest does of its own, the routine that it calls then, and the host as
    it is at that time. -/
structure Request (γ : Type) where
  before : γ → γ
  entry : EntryPoint
  host : Host

/-- The same request, on hosts that agree below a directory. -/
structure Request.Alike {γ : Type} (base : HostPath) (r r' : Request γ) : Prop where
  before : r.before = r'.before
  entry : r.entry = r'.entry
  host : r.host.AgreesBelow r'.host base

/-- Drive, status and guest after each request of a session. -/
def Drive.session {γ : Type} [Guest γ] (d : Drive) (guest : γ) :
    List (Request γ) → List (Drive × Status × γ)
  | [] => []
  | r :: rest =>
    let outcome := d.visit ⟨r.host, r.entry, r.before guest⟩
    outcome :: outcome.1.session outcome.2.2 rest

/-- **Confinement.** Two sessions of the same requests, on hosts that agree below the base directory
    of the drive, leave the same drive, status and guest at every step, whatever the hosts hold
    elsewhere or in files with names that no guest can spell. -/
theorem sessions_confined {γ : Type} [Guest γ] (base : HostPath) (label : String) (guest : γ)
    {requests requests' : List (Request γ)}
    (h : List.Forall₂ (Request.Alike base) requests requests') :
    (Drive.new base label).session guest requests =
      (Drive.new base label).session guest requests' := by
  -- on the requests, for any drive with this base, as no call moves the base
  have hbase : (Drive.new base label).base = base := rfl
  generalize Drive.new base label = d at hbase
  induction h generalizing d guest with
  | nil => rfl
  | @cons r r' rest rest' hr _ ih =>
    subst hbase
    obtain ⟨before, entry, host⟩ := r
    obtain ⟨before', entry', host'⟩ := r'
    have hagrees : host.AgreesBelow host' d.base := hr.host
    obtain rfl : before = before' := hr.before
    obtain rfl : entry = entry' := hr.entry
    -- the first call comes out the same, so the rest starts from the same drive and guest
    simp only [Drive.session, Drive.visit_congr hagrees]
    rw [ih _ _ (d.base_visit _).1]

/-- A host with one directory, and one file in it. -/
def Host.oneFile : Host where
  isDirectory path := path == ⟨"/d"⟩
  list path := if path == ⟨"/d"⟩ then .ok [.file "A.TXT" 1 {}] else .error (.noDirectory path)

/-- The same host with another directory outside, and with a file whose name is too long. -/
def Host.withSecrets : Host where
  isDirectory path := path == ⟨"/d"⟩ || path == ⟨"/etc"⟩
  list path :=
    if path == ⟨"/d"⟩ then .ok [.file "secret.password" 7 {}, .file "A.TXT" 1 {}]
    else if path == ⟨"/etc"⟩ then .ok [.file "SHADOW" 9 {}]
    else .error (.noDirectory path)

theorem Host.oneFile_agreesBelow : oneFile.AgreesBelow withSecrets ⟨"/d"⟩ := by
  have hinside : ∀ names : List String, (∀ n ∈ names, IsPlainName n) →
      ((HostPath.along ⟨"/d"⟩ names) == (⟨"/etc"⟩ : HostPath)) = false := by
    intro names hnames
    apply beq_false_of_ne
    intro heq
    -- a path along names keeps the text of the base in front
    have hbelow := HostPath.text_isPrefix_along ⟨"/d"⟩ fun n hn => (hnames n hn).toIsName
    rw [heq] at hbelow
    exact absurd hbelow (by decide)
  constructor
  · intro names hnames
    simp only [oneFile, withSecrets, hinside names hnames, Bool.or_false]
  · intro names hnames
    simp only [oneFile, withSecrets, hinside names hnames]
    split
    · exact .listed (by decide)
    · exact .refused _ _

/-- A guest that looks for everything in the directory outside, and then for all that it can get. -/
theorem sessions_confined_dots :
    let asks (host : Host) : List (Request FlatGuest) :=
      [⟨fun g => Guest.store { g with registers := { iy := 0xA000 } } 0xA000
          (Guest.rawText "..\\..\\etc\\*.*"), .findFirst, host⟩,
        ⟨fun g => Guest.store g 0xA000 (Guest.rawText "C:\\..\\*.*"), .findFirst, host⟩,
        ⟨id, .findNext, host⟩]
    (Drive.new ⟨"/d"⟩ "D").session (FlatGuest.filled 0) (asks Host.oneFile) =
      (Drive.new ⟨"/d"⟩ "D").session (FlatGuest.filled 0) (asks Host.withSecrets) := by
  intro asks
  refine sessions_confined ⟨"/d"⟩ "D" (FlatGuest.filled 0) ?_
  have hagrees := Host.oneFile_agreesBelow
  exact .cons ⟨rfl, rfl, hagrees⟩ (.cons ⟨rfl, rfl, hagrees⟩ (.cons ⟨rfl, rfl, hagrees⟩ .nil))

end HostDrive

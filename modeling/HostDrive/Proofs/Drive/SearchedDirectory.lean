import HostDrive.Proofs.Drive.Outcome
import HostDrive.Proofs.Guest.Text
import HostDrive.Proofs.SearchPath
import HostDrive.Proofs.Wildcard

/-!
# Searched Directories

A find-first and a change-directory understand directories in the same way, although they cut their
texts at different places: a search looks into the very directory that a change-directory would
enter. Neither of them asks what the current directory is, or what was searched before.

## Architecture

- `SearchesEntered` is what a find-first and a change-directory have to do with each other when they
  mean the same directory.
- `Drive.searchesEntered_of_components` proves it from the names that both texts come down to.
- `find_first_agrees_with_change_dir` starts from the texts.
-/

namespace HostDrive

open Guest (HoldsText heard)

variable {γ δ : Type} [Guest γ] [Guest δ]

/-! ## Section 1: A search and the entered directory -/

/-- **A find-first searches what a change-directory enters.** The find-first `v` is served by drive
    `d` and the change-directory `w` by drive `e`; `asked` takes from a listing what the search asks
    for. -/
structure SearchesEntered (d : Drive) (v : Visit γ) (e : Drive) (w : Visit δ)
    (asked : List Entry → List Entry) : Prop where
  /-- Both find no directory, or none of them, if the directory that is entered can be listed. -/
  noDirectory_iff :
    ((e.visit w).2.1 = .ok → ∃ listing, v.host.list (e.visit w).1.hostDirectory = .ok listing) →
    ((d.visit v).2.1 = .noDirectory ↔ (e.visit w).2.1 = .noDirectory)
  /-- The snapshot comes from the directory that is entered. -/
  snapshot : (e.visit w).2.1 ≠ .noDirectory →
    ∀ listing, v.host.list (e.visit w).1.hostDirectory = .ok listing →
    ∃ found, InGuestOrder (asked listing) found ∧
      (d.visit v).1.searches.get? v.block.serial = some found.toArray ∧
      (d.visit v).2.1 = if found = [] then .noFile else .ok
  /-- Whatever was searched before and whatever directory is current, the search ends in the same
      way. -/
  search_alike : ∀ d' : Drive, d'.base = d.base →
    (d'.visit v).2 = (d.visit v).2 ∧
    ((d.visit v).2.1 ≠ .noDirectory → (d'.visit v).1.searches.get? v.block.serial =
      (d.visit v).1.searches.get? v.block.serial)
  /-- So does the change of directory. -/
  enter_alike : ∀ e' : Drive, e'.base = e.base →
    (e'.visit w).2 = (e.visit w).2 ∧
    ((e.visit w).2.1 ≠ .noDirectory → (e'.visit w).1.directory = (e.visit w).1.directory ∧
      (e'.visit w).1.hostDirectory = (e.visit w).1.hostDirectory)

namespace Drive

variable {d e : Drive} {v : Visit γ} {w : Visit δ}

/-- A snapshot stands in its slot, and its first entry decides about the status. -/
theorem findFirst_of_takes {found : List Entry} (h : v.Takes d.base found) :
    (d.visit v).1.searches.get? v.block.serial = some found.toArray ∧
      (d.visit v).2.1 = if found = [] then .noFile else .ok := by
  rw [visit_findFirst_of_takes h]
  cases found <;> simp [SearchTable.get?_insert]

/-- Of the state of a drive, a find-first asks for the base alone. -/
theorem findFirst_alike (hentry : v.entry = .findFirst) {d' : Drive} (hbase : d'.base = d.base) :
    (d'.visit v).2 = (d.visit v).2 ∧
      ((d.visit v).2.1 ≠ .noDirectory → (d'.visit v).1.searches.get? v.block.serial =
        (d.visit v).1.searches.get? v.block.serial) := by
  by_cases htakes : ∃ found, v.Takes d.base found
  · obtain ⟨found, hfound⟩ := htakes
    rw [visit_findFirst_of_takes hfound, visit_findFirst_of_takes (hbase ▸ hfound)]
    -- both drives keep the new snapshot where the block says
    cases found[0]? <;> simp [SearchTable.get?_insert]
  · have hnone : ∀ found, ¬ v.Takes d.base found := fun found h => htakes ⟨found, h⟩
    rw [visit_findFirst_of_not_takes hentry hnone,
      visit_findFirst_of_not_takes hentry (hbase ▸ hnone)]
    exact ⟨rfl, fun h => absurd rfl h⟩

/-- Nor does a change-directory ask for more. -/
theorem changeDir_alike (hentry : w.entry = .changeDir) {e' : Drive} (hbase : e'.base = e.base) :
    (e'.visit w).2 = (e.visit w).2 ∧
      ((e.visit w).2.1 ≠ .noDirectory → (e'.visit w).1.directory = (e.visit w).1.directory ∧
        (e'.visit w).1.hostDirectory = (e.visit w).1.hostDirectory) := by
  obtain ⟨names, directory, henters⟩ | hstays := w.enters_or_stays e.base
  · rw [visit_of_enters henters, visit_of_enters (hbase ▸ henters)]
    exact ⟨rfl, fun _ => ⟨rfl, rfl⟩⟩
  · rw [visit_changeDir_of_stays hentry hstays, visit_changeDir_of_stays hentry (hbase ▸ hstays)]
    exact ⟨rfl, fun h => absurd rfl h⟩

/-- **The same names lead to the same directory**, whichever of the two is asked. -/
theorem searchesEntered_of_components (hbase : e.base = d.base) (hv : v.entry = .findFirst)
    (hw : w.entry = .changeDir) (hhost : w.host = v.host)
    (hcomponents : GuestPath.components v.search.directory = GuestPath.components w.path) :
    SearchesEntered d v e w (wanted v.search.pattern) := by
  cases hresolve : v.host.resolve d.base (GuestPath.components w.path) with
  | none =>
    -- the names lead nowhere, so both fail
    have hnone : ∀ found, ¬ v.Takes d.base found := by
      rintro found ⟨-, directory, listing, hdirectory, -, -⟩
      rw [hcomponents, hresolve] at hdirectory
      exact nomatch hdirectory
    have hstays : w.Stays e.base := by
      rintro names directory ⟨-, rfl, hdirectory⟩
      rw [hhost, hbase, hresolve] at hdirectory
      exact nomatch hdirectory
    have hsearch := visit_findFirst_of_not_takes hv hnone
    have henter := visit_changeDir_of_stays hw hstays
    refine ⟨?_, ?_, fun _ h => findFirst_alike hv h, fun _ h => changeDir_alike hw h⟩
    · intro _
      rw [hsearch, henter]
    · intro hentered
      rw [henter] at hentered
      exact absurd rfl hentered
  | some directory =>
    have henters : w.Enters e.base (GuestPath.components w.path) directory := by
      refine ⟨hw, rfl, ?_⟩
      rw [hhost, hbase, hresolve]
    have henter := visit_of_enters henters
    -- whatever the listing is, it is the one that the search takes its snapshot from
    have htakes : ∀ listing, v.host.list directory = .ok listing →
        v.Takes d.base (selection v.search.pattern listing) := by
      intro listing hlist
      refine ⟨hv, directory, listing, ?_, hlist, inGuestOrder_selection _ _⟩
      rw [hcomponents, hresolve]
    refine ⟨?_, ?_, fun _ h => findFirst_alike hv h, fun _ h => changeDir_alike hw h⟩
    · intro hlists
      rw [henter] at hlists ⊢
      obtain ⟨listing, hlist⟩ := hlists rfl
      rw [(findFirst_of_takes (htakes listing hlist)).2]
      split <;> simp
    · intro _ listing hlist
      rw [henter] at hlist
      exact ⟨_, inGuestOrder_selection v.search.pattern listing,
        findFirst_of_takes (htakes listing hlist)⟩

end Drive

/-! ## Section 2: From the texts -/

/-- Asking for everything is asking for the legal names. -/
theorem wanted_matchAll (listing : List Entry) :
    wanted GuestPath.matchAll listing = listing.filter fun e => ShortName.isLegal e.name := by
  simp [wanted, Wildcard.isMatch_matchAll]

/-- A text without zero characters is read as the guest gives it. -/
theorem Visit.path_of_holdsText {w : Visit δ} {text : String}
    (h : HoldsText (Guest.peek w.guest) (Guest.registers w.guest).hl longestGuestPath text)
    (hzero : ∀ c ∈ text.toList, c.toNat ≠ 0) : w.path = heard longestGuestPath text :=
  h.readText hzero

theorem Visit.search_of_holdsText {v : Visit γ} {text : String}
    (h : HoldsText (Guest.peek v.guest) (Guest.registers v.guest).iy longestGuestPath text)
    (hzero : ∀ c ∈ text.toList, c.toNat ≠ 0) :
    v.search = GuestPath.searchPath (heard longestGuestPath text) :=
  congrArg GuestPath.searchPath (h.readText hzero)

/-- **Texts of a search**: a plain directory text, a separator, and a name text without separators
    and zero characters, together no longer than a routine reads. -/
structure IsSearchText (directory separator pattern : String) : Prop where
  plain : ∀ c ∈ directory.toList, Text.IsPlainChar c
  slash : separator = "\\" ∨ separator = "/"
  name : ∀ c ∈ pattern.toList, c ≠ '\\' ∧ c ≠ '/' ∧ c.toNat ≠ 0
  short : (Text.utf8 (directory ++ separator ++ pattern)).length ≤ longestGuestPath

namespace IsSearchText

variable {directory separator pattern : String}

theorem plain_separator (h : IsSearchText directory separator pattern) :
    ∀ c ∈ (directory ++ separator).toList, Text.IsPlainChar c := by
  intro c hc
  rw [String.toList_append, List.mem_append] at hc
  rcases hc with hc | hc
  · exact h.plain c hc
  · rcases h.slash with rfl | rfl
    · obtain rfl : c = '\\' := by simpa using hc
      decide
    · obtain rfl : c = '/' := by simpa using hc
      decide

theorem ne_zero (h : IsSearchText directory separator pattern) :
    ∀ c ∈ (directory ++ separator ++ pattern).toList, c.toNat ≠ 0 := by
  intro c hc
  rw [String.toList_append, List.mem_append] at hc
  rcases hc with hc | hc
  · exact Nat.ne_of_gt (h.plain_separator c hc).1
  · exact (h.name c hc).2.2

/-- Only the name text may have something in it that the guest cannot show. -/
theorem heard_eq (h : IsSearchText directory separator pattern) :
    heard longestGuestPath (directory ++ separator ++ pattern) =
      directory ++ separator ++ heard longestGuestPath pattern := by
  have hlengths : (directory ++ separator).length ≤ longestGuestPath := by
    have hshort := h.short
    rw [Text.utf8_append, List.length_append, Text.length_utf8_of_plain h.plain_separator]
      at hshort
    exact Nat.le_trans (Nat.le_add_right _ _) hshort
  rw [Guest.heard_append h.short, Guest.heard_of_plain h.plain_separator hlengths]

theorem length_directory_le (h : IsSearchText directory separator pattern) :
    directory.length ≤ longestGuestPath := by
  have hshort := h.short
  rw [Text.utf8_append, Text.utf8_append, List.length_append, List.length_append,
    Text.length_utf8_of_plain h.plain] at hshort
  exact Nat.le_trans (Nat.le_add_right _ _) (Nat.le_trans (Nat.le_add_right _ _) hshort)

theorem length_pattern_le (h : IsSearchText directory separator pattern) :
    (Text.utf8 pattern).length ≤ longestGuestPath := by
  have hshort := h.short
  rw [Text.utf8_append, List.length_append] at hshort
  exact Nat.le_trans (Nat.le_add_left _ _) hshort

/-- The separator is the last one, also in the text that is heard. -/
theorem exists_isCut (h : IsSearchText directory separator pattern) :
    ∃ c, GuestPath.IsCut (heard longestGuestPath (directory ++ separator ++ pattern)) directory c
      (heard longestGuestPath pattern) := by
  rw [h.heard_eq]
  apply GuestPath.exists_isCut h.slash
  intro c hc
  rcases Guest.mem_heard hc with rfl | hc
  · decide
  · exact ⟨(h.name c hc).1, (h.name c hc).2.1⟩

/-- A name text that is heard as plain text is that text. -/
theorem eq_of_heard (h : IsSearchText directory separator pattern) {s : String}
    (hmark : '?' ∉ s.toList) (hheard : heard longestGuestPath pattern = s) : pattern = s := by
  rw [← hheard] at hmark ⊢
  exact (Guest.heard_of_not_mem (fun c hc => (h.name c hc).2.2) h.length_pattern_le hmark).symm

end IsSearchText

/-- What a search asks for, by its name text: everything if there is none. -/
def asked (pattern : String) : List Entry → List Entry :=
  wanted (if pattern = "" then "*.*" else heard longestGuestPath pattern)

/-- A plain name text is the pattern. -/
theorem asked_of_plain {pattern : String} (hplain : ∀ c ∈ pattern.toList, Text.IsPlainChar c)
    (hlength : pattern.length ≤ longestGuestPath) :
    asked pattern = wanted (if pattern = "" then "*.*" else pattern) := by
  rw [asked, Guest.heard_of_plain hplain hlength]

/-- What the search of a search text asks for. -/
theorem IsSearchText.search {directory separator pattern : String}
    (h : IsSearchText directory separator pattern) (hhere : pattern ≠ ".") (habove : pattern ≠ "..")
    {v : Visit γ} (hheld : HoldsText (Guest.peek v.guest) (Guest.registers v.guest).iy
      longestGuestPath (directory ++ separator ++ pattern)) :
    GuestPath.components v.search.directory = GuestPath.components directory ∧
      wanted v.search.pattern = asked pattern := by
  obtain ⟨c, hcut⟩ := h.exists_isCut
  have hsearch := Visit.search_of_holdsText hheld h.ne_zero
  -- what is heard is dots or nothing only if the guest says so
  have hhere' : heard longestGuestPath pattern ≠ "." :=
    fun heq => hhere (h.eq_of_heard (by decide) heq)
  have habove' : heard longestGuestPath pattern ≠ ".." :=
    fun heq => habove (h.eq_of_heard (by decide) heq)
  have hempty : heard longestGuestPath pattern = "" ↔ pattern = "" := by
    constructor
    · exact fun heq => h.eq_of_heard (by decide) heq
    · rintro rfl
      rfl
  obtain ⟨hdirectory, hpattern⟩ := hcut.searchPath hhere' habove'
  rw [hsearch, hdirectory, hpattern, asked]
  simp only [hempty, GuestPath.matchAll, and_self]

/-- **Find-first and change-directory agree on directories**, whatever state the drives are in. A
    search text of a directory, a separator and a pattern searches the directory that a
    change-directory to its front part enters. With dots for a pattern it searches the one that a
    change-directory to the whole text enters, and asks for all that is legal there. -/
theorem find_first_agrees_with_change_dir {d e : Drive} {v : Visit γ} {w : Visit δ}
    (hbase : e.base = d.base) (hv : v.entry = .findFirst) (hw : w.entry = .changeDir)
    (hhost : w.host = v.host) {directory separator pattern : String}
    (htext : IsSearchText directory separator pattern)
    (hheld : HoldsText (Guest.peek v.guest) (Guest.registers v.guest).iy 63
      (directory ++ separator ++ pattern)) :
    (pattern ≠ "." → pattern ≠ ".." →
      HoldsText (Guest.peek w.guest) (Guest.registers w.guest).hl 63 directory →
      SearchesEntered d v e w (asked pattern)) ∧
    (pattern = "." ∨ pattern = ".." →
      HoldsText (Guest.peek w.guest) (Guest.registers w.guest).hl 63
        (directory ++ separator ++ pattern) →
      SearchesEntered d v e w fun listing => listing.filter fun e => ShortName.isLegal e.name) := by
  constructor
  · intro hhere habove hpath
    obtain ⟨hdirectory, hasked⟩ := htext.search hhere habove hheld
    have hzero : ∀ c ∈ directory.toList, c.toNat ≠ 0 :=
      fun c hc => Nat.ne_of_gt (htext.plain c hc).1
    have hw' : w.path = directory := by
      rw [Visit.path_of_holdsText hpath hzero,
        Guest.heard_of_plain htext.plain htext.length_directory_le]
    rw [← hasked]
    apply Drive.searchesEntered_of_components hbase hv hw hhost
    rw [hdirectory, hw']
  · intro hdots hpath
    obtain ⟨c, hcut⟩ := htext.exists_isCut
    -- dots are heard as they are, and make the whole text a directory
    have hheard : heard longestGuestPath pattern = "." ∨ heard longestGuestPath pattern = ".." := by
      rcases hdots with rfl | rfl
      · exact .inl rfl
      · exact .inr rfl
    have hsearch : v.search = ⟨w.path, GuestPath.matchAll⟩ := by
      rw [Visit.search_of_holdsText hheld htext.ne_zero,
        Visit.path_of_holdsText hpath htext.ne_zero]
      exact hcut.searchPath_of_dots hheard
    have hcomponents : GuestPath.components v.search.directory = GuestPath.components w.path := by
      rw [hsearch]
    have hentered := Drive.searchesEntered_of_components hbase hv hw hhost hcomponents
    rw [hsearch] at hentered
    have hall : wanted GuestPath.matchAll =
        fun listing => listing.filter fun e => ShortName.isLegal e.name :=
      funext wanted_matchAll
    rw [← hall]
    exact hentered

/-- A host with a directory of games. -/
def gamesHost : Host where
  isDirectory path := path = ⟨"/d"⟩ || path = ⟨"/d/GAMES"⟩
  list path :=
    if path = ⟨"/d"⟩ then .ok [.directory "GAMES" {}, .file "list.txt" 9 {}]
    else if path = ⟨"/d/GAMES"⟩ then .ok [.file "read.me" 5 {}, .file "pong.com" 3 {}]
    else .error (.noDirectory path)

/-- The games are found under any spelling of their directory, which is the one that is entered, and
    with dots it is the directory above. -/
theorem find_first_agrees_with_change_dir_games :
    let d := Drive.new ⟨"/d"⟩ "D"
    let search : String → Visit FlatGuest := fun text => ⟨gamesHost, .findFirst, .giving text⟩
    let enter : String → Visit FlatGuest := fun text => ⟨gamesHost, .changeDir, .giving text⟩
    ((d.visit (enter "a:games")).1.hostDirectory = ⟨"/d/GAMES"⟩ ∧
      (d.visit (search "a:games/*.com")).1.searches.get? (search "a:games/*.com").block.serial =
        some #[.file "pong.com" 3 {}]) ∧
    ((d.visit (enter "games\\..")).1.hostDirectory = ⟨"/d"⟩ ∧
      (d.visit (search "games\\..")).1.searches.get? (search "games\\..").block.serial =
        some #[.directory "GAMES" {}, .file "list.txt" 9 {}]) := by
  intro d search enter
  -- the change-directories, one after the other
  have henter : ∀ text directory, (Text.utf8 text).length < memorySize →
      (∀ c ∈ text.toList, c.toNat ≠ 0) →
      gamesHost.resolve ⟨"/d"⟩ (GuestPath.components (heard longestGuestPath text)) =
        some directory →
      (d.visit (enter text)).1.hostDirectory = directory ∧
        (d.visit (enter text)).2.1 ≠ .noDirectory := by
    intro text directory hlength hzero hresolve
    have hpath : (enter text).path = heard longestGuestPath text :=
      Visit.path_of_holdsText (FlatGuest.holdsText_giving hlength _) hzero
    have henters : (enter text).Enters d.base _ directory := ⟨rfl, rfl, hpath ▸ hresolve⟩
    rw [Drive.visit_of_enters henters]
    exact ⟨rfl, nofun⟩
  obtain ⟨hgames, hgamesOk⟩ := henter "a:games" ⟨"/d/GAMES"⟩ (by decide) (by simp) (by decide)
  obtain ⟨habove, haboveOk⟩ := henter "games\\.." ⟨"/d"⟩ (by decide) (by simp) (by decide)
  refine ⟨⟨hgames, ?_⟩, habove, ?_⟩
  · have htext : IsSearchText "a:games" "/" "*.com" :=
      ⟨by simp [Text.IsPlainChar], by decide, by simp, by decide⟩
    have hagree := (find_first_agrees_with_change_dir (d := d) (e := d)
      (v := search "a:games/*.com") (w := enter "a:games") rfl rfl rfl rfl htext
      (FlatGuest.holdsText_giving (by decide) _)).1
      (by decide) (by decide) (FlatGuest.holdsText_giving (by decide) _)
    obtain ⟨found, horder, hget, -⟩ := hagree.snapshot hgamesOk
      [.file "read.me" 5 {}, .file "pong.com" 3 {}] (by rw [hgames]; rfl)
    have hfound : InGuestOrder (asked "*.com" [.file "read.me" 5 {}, .file "pong.com" 3 {}])
        [.file "pong.com" 3 {}] := ⟨.refl _, by decide, fun _ => rfl⟩
    rw [hget, horder.unique hfound]
  · have htext : IsSearchText "games" "\\" ".." :=
      ⟨by simp [Text.IsPlainChar], by decide, by simp, by decide⟩
    have hagree := (find_first_agrees_with_change_dir (d := d) (e := d) (v := search "games\\..")
      (w := enter "games\\..") rfl rfl rfl rfl htext (FlatGuest.holdsText_giving (by decide) _)).2
      (.inr rfl) (FlatGuest.holdsText_giving (by decide) _)
    obtain ⟨found, horder, hget, -⟩ := hagree.snapshot haboveOk
      [.directory "GAMES" {}, .file "list.txt" 9 {}] (by rw [habove]; rfl)
    have hfound : InGuestOrder (List.filter (fun e => ShortName.isLegal e.name)
        [.directory "GAMES" {}, .file "list.txt" 9 {}])
        [.directory "GAMES" {}, .file "list.txt" 9 {}] := ⟨.refl _, by decide, fun _ => rfl⟩
    rw [hget, horder.unique hfound]

end HostDrive

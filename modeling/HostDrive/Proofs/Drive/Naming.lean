import HostDrive.Proofs.Drive.Enumeration
import HostDrive.Proofs.Drive.SearchedDirectory
import HostDrive.Proofs.Host.Resolve

/-!
# Everything Listed Can Be Named

A guest that was told the name of an entry can use it: a search for that name finds the entry again,
with those others that differ from it in case alone, and a directory can be entered by it. On the
way to the guest the name was put into upper case, so this does not go without saying.

## Architecture

- `wanted_of_isLegal`: a name, taken as a pattern, asks for the entries of that name.
- `Told` is what an entry that was handed over has to do with the listing; `SearchCall.told` gets it
  from any call of a search that succeeds.
- `Told.findFirst` and `Told.changeDir` are the two uses of the name, `listed_can_be_named` puts
  them together.
-/

namespace HostDrive

open Guest (HoldsText)
open Text (sameIgnoringCase)

/-! ## Section 1: Names as patterns -/

/-- The entries of a listing that have a name, case aside. -/
def named (name : String) (listing : List Entry) : List Entry :=
  listing.filter fun e => sameIgnoringCase e.name name

/-- **A legal name asks for the entries of that name.** -/
theorem wanted_of_isLegal {name : String} (hlegal : ShortName.isLegal name = true)
    (listing : List Entry) : wanted name listing = named name listing := by
  apply List.filter_congr
  intro e _
  rw [Bool.eq_iff_iff, Bool.and_eq_true]
  constructor
  · rintro ⟨hlegal', hmatch⟩
    exact (Wildcard.isMatch_iff_sameIgnoringCase hlegal hlegal').mp hmatch
  · intro hsame
    -- what agrees with a legal name is legal too
    have hlegal' := ShortName.isLegal_of_sameIgnoringCase hsame hlegal
    exact ⟨hlegal', (Wildcard.isMatch_iff_sameIgnoringCase hlegal hlegal').mpr hsame⟩

/-- In a directory without two entries of one name, few entries have a name. -/
theorem length_named_le {name : String} (hlegal : ShortName.isLegal name = true)
    {listing : List Entry} (hdistinct : (listing.map Entry.name).Nodup) :
    (named name listing).length ≤ 65536 := by
  obtain ⟨hlength, hplain⟩ := ShortName.isLegal_bounds hlegal
  have hnodup : ((named name listing).map Entry.name).Nodup :=
    hdistinct.sublist (List.filter_sublist.map _)
  have hsame : ∀ s ∈ (named name listing).map Entry.name, sameIgnoringCase s name = true := by
    intro s hs
    obtain ⟨e, he, rfl⟩ := List.mem_map.mp hs
    exact (List.mem_filter.mp he).2
  have hfew := Text.length_le_of_sameIgnoringCase hnodup hplain hsame
  rw [List.length_map] at hfew
  have htwelve : 2 ^ name.length ≤ 2 ^ 12 :=
    Nat.pow_le_pow_right (by decide) (String.length_toList ▸ hlength)
  exact hfew.trans (htwelve.trans (by decide))

/-! ## Section 2: Entries that a guest was told -/

/-- The calls of a search hand over these entries, as far as sixteen bits can number them, and then
    nothing. -/
def Enumerates (d : Drive) (v : Visit FlatGuest) (found : List Entry) : Prop :=
  ∀ i before d' status after, SearchCall d v i before (d', status, after) →
    (∀ hi : i < found.length, i < 65536 →
      status = .ok ∧ (Drive.blockAt after.peek v.address).record = found[i].shown ∧
      (Drive.blockAt after.peek v.address).index.toNat = i) ∧
    (min found.length 65536 ≤ i → status = .noFile ∧ after.memory = before.memory)

theorem Visit.Takes.enumerates {d : Drive} {v : Visit FlatGuest} {found : List Entry}
    (h : v.Takes d.base found) : Enumerates d v found := by
  intro i before d' status after hcall
  have hleft := hcall.handedOver h
  exact ⟨hleft.entry, hleft.nothing⟩

/-- **An entry that the guest was told**, by a search in a directory of the host: this is the name
    that the guest has for it, and these are the attributes. -/
structure Told (host : Host) (searched : HostPath) (listing : List Entry) (e : Entry)
    (name : String) (attributes : UInt8) : Prop where
  listed : host.list searched = .ok listing
  mem : e ∈ listing
  isLegal : ShortName.isLegal e.name = true
  name_eq : name = Text.upper e.name
  attributes_eq : attributes = e.attributes &&& Attribute.visible

/-- **What a call of a search hands over was listed**, if the search found its directory. -/
theorem SearchCall.told {d d' : Drive} {v : Visit FlatGuest} {i : Nat} {before after : FlatGuest}
    (hfirst : (d.visit v).2.1 ≠ .noDirectory)
    (hcall : SearchCall d v i before (d', .ok, after)) :
    ∃ searched listing e,
      v.host.resolve d.base (GuestPath.components v.search.directory) = some searched ∧
      Told v.host searched listing e (Drive.blockAt after.peek v.address).name
        (Drive.blockAt after.peek v.address).attributes := by
  by_cases htakes : ∃ found, v.Takes d.base found
  · obtain ⟨found, hfound⟩ := htakes
    have hleft := hcall.handedOver hfound
    -- a success is one of the calls that have an entry to hand over
    have hin : ¬ min found.length positions ≤ i := by
      intro hbehind
      exact nomatch (hleft.nothing hbehind).1
    have hi : i < found.length := by omega
    obtain ⟨-, hrecord, -⟩ := hleft.entry hi (by omega)
    obtain ⟨-, searched, listing, hresolve, hlist, horder⟩ := hfound
    have hmem : found[i] ∈ wanted v.search.pattern listing :=
      horder.perm.mem_iff.mp (List.getElem_mem hi)
    exact ⟨searched, listing, found[i], hresolve, hlist, (List.mem_filter.mp hmem).1,
      isLegal_of_mem_wanted hmem, congrArg Record.name hrecord, congrArg Record.attributes hrecord⟩
  · -- without a snapshot of its own the find-first failed
    have hnone : ∀ found, ¬ v.Takes d.base found := fun found h => htakes ⟨found, h⟩
    rw [Drive.visit_findFirst_of_not_takes hcall.entry_eq hnone] at hfirst
    exact absurd rfl hfirst

/-! ## Section 3: Using the name -/

namespace Told

variable {host : Host} {base searched : HostPath} {listing : List Entry} {e : Entry} {name : String}
  {attributes : UInt8}

/-- Upper case is all that a name goes through. -/
theorem sameIgnoringCase (h : Told host searched listing e name attributes) :
    Text.sameIgnoringCase name e.name = true := by
  rw [h.name_eq]
  exact Text.sameIgnoringCase_upper (ShortName.isLegal_bounds h.isLegal).2

theorem isLegal_name (h : Told host searched listing e name attributes) :
    ShortName.isLegal name = true :=
  ShortName.isLegal_of_sameIgnoringCase h.sameIgnoringCase h.isLegal

/-- The text that names an entry is one that can be searched for. -/
theorem isSearchText (h : Told host searched listing e name attributes) {directory : String}
    (hplain : ∀ c ∈ directory.toList, Text.IsPlainChar c)
    (hshort : (Text.utf8 (directory ++ "\\" ++ name)).length ≤ longestGuestPath) :
    IsSearchText directory "\\" name := by
  have hname := ShortName.isPlainName_of_isLegal h.isLegal_name
  refine ⟨hplain, .inl rfl, fun c hc => ?_, hshort⟩
  obtain ⟨hback, hslash⟩ := hname.not_separator c hc
  exact ⟨hback, hslash, Nat.ne_of_gt ((ShortName.isLegal_bounds h.isLegal_name).2 c hc).1⟩

/-- **A search for the name** takes the entries of that name, this one among them. -/
theorem findFirst (h : Told host searched listing e name attributes) {directory : String}
    (htext : IsSearchText directory "\\" name)
    (hresolve : host.resolve base (GuestPath.components directory) = some searched)
    {d : Drive} {v : Visit FlatGuest} (hbase : d.base = base) (hhost : v.host = host)
    (hentry : v.entry = .findFirst)
    (hheld : HoldsText v.guest.peek v.guest.registers.iy 63 (directory ++ "\\" ++ name)) :
    (d.visit v).2.1 = .ok ∧
      ∃ found, InGuestOrder (named name listing) found ∧ Enumerates d v found := by
  have hname := (ShortName.isPlainName_of_isLegal h.isLegal_name).toIsName
  obtain ⟨hlength, hplain⟩ := ShortName.isLegal_bounds h.isLegal_name
  have hlength' : name.length ≤ longestGuestPath :=
    Nat.le_trans (String.length_toList ▸ hlength) (by decide)
  obtain ⟨hdirectory, hasked⟩ := htext.search hname.ne_here hname.ne_above (v := v) hheld
  rw [asked_of_plain hplain hlength', if_neg hname.ne_empty] at hasked
  have hwanted : wanted v.search.pattern listing = named name listing := by
    rw [hasked, wanted_of_isLegal h.isLegal_name]
  have horder := Drive.inGuestOrder_selection v.search.pattern listing
  have htakes : v.Takes d.base (Drive.selection v.search.pattern listing) := by
    refine ⟨hentry, searched, listing, ?_, hhost ▸ h.listed, horder⟩
    rw [hhost, hbase, hdirectory, hresolve]
  rw [hwanted] at horder
  refine ⟨?_, _, horder, htakes.enumerates⟩
  -- the entry itself is found, so the snapshot is not empty
  have hmem : e ∈ Drive.selection v.search.pattern listing := by
    apply horder.perm.mem_iff.mpr
    exact List.mem_filter.mpr ⟨h.mem, Text.sameIgnoringCase_symm h.sameIgnoringCase⟩
  rw [(Drive.findFirst_of_takes htakes).2, if_neg (List.ne_nil_of_mem hmem)]

/-- **A directory can be entered** by its name: below the directory that was searched, in the host's
    spelling of the name. -/
theorem changeDir (h : Told host searched listing e name attributes) {directory : String}
    (htext : IsSearchText directory "\\" name)
    (hresolve : host.resolve base (GuestPath.components directory) = some searched)
    (hattribute : Attribute.has attributes Attribute.directory = true)
    {d : Drive} {v : Visit FlatGuest} (hbase : d.base = base) (hhost : v.host = host)
    (hentry : v.entry = .changeDir)
    (hheld : HoldsText v.guest.peek v.guest.registers.hl 63 (directory ++ "\\" ++ name)) :
    (d.visit v).2.1 = .ok ∧ ∃ spelled, Text.sameIgnoringCase spelled name = true ∧
      (d.visit v).1.hostDirectory = searched.join spelled ∧
      (searched.join spelled).components = searched.components ++ [.name spelled] := by
  have hname := ShortName.isPlainName_of_isLegal h.isLegal_name
  have hdirectory : e.isDirectory = true := by
    rw [h.attributes_eq, InfoBlock.has_visible] at hattribute
    exact hattribute
  have hcolon : ':' ∉ name.toList := fun hmem => hname.ne_colon ':' hmem rfl
  obtain ⟨spelled, hspelled, henter⟩ := Host.exists_enter_of_mem h.listed h.mem hdirectory
    (Text.sameIgnoringCase_symm h.sameIgnoringCase) hcolon
  -- the names of the whole text are those of the directory, and this one
  have hcomponents : GuestPath.components v.path = GuestPath.components directory ++ [name] := by
    obtain ⟨c, hcut⟩ := htext.exists_isCut
    obtain ⟨hlength, hplain⟩ := ShortName.isLegal_bounds h.isLegal_name
    have hheard : Guest.heard longestGuestPath name = name :=
      Guest.heard_of_plain hplain (Nat.le_trans (String.length_toList ▸ hlength) (by decide))
    rw [hheard] at hcut
    rw [Visit.path_of_holdsText hheld htext.ne_zero, hcut.components_of_name hname.toIsName]
  have henters : v.Enters d.base (GuestPath.components v.path) (searched.join spelled) := by
    refine ⟨hentry, rfl, ?_⟩
    rw [hhost, hbase, hcomponents, Host.resolve_concat, hresolve]
    exact henter
  rw [Drive.visit_of_enters henters]
  exact ⟨rfl, spelled, hspelled, rfl,
    searched.components_join (hname.toIsName.of_sameIgnoringCase hspelled)⟩

end Told

/-! ## Section 4: Everything listed -/

/-- **What a guest can do with a name** that it was told by a search in a directory: `directory` is
    its own text for that directory, `searched` the host's path, and `listing` what is in it. -/
structure CanBeNamed (host : Host) (base : HostPath) (directory : String) (searched : HostPath)
    (listing : List Entry) (name : String) (attributes : UInt8) : Prop where
  /-- A search for the name succeeds, and hands over the entries of that name. -/
  found : ∀ (d : Drive) (v : Visit FlatGuest), d.base = base → v.host = host →
    v.entry = .findFirst →
    HoldsText v.guest.peek v.guest.registers.iy 63 (directory ++ "\\" ++ name) →
    (d.visit v).2.1 = .ok ∧
      ∃ found, InGuestOrder (named name listing) found ∧ Enumerates d v found
  /-- They are few enough for all of them to be handed over, as names in a directory differ. -/
  few : (listing.map Entry.name).Nodup → (named name listing).length ≤ 65536
  /-- A directory can be entered by the name, and lies in the directory that was searched. -/
  entered : Attribute.has attributes Attribute.directory = true →
    ∀ (d : Drive) (v : Visit FlatGuest), d.base = base → v.host = host → v.entry = .changeDir →
    HoldsText v.guest.peek v.guest.registers.hl 63 (directory ++ "\\" ++ name) →
    (d.visit v).2.1 = .ok ∧ ∃ spelled, sameIgnoringCase spelled name = true ∧
      (d.visit v).1.hostDirectory = searched.join spelled ∧
      (searched.join spelled).components = searched.components ++ [.name spelled]

/-- **Everything listed can be named.** Whenever a call of a search reports an entry, its name
    behind the directory text of the search finds the entry again, and enters it if it is a
    directory, as long as the text is not too long. -/
theorem listed_can_be_named {d d' : Drive} {v : Visit FlatGuest} {directory pattern : String}
    (htext : IsSearchText directory "\\" pattern) (hhere : pattern ≠ ".") (habove : pattern ≠ "..")
    (hheld : HoldsText v.guest.peek v.guest.registers.iy 63 (directory ++ "\\" ++ pattern))
    (hfirst : (d.visit v).2.1 ≠ .noDirectory) {i : Nat} {before after : FlatGuest}
    (hcall : SearchCall d v i before (d', .ok, after))
    (hshort : (Text.utf8 (directory ++ "\\" ++
      (Drive.blockAt after.peek v.address).name)).length ≤ 63) :
    ∃ searched listing,
      v.host.resolve d.base (GuestPath.components directory) = some searched ∧
      v.host.list searched = .ok listing ∧
      CanBeNamed v.host d.base directory searched listing
        (Drive.blockAt after.peek v.address).name
        (Drive.blockAt after.peek v.address).attributes := by
  obtain ⟨searched, listing, e, hresolve, htold⟩ := hcall.told hfirst
  rw [(htext.search hhere habove hheld).1] at hresolve
  have htext' := htold.isSearchText htext.plain hshort
  refine ⟨searched, listing, hresolve, htold.listed, ?found, ?few, ?entered⟩
  case found =>
    intro e w hbase hhost hentry hheld'
    exact htold.findFirst htext' hresolve hbase hhost hentry hheld'
  case few => exact length_named_le htold.isLegal_name
  case entered =>
    intro hattribute e w hbase hhost hentry hheld'
    exact htold.changeDir htext' hresolve hattribute hbase hhost hentry hheld'

/-- A directory and a file that differ in case alone. -/
def caseTwins : List Entry := [.directory "games" {}, .file "GAMES" 7 {}]

/-- The first of the two is told as `GAMES`, which finds both of them, and enters the directory. -/
theorem listed_can_be_named_twins :
    CanBeNamed (Host.uniform caseTwins) ⟨"/d"⟩ "a:" ⟨"/d"⟩ caseTwins "GAMES"
      Attribute.directory := by
  let v : Visit FlatGuest := ⟨Host.uniform caseTwins, .findFirst, .giving "a:\\*.*"⟩
  let d := Drive.new ⟨"/d"⟩ "D"
  have htext : IsSearchText "a:" "\\" "*.*" :=
    ⟨by simp [Text.IsPlainChar], by decide, by simp, by decide⟩
  have hheld : HoldsText v.guest.peek v.guest.registers.iy 63 ("a:" ++ "\\" ++ "*.*") :=
    FlatGuest.holdsText_giving (by decide) _
  have hsearch : v.search = ⟨"a:\\", "*.*"⟩ := by
    rw [Visit.search_of_holdsText (v := v) hheld htext.ne_zero]
    decide
  have htakes : v.Takes d.base caseTwins := by
    refine ⟨rfl, ⟨"/d"⟩, caseTwins, ?_, rfl, ?_⟩
    · rw [hsearch]
      decide
    · rw [hsearch]
      exact ⟨.refl _, by decide, fun _ => rfl⟩
  -- what the find-first answers; its memory is too large to compute with
  obtain ⟨hstatus, hrecord, -⟩ := (HandedOver.findFirst htakes).entry (by decide) (by decide)
  have hfirst : SearchCall d v 0 v.guest (d.visit v) := .first rfl
  have hdirectory : (d.visit v).2.1 ≠ .noDirectory := by
    rw [hstatus]
    decide
  have hname : (Drive.blockAt (d.visit v).2.2.peek v.address).name = "GAMES" :=
    (congrArg Record.name hrecord).trans (by decide)
  have hattributes : (Drive.blockAt (d.visit v).2.2.peek v.address).attributes =
      Attribute.directory := (congrArg Record.attributes hrecord).trans (by decide)
  generalize hvisit : d.visit v = outcome at hfirst hstatus hname hattributes
  obtain ⟨d', status, after⟩ := outcome
  obtain rfl : status = .ok := hstatus
  obtain ⟨searched, listing, hresolve, hlist, hcan⟩ :=
    listed_can_be_named htext (by decide) (by decide) hheld hdirectory hfirst (by
      rw [hname]
      decide)
  obtain rfl : ⟨"/d"⟩ = searched := Option.some.inj hresolve
  obtain rfl : caseTwins = listing := Except.ok.inj hlist
  rw [hname, hattributes] at hcan
  exact hcan

end HostDrive

import HostDrive.Proofs.Host.Catalog
import HostDrive.Proofs.Host.Resolve

/-!
# Descending in a Catalogue

Where the names of a guest lead in a catalogue, and when they lead nowhere. The entries of a listing
are found again one level further down, so the host's spelling that a listing gives leads to the
directory that it was read from, and a directory that is there is found under any case.

## Architecture

- `Catalog.isDirectory_join_iff`: the directories below a directory are those of its listing.
- `Leads` is one step down and `LeadsAlong` the whole way; `Lacks` says that there is no step.
- `enter_eq_some`, `enter_eq_none_iff` are what a single name does; from them, by induction over the
  names, `descend_eq_some`, `descend_eq_none_iff`.
-/

namespace HostDrive

open GuestPath (IsName)
open HostPath (Component)

/-! ## Section 1: Steps -/

namespace Host

/-- **A step down**: to a directory that has the name but for case, and exactly the name whenever
    there is a directory of exactly that name. -/
structure Leads (host : Host) (directory : HostPath) (name spelled : String) : Prop where
  same : Text.sameIgnoringCase spelled name = true
  exact : host.isDirectory (directory.join name) = true → spelled = name
  isDirectory : host.isDirectory (directory.join spelled) = true

/-- **The way down**, one step for each name. -/
inductive LeadsAlong (host : Host) : HostPath → List String → List String → Prop
  | here (directory : HostPath) : LeadsAlong host directory [] []
  | down {directory : HostPath} {name spelled : String} {names rest : List String}
      (h : host.Leads directory name spelled)
      (hrest : LeadsAlong host (directory.join spelled) names rest) :
      LeadsAlong host directory (name :: names) (spelled :: rest)

/-- **No step down**: nothing with this name but for case is a directory, neither in the listing nor
    otherwise. -/
structure Lacks (host : Host) (directory : HostPath) (name : String) : Prop where
  noDirectory : ∀ spelled, Text.sameIgnoringCase spelled name = true →
    host.isDirectory (directory.join spelled) = false
  notListed : ∃ listing, host.list directory = .ok listing ∧
    ∀ e ∈ listing, Text.sameIgnoringCase e.name name = true → e.isDirectory = false

end Host

/-! ## Section 2: Directories of a catalogue -/

namespace Catalog

variable {c : Catalog} {directory inner : HostPath} {name : String}

/-- A path at or below the root of a catalogue. -/
def Holds (c : Catalog) (directory : HostPath) : Prop :=
  c.root.components <+: directory.components

theorem Holds.join (h : c.Holds directory) (hname : IsName name) :
    c.Holds (directory.join name) := by
  rw [Holds, HostPath.components_join directory hname]
  exact List.IsPrefix.trans h (List.prefix_append _ _)

/-- **The directories below a directory** are those that its listing has. -/
theorem isDirectory_join_iff (hc : c.Consistent) (h : c.Holds directory) (hname : IsName name) :
    c.isDirectory (directory.join name) = true ↔
      ∃ e ∈ c.children directory.components, e.name = name ∧ e.isDirectory = true := by
  -- one level further down is not the root
  have hroot : (directory.components ++ [.name name] == c.root.components) = false := by
    rw [beq_eq_false_iff_ne]
    intro heq
    have hlength := List.IsPrefix.length_le h
    rw [← heq, List.length_append, List.length_singleton] at hlength
    omega
  rw [isDirectory, isDirectoryAt, HostPath.components_join directory hname, hroot, Bool.false_or]
  constructor
  · intro hfound
    split at hfound
    · rename_i e he
      -- the node has the name of its path
      obtain ⟨above, hpath⟩ := hc.named _ (hc.find?_eq_some_iff.mp he)
      obtain ⟨-, hlast⟩ := List.append_inj' hpath rfl
      obtain rfl : name = e.name := by simpa using hlast
      exact ⟨e, hc.mem_children_iff.mpr he, rfl, hfound⟩
    · exact nomatch hfound
  · rintro ⟨e, he, rfl, hdirectory⟩
    rw [hc.mem_children_iff.mp he]
    exact hdirectory

/-- A directory lists its children, and nothing else lists anything. -/
theorem list_eq_ok_iff {listing : List Entry} :
    c.host.list directory = .ok listing ↔
      c.isDirectory directory = true ∧ listing = c.children directory.components := by
  show c.list directory = .ok listing ↔ _
  unfold list
  split
  · rename_i hdirectory
    simp [hdirectory, eq_comm]
  · rename_i hdirectory
    simp [hdirectory]

/-- **A name leads a step down**, by the spelling of a directory that is there. -/
theorem enter_eq_some (hc : c.Consistent) (h : c.Holds directory) (hname : IsName name)
    (henter : c.host.enter directory name = some inner) :
    ∃ spelled, c.host.Leads directory name spelled ∧ inner = directory.join spelled := by
  unfold Host.enter at henter
  split at henter
  · exact nomatch henter
  split at henter
  · rename_i hexact
    obtain rfl := Option.some.inj henter
    exact ⟨name, ⟨Text.sameIgnoringCase_refl name, fun _ => rfl, hexact⟩, rfl⟩
  · rename_i hexact
    split at henter
    · exact nomatch henter
    · rename_i listing hlist
      obtain ⟨e, he, rfl⟩ := Option.map_eq_some_iff.mp henter
      obtain ⟨hmem, hdirectory, hsame⟩ := Host.matchingDirectory?_eq_some he
      obtain ⟨-, rfl⟩ := list_eq_ok_iff.mp hlist
      -- what the listing calls a directory is one, under the listing's name
      have hfound : c.isDirectory (directory.join e.name) = true :=
        (isDirectory_join_iff hc h (hname.of_sameIgnoringCase hsame)).mpr ⟨e, hmem, rfl, hdirectory⟩
      exact ⟨e.name, ⟨hsame, fun h => absurd h hexact, hfound⟩, rfl⟩

/-- **A name leads nowhere** exactly if there is a colon in it, or if no directory has it, whatever
    the case. -/
theorem enter_eq_none_iff (hc : c.Consistent) (h : c.Holds directory) (hname : IsName name)
    (hdirectory : c.isDirectory directory = true) :
    c.host.enter directory name = none ↔ ':' ∈ name.toList ∨ c.host.Lacks directory name := by
  have hlist : c.host.list directory = .ok (c.children directory.components) :=
    list_eq_ok_iff.mpr ⟨hdirectory, rfl⟩
  constructor
  · intro henter
    by_cases hcolon : ':' ∈ name.toList
    · exact .inl hcolon
    · -- any directory of that name in the listing could be entered
      have hlisted : ∀ e ∈ c.children directory.components,
          Text.sameIgnoringCase e.name name = true → e.isDirectory = false := by
        intro e he hsame
        rw [Bool.eq_false_iff]
        intro hisDirectory
        obtain ⟨spelled, -, hentered⟩ :=
          Host.exists_enter_of_mem hlist he hisDirectory hsame hcolon
        exact nomatch henter.symm.trans hentered
      refine .inr ⟨fun spelled hsame => ?_, _, hlist, hlisted⟩
      rw [Bool.eq_false_iff]
      intro hfound
      obtain ⟨e, he, rfl, hisDirectory⟩ :=
        (isDirectory_join_iff hc h (hname.of_sameIgnoringCase hsame)).mp hfound
      exact Bool.false_ne_true ((hlisted e he hsame).symm.trans hisDirectory)
  · rintro (hcolon | hlacks)
    · rw [Host.enter, if_pos (by simpa using hcolon)]
    · cases henter : c.host.enter directory name with
      | none => rfl
      | some inner =>
        obtain ⟨spelled, hleads, -⟩ := enter_eq_some hc h hname henter
        have hnone := hlacks.noDirectory spelled hleads.same
        exact absurd (hnone.symm.trans hleads.isDirectory) Bool.false_ne_true

/-! ## Section 3: Ways -/

/-- A way down stays below the root. -/
theorem Holds.along {names spelled : List String} (h : c.Holds directory)
    (hnames : ∀ n ∈ names, IsName n) (hway : c.host.LeadsAlong directory names spelled) :
    c.Holds (directory.along spelled) := by
  induction hway with
  | here => exact h
  | down hleads _ ih =>
    obtain ⟨hname, hrest⟩ := List.forall_mem_cons.mp hnames
    exact ih (h.join (hname.of_sameIgnoringCase hleads.same)) hrest

/-- Where a way starts and where it ends are directories. -/
theorem isDirectory_along {names spelled : List String}
    (hdirectory : c.isDirectory directory = true)
    (hway : c.host.LeadsAlong directory names spelled) :
    c.isDirectory (directory.along spelled) = true := by
  induction hway with
  | here => exact hdirectory
  | down hleads _ ih => exact ih hleads.isDirectory

/-- **Names lead along a way.** -/
theorem descend_eq_some (hc : c.Consistent) (h : c.Holds directory) {names : List String}
    (hnames : ∀ n ∈ names, IsName n) (hdescend : c.host.descend directory names = some inner) :
    ∃ spelled, c.host.LeadsAlong directory names spelled ∧ inner = directory.along spelled := by
  induction names generalizing directory with
  | nil =>
    obtain rfl := Option.some.inj hdescend
    exact ⟨[], .here _, rfl⟩
  | cons name rest ih =>
    obtain ⟨hname, hrest⟩ := List.forall_mem_cons.mp hnames
    rw [Host.descend] at hdescend
    split at hdescend
    · cases hdescend
    · rename_i next henter
      obtain ⟨s, hleads, rfl⟩ := enter_eq_some hc h hname henter
      have hbelow := h.join (hname.of_sameIgnoringCase hleads.same)
      obtain ⟨spelled, hway, rfl⟩ := ih hbelow hrest hdescend
      exact ⟨s :: spelled, .down hleads hway, rfl⟩

/-- If names lead nowhere, then one of them does, from where the names before it lead. -/
theorem exists_of_descend_eq_none (hc : c.Consistent) (h : c.Holds directory)
    (hdirectory : c.isDirectory directory = true) {names : List String}
    (hnames : ∀ n ∈ names, IsName n) (hnone : c.host.descend directory names = none) :
    ∃ before name rest inner, names = before ++ name :: rest ∧
      c.host.descend directory before = some inner ∧
      (':' ∈ name.toList ∨ c.host.Lacks inner name) := by
  induction names generalizing directory with
  | nil => exact nomatch hnone
  | cons first more ih =>
    obtain ⟨hfirst, hmore⟩ := List.forall_mem_cons.mp hnames
    cases henter : c.host.enter directory first with
    | none =>
      have hwhy := (enter_eq_none_iff hc h hfirst hdirectory).mp henter
      exact ⟨[], first, more, directory, rfl, rfl, hwhy⟩
    | some next =>
      rw [Host.descend, henter] at hnone
      obtain ⟨s, hleads, rfl⟩ := enter_eq_some hc h hfirst henter
      have hbelow := h.join (hfirst.of_sameIgnoringCase hleads.same)
      obtain ⟨before, name, rest, inner, rfl, hbefore, hwhy⟩ :=
        ih hbelow hleads.isDirectory hmore hnone
      refine ⟨first :: before, name, rest, inner, rfl, ?_, hwhy⟩
      rw [Host.descend, henter]
      exact hbefore

/-- **Names lead nowhere** exactly if one of them does, from where the names before it lead. -/
theorem descend_eq_none_iff (hc : c.Consistent) (h : c.Holds directory)
    (hdirectory : c.isDirectory directory = true) {names : List String}
    (hnames : ∀ n ∈ names, IsName n) :
    c.host.descend directory names = none ↔
      ∃ before name rest inner, names = before ++ name :: rest ∧
        c.host.descend directory before = some inner ∧
        (':' ∈ name.toList ∨ c.host.Lacks inner name) := by
  constructor
  · exact exists_of_descend_eq_none hc h hdirectory hnames
  · rintro ⟨before, name, rest, inner, rfl, hbefore, hwhy⟩
    have hname : IsName name := hnames name (List.mem_append_right _ List.mem_cons_self)
    have hnames' : ∀ n ∈ before, IsName n := fun n hn => hnames n (List.mem_append_left _ hn)
    obtain ⟨spelled, hway, rfl⟩ := descend_eq_some hc h hnames' hbefore
    have hinner := isDirectory_along hdirectory hway
    have henter : c.host.enter (directory.along spelled) name = none :=
      (enter_eq_none_iff hc (h.along hnames' hway) hname hinner).mpr hwhy
    rw [Host.descend_append, hbefore, Option.bind_some, Host.descend, henter]

/-! ## Section 4: Resolving -/

/-- From a base that is a directory, resolving is descending. -/
theorem resolve_eq_some_iff {names : List String} :
    c.host.resolve directory names = some inner ↔
      c.isDirectory directory = true ∧ c.host.descend directory names = some inner := by
  have hhost : c.host.isDirectory directory = c.isDirectory directory := rfl
  rw [Host.resolve, hhost]
  split <;> simp_all

theorem resolve_eq_some (hc : c.Consistent) (h : c.Holds directory) {names : List String}
    (hnames : ∀ n ∈ names, IsName n) (hresolve : c.host.resolve directory names = some inner) :
    c.isDirectory inner = true ∧
      ∃ spelled, c.host.LeadsAlong directory names spelled ∧ inner = directory.along spelled := by
  obtain ⟨hdirectory, hdescend⟩ := resolve_eq_some_iff.mp hresolve
  obtain ⟨spelled, hway, rfl⟩ := descend_eq_some hc h hnames hdescend
  exact ⟨isDirectory_along hdirectory hway, spelled, hway, rfl⟩

/-- A second run of names starts at a directory, so it is resolved from there. -/
theorem resolve_append (hc : c.Consistent) (h : c.Holds directory) {names : List String}
    (hnames : ∀ n ∈ names, IsName n) (more : List String) :
    c.host.resolve directory (names ++ more) =
      (c.host.resolve directory names).bind fun inner => c.host.resolve inner more := by
  cases hresolve : c.host.resolve directory names with
  | none =>
    unfold Host.resolve at hresolve ⊢
    split
    · rename_i hdirectory
      rw [if_pos hdirectory] at hresolve
      rw [Host.descend_append, hresolve]
      rfl
    · rfl
  | some inner =>
    obtain ⟨hdirectory, hdescend⟩ := resolve_eq_some_iff.mp hresolve
    have hinner : c.host.isDirectory inner = true := (resolve_eq_some hc h hnames hresolve).1
    have hbase : c.host.isDirectory directory = true := hdirectory
    rw [Option.bind_some, Host.resolve, Host.resolve, if_pos hbase, if_pos hinner,
      Host.descend_append, hdescend, Option.bind_some]

theorem resolve_eq_none_iff (hc : c.Consistent) (h : c.Holds directory) {names : List String}
    (hnames : ∀ n ∈ names, IsName n) :
    c.host.resolve directory names = none ↔ c.isDirectory directory = false ∨
      ∃ before name rest inner, names = before ++ name :: rest ∧
        c.host.resolve directory before = some inner ∧
        (':' ∈ name.toList ∨ c.host.Lacks inner name) := by
  have hhost : c.host.isDirectory directory = c.isDirectory directory := rfl
  cases hdirectory : c.isDirectory directory with
  | false => simp [Host.resolve, hhost, hdirectory]
  | true =>
    simp only [Host.resolve, hhost, hdirectory, if_true, Bool.true_eq_false, false_or]
    exact descend_eq_none_iff hc h hdirectory hnames

end Catalog

/-- **Directories of a catalogue are resolved name by name**, after any changes and from any base at
    or below the root. Two runs of names lead where one after the other leads. Where they lead is a
    directory, by one name of the host for each, the same but for case, and exactly the same
    whenever there is a directory of exactly that name. They lead nowhere exactly if the base is no
    directory, or if from where the names before it lead, one has a colon in it or is the name of no
    directory. -/
theorem catalog_resolves (root : HostPath) (changes : List Catalog.Change) (base : HostPath)
    (hbase : root.components <+: base.components) (p q : String) :
    let host := (Catalog.changed { root } changes).host
    let a := GuestPath.components p
    let b := GuestPath.components q
    host.resolve base (a ++ b) =
      ((host.resolve base a).bind fun directory => host.resolve directory b) ∧
    (∀ directory, host.resolve base a = some directory →
      host.isDirectory directory = true ∧
      ∃ spelled, host.LeadsAlong base a spelled ∧ directory = base.along spelled) ∧
    (host.resolve base a = none ↔ host.isDirectory base = false ∨
      ∃ before name rest inner, a = before ++ name :: rest ∧
        host.resolve base before = some inner ∧ (':' ∈ name.toList ∨ host.Lacks inner name)) := by
  intro host a b
  have hconsistent : (Catalog.changed { root } changes).Consistent :=
    (Catalog.consistent_empty root).changed changes
  have hholds : (Catalog.changed { root } changes).Holds base := by
    rw [Catalog.Holds, Catalog.root_changed]
    exact hbase
  have hnames : ∀ n ∈ a, IsName n := fun n hn => (GuestPath.isName_of_mem_components hn).1
  exact ⟨Catalog.resolve_append hconsistent hholds hnames b,
    fun directory hresolve => Catalog.resolve_eq_some hconsistent hholds hnames hresolve,
    Catalog.resolve_eq_none_iff hconsistent hholds hnames⟩

/-- A file in a directory, whose name is asked for in upper case. -/
theorem catalog_resolves_games :
    let host := (Catalog.changed { root := ⟨"/d"⟩ } [.addFile ⟨"/d/Games/pong.com"⟩ 3 {}]).host
    HostPath.components ⟨"/d"⟩ <+: HostPath.components ⟨"/d"⟩ ∧
      ∃ directory, host.resolve ⟨"/d"⟩ (GuestPath.components "a:GAMES") = some directory ∧
        host.isDirectory directory = true ∧
        ∃ spelled, host.LeadsAlong ⟨"/d"⟩ ["GAMES"] spelled ∧
          directory = HostPath.along ⟨"/d"⟩ spelled := by
  intro host
  have hroot : HostPath.components ⟨"/d"⟩ <+: HostPath.components ⟨"/d"⟩ := List.prefix_refl _
  have hnames : GuestPath.components "a:GAMES" = ["GAMES"] := by decide
  obtain ⟨-, hsome, hnone⟩ := catalog_resolves ⟨"/d"⟩ [.addFile ⟨"/d/Games/pong.com"⟩ 3 {}] ⟨"/d"⟩
    hroot "a:GAMES" ""
  simp only [hnames] at hsome hnone ⊢
  refine ⟨hroot, ?_⟩
  cases hresolve : host.resolve ⟨"/d"⟩ ["GAMES"] with
  | some directory => exact ⟨directory, rfl, hsome directory hresolve⟩
  | none =>
    exfalso
    rcases hnone.mp hresolve with hbase | ⟨before, name, rest, inner, hsplit, hbefore, hwhy⟩
    · exact absurd hbase (by decide)
    · -- there is one name only, and a directory that has it but for case
      obtain rfl : before = [] := by
        have := congrArg List.length hsplit
        simp only [List.length_append, List.length_cons, List.length_nil] at this
        exact List.length_eq_zero_iff.mp (by omega)
      obtain ⟨rfl, -⟩ := List.cons.inj hsplit
      obtain rfl : ⟨"/d"⟩ = inner := by
        rw [Host.resolve, if_pos (by decide)] at hbefore
        exact Option.some.inj hbefore
      rcases hwhy with hcolon | hlacks
      · exact absurd hcolon (by decide)
      · exact absurd (hlacks.noDirectory "Games" (by decide)) (by decide)

end HostDrive

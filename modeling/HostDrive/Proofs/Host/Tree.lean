import HostDrive.Proofs.Bytes
import HostDrive.Proofs.Host.Descent
import Mathlib.Data.List.Infix

/-!
# Catalogues as Trees

What changes below the root make of a catalogue. Its nodes always stand on one another: above each
of them, up to the root, something is stored. But only directories list what is below them, and a
file may be put where a directory was, which leaves the nodes of that directory stored below a file.
A catalogue is a tree as long as no such change is made.

## Architecture

- `Catalog.Has` is what may stand above a node, and `Catalog.Rooted` the invariant: for entries of
  any kind it holds always, for directories in a tree. `Rooted.put` is its step for one node, from
  which `Rooted.change` follows, and by induction `Rooted.changed`.
- `Catalog.Kept` is what every catalogue keeps, and `Catalog.IsTree` what a tree adds to it.
- `Catalog.Buries` are the changes that break a tree: `Catalog.not_isTree_of_buries`.
- `Catalog.stays_tree_iff` puts them together.
-/

namespace HostDrive

open HostPath (Component)

/-! ## Section 1: Places below a root -/

namespace HostPath

/-- The components of a root and of names below it. -/
def below (root : HostPath) (names : List String) : List Component :=
  root.components ++ names.map Component.name

variable {root : HostPath} {names inner : List String}

theorem below_concat (root : HostPath) (names : List String) (name : String) :
    root.below (names ++ [name]) = root.below names ++ [.name name] := by
  simp [below]

theorem below_prefix_iff : root.below names <+: root.below inner ↔ names <+: inner := by
  rw [below, below, List.prefix_append_right_inj,
    List.prefix_map_iff_of_injective fun _ _ => Component.name.inj]

theorem below_inj : root.below names = root.below inner ↔ names = inner := by
  rw [below, below, List.append_right_inj, List.map_inj_right fun _ _ => Component.name.inj]

theorem below_eq_root_iff : root.below names = root.components ↔ names = [] := by
  simp [below]

end HostPath

namespace Catalog

variable {c : Catalog} {P : Entry → Prop} {names above : List String} {name : String}

/-- **A change below the root** adds or removes a node at a path that goes on from the root with
    names, one at least. -/
def Change.Below (root : HostPath) : Change → Prop
  | .addDirectory path | .addFile path _ _ | .remove path =>
    ∃ names, names ≠ [] ∧ path.components = root.below names
  | .setAttributes _ _ => False

/-- **A change that buries** puts a file where something is stored below. -/
def Buries (c : Catalog) : Change → Prop
  | .addFile path _ _ => ∃ n ∈ c.nodes, path.components <+: n.1 ∧ n.1 ≠ path.components
  | _ => False

/-! ## Section 2: What is stored after a change -/

theorem isDirectory_directory (name : String) (modified : Timestamp) :
    (Entry.directory name modified).isDirectory = true := by
  show Attribute.has Attribute.directory Attribute.directory = true
  decide

theorem isDirectory_file (name : String) (size : Nat) (modified : Timestamp) :
    (Entry.file name size modified).isDirectory = false := by
  show Attribute.has Attribute.archive Attribute.directory = false
  decide

theorem mem_put {key : List Component} {e : Entry} {n : List Component × Entry} :
    n ∈ (c.put key e).nodes ↔ n = (key, e) ∨ n ∈ c.nodes ∧ n.1 ≠ key := by
  simp [put]

theorem mem_remove {path : HostPath} {n : List Component × Entry} :
    n ∈ (c.remove path).nodes ↔ n ∈ c.nodes ∧ ¬ path.components <+: n.1 := by
  rw [remove, List.mem_filter, Bool.not_eq_true', ← Bool.not_eq_true,
    List.isPrefixOf_iff_prefix]

/-- Missing directories come up above a path only. -/
theorem mem_addMissing {rest : List Component} {n : List Component × Entry}
    (hn : n ∈ (c.addMissing rest).nodes) : n ∈ c.nodes ∨ n.1 <+: rest.reverse := by
  induction rest with
  | nil => exact .inl hn
  | cons component rest ih =>
    cases component with
    | name s =>
      rw [addMissing] at hn
      split at hn
      · exact .inl hn
      · rcases mem_put.mp hn with rfl | ⟨hn, -⟩
        · exact .inr (List.prefix_refl _)
        · refine (ih hn).imp id fun hinit => hinit.trans ?_
          rw [List.reverse_cons]
          exact List.prefix_append _ _
    | root | here | up => exact .inl hn

/-- What is stored stays stored as missing directories come up. -/
theorem exists_mem_addMissing {n : List Component × Entry} (hn : n ∈ c.nodes)
    (rest : List Component) : ∃ e, (n.1, e) ∈ (c.addMissing rest).nodes := by
  induction rest with
  | nil => exact ⟨n.2, hn⟩
  | cons component rest ih =>
    cases component with
    | name s =>
      rw [addMissing]
      split
      · exact ⟨n.2, hn⟩
      · obtain ⟨e, he⟩ := ih
        by_cases hkey : n.1 = (Component.name s :: rest).reverse
        · exact ⟨_, mem_put.mpr (.inl (by rw [hkey]))⟩
        · exact ⟨e, mem_put.mpr (.inr ⟨he, hkey⟩)⟩
    | root | here | up => exact ⟨n.2, hn⟩

theorem addMissing_root (c : Catalog) : c.addMissing (c.root.below []).reverse = c := by
  have hroot : c.root.below [] = c.root.components := List.append_nil _
  rw [hroot]
  cases hrest : c.root.components.reverse with
  | nil => rfl
  | cons component rest =>
    cases component with
    | name s =>
      rw [addMissing, ← hrest, List.reverse_reverse, if_pos (by simp)]
    | root | here | up => rfl

/-- One name further down, one more directory may be missing. -/
theorem addMissing_concat (c : Catalog) (names : List String) (name : String) :
    c.addMissing (c.root.below (names ++ [name])).reverse =
      if c.isDirectoryAt (c.root.below (names ++ [name])) then c
      else (c.addMissing (c.root.below names).reverse).put (c.root.below (names ++ [name]))
        (Entry.directory name {}) := by
  have hkey : (Component.name name :: (c.root.below names).reverse).reverse =
      c.root.below (names ++ [name]) := by
    rw [List.reverse_cons, List.reverse_reverse, HostPath.below_concat]
  have hreverse : (c.root.below (names ++ [name])).reverse =
      Component.name name :: (c.root.below names).reverse := by
    rw [← hkey, List.reverse_reverse]
  have hroot : (c.root.below (names ++ [name]) == c.root.components) = false := by
    rw [beq_eq_false_iff_ne, Ne, HostPath.below_eq_root_iff]
    exact List.concat_ne_nil _ _
  have hbelow : c.root.components.isPrefixOf (c.root.below (names ++ [name])) = true :=
    List.isPrefixOf_iff_prefix.mpr (List.prefix_append _ _)
  rw [hreverse, addMissing, hkey]
  simp only [hroot, hbelow, Bool.not_true, Bool.false_or]

/-- **Adding a node** is making the directories above it that are missing, and then putting it in
    its place. -/
theorem insert_eq {path : HostPath} (hpath : path.components = c.root.below (names ++ [name]))
    (entry : String → Entry) :
    c.insert path entry = (c.addMissing (c.root.below names).reverse).put
      (c.root.below (names ++ [name])) (entry name) := by
  unfold insert
  rw [hpath, HostPath.below_concat, List.reverse_concat]

theorem mem_insert_self {path : HostPath}
    (hpath : path.components = c.root.below (names ++ [name])) (entry : String → Entry) :
    (path.components, entry name) ∈ (c.insert path entry).nodes := by
  rw [insert_eq hpath, hpath]
  exact mem_put.mpr (.inl rfl)

/-- What is stored elsewhere stays stored as a node is added. -/
theorem exists_mem_insert {path : HostPath}
    (hpath : path.components = c.root.below (names ++ [name])) (entry : String → Entry)
    {n : List Component × Entry} (hn : n ∈ c.nodes) (hne : n.1 ≠ path.components) :
    ∃ e, (n.1, e) ∈ (c.insert path entry).nodes := by
  obtain ⟨e, he⟩ := exists_mem_addMissing hn (c.root.below names).reverse
  rw [insert_eq hpath]
  exact ⟨e, mem_put.mpr (.inr ⟨he, hpath ▸ hne⟩)⟩

/-! ## Section 3: What stands above a node -/

/-- **The root, or a stored node** of this kind. -/
def Has (P : Entry → Prop) (c : Catalog) (names : List String) : Prop :=
  names = [] ∨ ∃ e, (c.root.below names, e) ∈ c.nodes ∧ P e

/-- **Rooted**: each node is below the root, and what stands above it is of this kind. -/
structure Rooted (P : Entry → Prop) (c : Catalog) : Prop extends Consistent c where
  placed : ∀ n ∈ c.nodes, ∃ names, names ≠ [] ∧ n.1 = c.root.below names ∧
    ∀ above, above <+: names → above ≠ names → c.Has P above

/-- The directories are the root and the nodes that are marked as such. -/
theorem Consistent.isDirectoryAt_iff (h : c.Consistent) {key : List Component} :
    c.isDirectoryAt key = true ↔
      key = c.root.components ∨ ∃ e, (key, e) ∈ c.nodes ∧ e.isDirectory = true := by
  unfold isDirectoryAt
  rw [Bool.or_eq_true, beq_iff_eq]
  refine or_congr_right ?_
  cases hfind : c.find? key with
  | none =>
    refine iff_of_false nofun ?_
    rintro ⟨e, he, -⟩
    exact nomatch hfind.symm.trans (h.find?_eq_some_iff.mpr he)
  | some e =>
    constructor
    · intro hdirectory
      exact ⟨e, h.find?_eq_some_iff.mp hfind, hdirectory⟩
    · rintro ⟨e', he', hdirectory⟩
      obtain rfl := Option.some.inj (hfind.symm.trans (h.find?_eq_some_iff.mpr he'))
      exact hdirectory

theorem Consistent.isDirectoryAt_below_iff (h : c.Consistent) :
    c.isDirectoryAt (c.root.below names) = true ↔ c.Has (·.isDirectory = true) names := by
  rw [h.isDirectoryAt_iff, HostPath.below_eq_root_iff]
  rfl

theorem Has.mono {Q : Entry → Prop} (h : c.Has P names) (hPQ : ∀ e, P e → Q e) :
    c.Has Q names :=
  h.imp id fun ⟨e, he, hP⟩ => ⟨e, he, hPQ e hP⟩

theorem has_put (c : Catalog) (names : List String) {e : Entry} (he : P e) :
    (c.put (c.root.below names) e).Has P names :=
  .inr ⟨e, mem_put.mpr (.inl rfl), he⟩

/-- One more node leaves what stands above others there, if it is of the kind. -/
theorem Has.put {e : Entry} (h : c.Has P above) (hkind : above = names → P e) :
    (c.put (c.root.below names) e).Has P above := by
  rcases h with rfl | ⟨e', he', hP⟩
  · exact .inl rfl
  · by_cases hsame : above = names
    · rw [hsame]
      exact has_put c names (hkind hsame)
    · exact .inr ⟨e', mem_put.mpr (.inr ⟨he', mt HostPath.below_inj.mp hsame⟩), hP⟩

namespace Rooted

theorem empty (root : HostPath) : Rooted P { root } where
  toConsistent := consistent_empty root
  placed := List.forall_mem_nil _

/-- Above a node, all is of the kind. -/
theorem has (h : Rooted P c) {e : Entry} (hmem : (c.root.below names, e) ∈ c.nodes)
    (hinit : above <+: names) (hne : above ≠ names) : c.Has P above := by
  obtain ⟨names', -, hkey, habove⟩ := h.placed _ hmem
  obtain rfl := HostPath.below_inj.mp hkey
  exact habove above hinit hne

/-- **One more node**, with all above it of the kind. It is of the kind too, or nothing is stored
    below it. -/
theorem put (h : Rooted P c) {e : Entry} (hname : e.name = name)
    (habove : ∀ above, above <+: names → c.Has P above)
    (hkind : P e ∨ ∀ n ∈ c.nodes, c.root.below (names ++ [name]) <+: n.1 →
      n.1 = c.root.below (names ++ [name])) :
    Rooted P (c.put (c.root.below (names ++ [name])) e) where
  toConsistent := by
    rw [HostPath.below_concat]
    exact h.toConsistent.put hname
  placed := by
    intro n hn
    rcases mem_put.mp hn with rfl | ⟨hn, hkey⟩
    · refine ⟨names ++ [name], List.concat_ne_nil _ _, rfl, fun above hinit hne => ?_⟩
      have hbefore := (List.prefix_concat_iff.mp hinit).resolve_left hne
      exact (habove above hbefore).put fun hsame => absurd hsame hne
    · obtain ⟨names', hnil, hplace, habove'⟩ := h.placed n hn
      refine ⟨names', hnil, hplace, fun above hinit hne => ?_⟩
      refine (habove' above hinit hne).put fun hsame => ?_
      refine hkind.resolve_right fun hnothing => hkey (hnothing n hn ?_)
      rw [hplace, ← hsame]
      exact HostPath.below_prefix_iff.mpr hinit

/-- **The directories above a path**, as far as they are missing. -/
theorem addMissing (h : Rooted P c) (hP : ∀ e, e.isDirectory = true → P e)
    (names : List String) :
    Rooted P (c.addMissing (c.root.below names).reverse) ∧
      ∀ above, above <+: names → (c.addMissing (c.root.below names).reverse).Has P above := by
  induction names using List.reverseRecOn with
  | nil =>
    rw [addMissing_root]
    exact ⟨h, fun above hinit => .inl (List.prefix_nil.mp hinit)⟩
  | append_singleton names name ih =>
    rw [addMissing_concat]
    split
    · rename_i hdirectory
      refine ⟨h, fun above hinit => ?_⟩
      have hhas := h.isDirectoryAt_below_iff.mp hdirectory
      by_cases hsame : above = names ++ [name]
      · rw [hsame]
        exact hhas.mono hP
      · obtain ⟨e, he, -⟩ := hhas.resolve_left (List.concat_ne_nil _ _)
        exact h.has he hinit hsame
    · obtain ⟨hrooted, habove⟩ := ih
      have hkind : P (Entry.directory name {}) := hP _ (isDirectory_directory _ _)
      have hput := hrooted.put rfl habove (.inl hkind)
      rw [root_addMissing] at hput
      refine ⟨hput, fun above hinit => ?_⟩
      rcases List.prefix_concat_iff.mp hinit with rfl | hbefore
      · have hhas := has_put (c.addMissing (c.root.below names).reverse) (names ++ [name]) hkind
        rwa [root_addMissing] at hhas
      · have hhas := (habove above hbefore).put fun (_ : above = names ++ [name]) => hkind
        rwa [root_addMissing] at hhas

/-- **A node that is added** with the directories above it. -/
theorem insert (h : Rooted P c) (hP : ∀ e, e.isDirectory = true → P e) {path : HostPath}
    (hpath : path.components = c.root.below (names ++ [name])) {entry : String → Entry}
    (hentry : (entry name).name = name)
    (hkind : P (entry name) ∨ ∀ n ∈ c.nodes, path.components <+: n.1 → n.1 = path.components) :
    Rooted P (c.insert path entry) := by
  obtain ⟨hrooted, habove⟩ := h.addMissing hP names
  have hput := hrooted.put hentry habove (hkind.imp id fun hnothing n hn hinit => ?_)
  · rwa [root_addMissing, ← insert_eq hpath] at hput
  · rw [root_addMissing] at hinit ⊢
    rw [hpath] at hnothing
    -- the missing directories are above the path, so they are not below it
    rcases mem_addMissing hn with hn | hbefore
    · exact hnothing n hn hinit
    · rw [List.reverse_reverse] at hbefore
      have hlength := (hinit.trans hbefore).length_le
      simp only [HostPath.below, List.length_append, List.length_map,
        List.length_singleton] at hlength
      omega

/-- **What is removed** takes all below it along. -/
theorem remove (h : Rooted P c) (path : HostPath) : Rooted P (c.remove path) where
  toConsistent := h.toConsistent.of_sublist List.filter_sublist
  placed := by
    intro n hn
    obtain ⟨hn, hstays⟩ := mem_remove.mp hn
    obtain ⟨names, hnil, hplace, habove⟩ := h.placed n hn
    refine ⟨names, hnil, hplace, fun above hinit hne => ?_⟩
    refine (habove above hinit hne).imp id ?_
    rintro ⟨e, he, hP⟩
    refine ⟨e, mem_remove.mpr ⟨he, fun hremoved => hstays (hremoved.trans ?_)⟩, hP⟩
    rw [hplace]
    exact HostPath.below_prefix_iff.mpr hinit

/-- **A change below the root** keeps a catalogue rooted, if all entries are of the kind or if it
    buries nothing. -/
theorem change (h : Rooted P c) (hP : ∀ e, e.isDirectory = true → P e) {change : Change}
    (hbelow : change.Below c.root) (hkind : (∀ e, P e) ∨ ¬ c.Buries change) :
    Rooted P (c.change change) := by
  cases change with
  | addDirectory path =>
    obtain ⟨names, hnil, hpath⟩ := hbelow
    obtain ⟨names, name, rfl⟩ := (List.eq_nil_or_concat' names).resolve_left hnil
    exact h.insert hP hpath rfl (.inl (hP _ (isDirectory_directory _ _)))
  | addFile path size modified =>
    obtain ⟨names, hnil, hpath⟩ := hbelow
    obtain ⟨names, name, rfl⟩ := (List.eq_nil_or_concat' names).resolve_left hnil
    refine h.insert hP hpath rfl (hkind.imp (· _) fun hnot n hn hinit => ?_)
    by_contra hne
    exact hnot ⟨n, hn, hinit, hne⟩
  | setAttributes path attributes => exact hbelow.elim
  | remove path => exact h.remove path

/-- **So do any number of changes** below the root. -/
theorem changed (h : Rooted P c) (hP : ∀ e, P e) {changes : List Change}
    (hbelow : ∀ change ∈ changes, change.Below c.root) : Rooted P (c.changed changes) := by
  induction changes generalizing c with
  | nil => exact h
  | cons first rest ih =>
    obtain ⟨hfirst, hrest⟩ := List.forall_mem_cons.mp hbelow
    refine ih (h.change (fun e _ => hP e) hfirst (.inl hP)) fun change hchange => ?_
    have hroot : (c.change first).root = c.root := root_changed c [first]
    rw [hroot]
    exact hrest change hchange

end Rooted

end Catalog

/-! ## Section 4: Listings -/

theorem Text.utf8_injective : Function.Injective Text.utf8 := by
  intro s t h
  have hbytes : s.toList.utf8Encode = t.toList.utf8Encode := List.toByteArray_inj.mpr h
  rw [← String.toByteArray_ofList, ← String.toByteArray_ofList, String.toByteArray_inj] at hbytes
  simpa using hbytes

namespace Catalog

variable {c : Catalog} {names : List String} {name : String}

namespace Consistent

/-- The names of a listing differ. -/
theorem children_ne (h : c.Consistent) (key : List Component) :
    (c.children key).Pairwise fun e f => e.name ≠ f.name := by
  have hperm := List.mergeSort_perm
    (c.nodes.filterMap fun n => if n.1.dropLast == key then some n.2 else none)
    fun e f => Text.utf8 e.name ≤ Text.utf8 f.name
  refine (hperm.pairwise_iff fun hne => Ne.symm hne).mpr (List.pairwise_filterMap.mpr ?_)
  -- two nodes of one name below one directory would have one path
  refine (List.pairwise_map.mp h.nodup).imp_of_mem fun {n n'} hn hn' hne e he f hf hname => hne ?_
  simp only [Option.ite_none_right_eq_some, beq_iff_eq, Option.some.injEq] at he hf
  obtain ⟨hkey, rfl⟩ := he
  obtain ⟨hkey', rfl⟩ := hf
  obtain ⟨above, hplace⟩ := h.named n hn
  obtain ⟨above', hplace'⟩ := h.named n' hn'
  rw [hplace, List.dropLast_concat] at hkey
  rw [hplace', List.dropLast_concat] at hkey'
  rw [hplace, hplace', hkey, hkey', hname]

/-- A listing is sorted by the bytes of the names. -/
theorem children_sorted (h : c.Consistent) (key : List Component) :
    (c.children key).Pairwise fun e f => Text.utf8 e.name < Text.utf8 f.name := by
  have hsorted := List.pairwise_mergeSort
    (Bytes.decide_le_trans fun e : Entry => Text.utf8 e.name)
    (Bytes.decide_le_total fun e : Entry => Text.utf8 e.name)
    (c.nodes.filterMap fun n => if n.1.dropLast == key then some n.2 else none)
  refine List.Pairwise.imp₂ (fun e f hle hne => ?_) hsorted (h.children_ne key)
  refine (List.le_iff_lt_or_eq.mp (of_decide_eq_true hle)).resolve_right fun heq => hne ?_
  exact Text.utf8_injective heq

/-- **Each node is listed once** under its name. -/
theorem filter_children (h : c.Consistent) {key : List Component} {e : Entry}
    (hmem : (key ++ [.name name], e) ∈ c.nodes) :
    (c.children key).filter (fun f => f.name = name) = [e] := by
  obtain ⟨above, hplace⟩ := h.named _ hmem
  obtain rfl : name = e.name := by
    simpa using (List.append_inj' hplace rfl).2
  obtain ⟨before, behind, hsplit⟩ :=
    List.append_of_mem (h.mem_children_iff.mpr (h.find?_eq_some_iff.mpr hmem))
  have hne := h.children_ne key
  rw [hsplit, List.pairwise_append, List.pairwise_cons] at hne
  obtain ⟨-, ⟨hbehind, -⟩, hbefore⟩ := hne
  rw [hsplit, List.filter_append, List.filter_cons_of_pos (by simp)]
  have hnone : before.filter (fun f => f.name = e.name) = [] := by
    simpa using fun f hf => hbefore f hf e List.mem_cons_self
  have hnone' : behind.filter (fun f => f.name = e.name) = [] := by
    simpa using fun f hf => (hbehind f hf).symm
  rw [hnone, hnone', List.nil_append]

end Consistent

/-! ## Section 5: Trees -/

/-- **What every catalogue keeps**: its nodes are below the root, one at most in each place, and all
    above them is stored. Directories list what is directly below them, sorted by the bytes of the
    names, and nothing else lists anything. -/
structure Kept (c : Catalog) : Prop where
  placed : ∀ n ∈ c.nodes, ∃ names, names ≠ [] ∧ n.1 = c.root.below names
  single : (c.nodes.map Prod.fst).Nodup
  stored : ∀ names e, (c.root.below names, e) ∈ c.nodes → ∀ above, above <+: names → above ≠ [] →
    ∃ e', (c.root.below above, e') ∈ c.nodes
  list : ∀ directory listing, c.list directory = .ok listing ↔
    c.isDirectory directory = true ∧ listing = c.children directory.components
  listed : ∀ key e, e ∈ c.children key ↔ (key ++ [.name e.name], e) ∈ c.nodes
  sorted : ∀ key, (c.children key).Pairwise fun e f => Text.utf8 e.name < Text.utf8 f.name
  /-- A node is listed once, and nothing else is listed under its name. -/
  once : ∀ names name e, (c.root.below (names ++ [name]), e) ∈ c.nodes →
    (c.children (c.root.below names)).filter (fun f => f.name = name) = [e]

/-- **A tree**: besides, all that stands above a node is a directory, so each node is found from the
    root down by the listings, and so is each directory. -/
structure IsTree (c : Catalog) : Prop extends Kept c where
  reached : ∀ names e, (c.root.below names, e) ∈ c.nodes →
    ∀ above, above <+: names → above ≠ names → c.isDirectoryAt (c.root.below above) = true
  directories : ∀ directory, c.isDirectory directory = true →
    ∃ names, directory.components = c.root.below names ∧
      ∀ above, above <+: names → c.isDirectoryAt (c.root.below above) = true

theorem Rooted.kept (h : Rooted (fun _ => True) c) : c.Kept where
  placed n hn := by
    obtain ⟨names, hnil, hplace, -⟩ := h.placed n hn
    exact ⟨names, hnil, hplace⟩
  single := h.nodup
  stored names e he above hinit hnil := by
    by_cases hsame : above = names
    · exact ⟨e, hsame ▸ he⟩
    · obtain ⟨e', he', -⟩ := (h.has he hinit hsame).resolve_left hnil
      exact ⟨e', he'⟩
  list directory listing := list_eq_ok_iff
  listed key e := h.mem_children_iff.trans h.find?_eq_some_iff
  sorted := h.children_sorted
  once names name e he := by
    rw [HostPath.below_concat] at he
    exact h.filter_children he

/-- **Trees are the catalogues** in which only directories stand above nodes. -/
theorem isTree_iff_rooted (h : Rooted (fun _ => True) c) :
    c.IsTree ↔ Rooted (fun e => e.isDirectory = true) c := by
  constructor
  · intro htree
    refine ⟨h.toConsistent, fun n hn => ?_⟩
    obtain ⟨names, hnil, hplace⟩ := htree.placed n hn
    refine ⟨names, hnil, hplace, fun above hinit hne => ?_⟩
    have hstored : (c.root.below names, n.2) ∈ c.nodes := hplace ▸ hn
    exact h.isDirectoryAt_below_iff.mp (htree.reached names n.2 hstored above hinit hne)
  · intro hrooted
    refine { h.kept with reached := ?reached, directories := ?directories }
    case reached =>
      intro names e he above hinit hne
      exact h.isDirectoryAt_below_iff.mpr (hrooted.has he hinit hne)
    case directories =>
      intro directory hdirectory
      -- the components of a directory are those of the root or of a node
      obtain ⟨names, hplace⟩ : ∃ names, directory.components = c.root.below names := by
        rcases h.isDirectoryAt_iff.mp hdirectory with hroot | ⟨e, he, -⟩
        · exact ⟨[], hroot.trans (List.append_nil _).symm⟩
        · obtain ⟨names, -, hplace, -⟩ := h.placed _ he
          exact ⟨names, hplace⟩
      rw [isDirectory, hplace] at hdirectory
      refine ⟨names, hplace, fun above hinit => ?_⟩
      by_cases hsame : above = names
      · exact hsame ▸ hdirectory
      · rcases h.isDirectoryAt_below_iff.mp hdirectory with rfl | ⟨e, he, -⟩
        · exact absurd (List.prefix_nil.mp hinit) hsame
        · exact h.isDirectoryAt_below_iff.mpr (hrooted.has he hinit hsame)

/-- A file with something below it stands in no tree. -/
theorem not_isTree_of_file (h : c.Consistent) {n inner : List Component × Entry} (hn : n ∈ c.nodes)
    (hfile : n.2.isDirectory = false) (hinner : inner ∈ c.nodes) (hinit : n.1 <+: inner.1)
    (hne : inner.1 ≠ n.1) : ¬ c.IsTree := by
  intro htree
  obtain ⟨names, hnil, hplace⟩ := htree.placed n hn
  obtain ⟨names', -, hplace'⟩ := htree.placed inner hinner
  rw [hplace, hplace', HostPath.below_prefix_iff] at hinit
  rw [hplace, hplace', Ne, HostPath.below_inj] at hne
  have hdirectory := htree.reached names' inner.2 (hplace' ▸ hinner) names hinit (Ne.symm hne)
  obtain ⟨e, he, hisDirectory⟩ := (h.isDirectoryAt_below_iff.mp hdirectory).resolve_left hnil
  -- there is one node only in that place, and it is the file
  rw [← hplace] at he
  have hsame := (h.find?_eq_some_iff.mpr he).symm.trans (h.find?_eq_some_iff.mpr hn)
  rw [Option.some.inj hsame, hfile] at hisDirectory
  exact Bool.false_ne_true hisDirectory

/-- **Trees are the catalogues** in which nothing is stored below a file. -/
theorem isTree_iff_nothing_below_file (h : Rooted (fun _ => True) c) :
    c.IsTree ↔ ∀ n ∈ c.nodes, n.2.isDirectory = false →
      ∀ inner ∈ c.nodes, n.1 <+: inner.1 → inner.1 = n.1 := by
  constructor
  · intro htree n hn hfile inner hinner hinit
    by_contra hne
    exact not_isTree_of_file h.toConsistent hn hfile hinner hinit hne htree
  · intro hnothing
    refine (isTree_iff_rooted h).mpr ⟨h.toConsistent, fun n hn => ?_⟩
    obtain ⟨names, hnil, hplace, habove⟩ := h.placed n hn
    refine ⟨names, hnil, hplace, fun above hinit hne => ?_⟩
    refine (habove above hinit hne).imp id fun ⟨e, he, _⟩ => ⟨e, he, ?_⟩
    -- what stands above the node is stored, and it is no file
    by_contra hfile
    have hsame := hnothing _ he (Bool.eq_false_iff.mpr hfile) n hn
      (hplace ▸ HostPath.below_prefix_iff.mpr hinit)
    rw [hplace, HostPath.below_inj] at hsame
    exact hne hsame.symm

/-- **Burying breaks a tree**: what was stored below the place of the file still is. -/
theorem not_isTree_of_buries (h : Rooted (fun _ => True) c) {change : Change}
    (hbelow : change.Below c.root) (hburies : c.Buries change) : ¬ (c.change change).IsTree := by
  cases change with
  | addDirectory | setAttributes | remove => exact hburies.elim
  | addFile path size modified =>
    obtain ⟨names, hnil, hpath⟩ := hbelow
    obtain ⟨names, name, rfl⟩ := (List.eq_nil_or_concat' names).resolve_left hnil
    obtain ⟨n, hn, hinit, hne⟩ := hburies
    have hfile := mem_insert_self hpath fun s => Entry.file s size modified
    obtain ⟨e, he⟩ := exists_mem_insert hpath (fun s => Entry.file s size modified) hn hne
    exact not_isTree_of_file (h.toConsistent.change (.addFile path size modified)) hfile
      (isDirectory_file name size modified) he hinit hne

/-! ## Section 6: Catalogues that stay trees -/

theorem changed_take_succ (c : Catalog) (changes : List Change) (n : Nat) :
    c.changed (changes.take (n + 1)) =
      (c.changed (changes.take n)).changed changes[n]?.toList := by
  rw [List.take_add_one, changed, List.foldl_append]
  rfl

/-- **A catalogue stays a tree exactly as long as nothing is buried.** Whatever directories and
    files are added below the root and removed, the nodes stand on one another, and a directory
    lists what is stored directly below it, each node once and under its name, sorted by the bytes
    of the names. The catalogue is a tree just when nothing is stored below a file; it is one at
    every moment just when no change puts a file where something is stored below. -/
theorem stays_tree_iff (root : HostPath) (changes : List Change)
    (hbelow : ∀ change ∈ changes, change.Below root) :
    let before := fun n => Catalog.changed { root } (changes.take n)
    let c := Catalog.changed { root } changes
    c.Kept ∧
    (c.IsTree ↔ ∀ n ∈ c.nodes, n.2.isDirectory = false →
      ∀ inner ∈ c.nodes, n.1 <+: inner.1 → inner.1 = n.1) ∧
    ((∀ n, (before n).IsTree) ↔
      ∀ n change, changes[n]? = some change → ¬ (before n).Buries change) := by
  intro before c
  have hrooted : ∀ n, Rooted (fun _ => True) (before n) := fun n =>
    (Rooted.empty root).changed (fun _ => trivial) fun change hchange =>
      hbelow change (List.mem_of_mem_take hchange)
  have hall : Rooted (fun _ => True) c := (Rooted.empty root).changed (fun _ => trivial) hbelow
  have hnext : ∀ n change, changes[n]? = some change →
      before (n + 1) = (before n).change change ∧ change.Below (before n).root := by
    intro n change hget
    refine ⟨?_, ?_⟩
    · show Catalog.changed { root } (changes.take (n + 1)) = _
      rw [changed_take_succ, hget]
      rfl
    · rw [root_changed]
      exact hbelow change (List.mem_of_getElem? hget)
  refine ⟨hall.kept, isTree_iff_nothing_below_file hall, ?_, ?_⟩
  · intro htree n change hget hburies
    obtain ⟨hafter, hplace⟩ := hnext n change hget
    exact not_isTree_of_buries (hrooted n) hplace hburies (hafter ▸ htree (n + 1))
  · intro hnot n
    refine (isTree_iff_rooted (hrooted n)).mpr ?_
    -- on the number of changes: one that buries nothing keeps what stands above nodes a directory
    induction n with
    | zero => exact Rooted.empty root
    | succ n ih =>
      cases hget : changes[n]? with
      | none =>
        have hsame : before (n + 1) = before n := by
          show Catalog.changed { root } (changes.take (n + 1)) = _
          rw [changed_take_succ, hget]
          rfl
        rw [hsame]
        exact ih
      | some change =>
        obtain ⟨hafter, hplace⟩ := hnext n change hget
        rw [hafter]
        exact ih.change (fun _ hdirectory => hdirectory) hplace (.inr (hnot n change hget))

/-- A directory that comes up in the place of a file, and is removed with what is below it. -/
theorem stays_tree_iff_in_place_of_file :
    let changes : List Change := [.addDirectory ⟨"/d/A"⟩, .addFile ⟨"/d/A/F"⟩ 1 {},
      .addDirectory ⟨"/d/A/F/X"⟩, .remove ⟨"/d/A/F"⟩]
    (∀ change ∈ changes, change.Below ⟨"/d"⟩) ∧
      ∀ n, (Catalog.changed { root := ⟨"/d"⟩ } (changes.take n)).IsTree := by
  intro changes
  have hbelow : ∀ change ∈ changes, change.Below ⟨"/d"⟩ := by
    simp only [changes, List.forall_mem_cons]
    exact ⟨⟨["A"], nofun, by decide⟩, ⟨["A", "F"], nofun, by decide⟩,
      ⟨["A", "F", "X"], nofun, by decide⟩, ⟨["A", "F"], nofun, by decide⟩, List.forall_mem_nil _⟩
  refine ⟨hbelow, (stays_tree_iff ⟨"/d"⟩ changes hbelow).2.2.mpr fun n change hget => ?_⟩
  -- only the second change adds a file, and nothing is stored below its place
  rcases n with _ | _ | _ | _ | n
  · obtain rfl := Option.some.inj hget
    exact id
  · obtain rfl := Option.some.inj hget
    show ¬ ∃ n ∈ (Catalog.changed { root := ⟨"/d"⟩ } (changes.take 1)).nodes, _
    decide
  · obtain rfl := Option.some.inj hget
    exact id
  · obtain rfl := Option.some.inj hget
    exact id
  · exact nomatch (hget : none = some change)

/-- **A file in the place of a directory.** The directory that was in it is still one, below a file
    that lists nothing. -/
theorem directory_below_file :
    let changes : List Change :=
      [.addDirectory ⟨"/d/A"⟩, .addDirectory ⟨"/d/A/SUB"⟩, .addFile ⟨"/d/A"⟩ 1 {}]
    let c := Catalog.changed { root := ⟨"/d"⟩ } changes
    (∀ change ∈ changes, change.Below ⟨"/d"⟩) ∧ c.isDirectory ⟨"/d/A/SUB"⟩ = true ∧
      c.isDirectory ⟨"/d/A"⟩ = false ∧ ¬ c.IsTree := by
  intro changes c
  have hsub : c.isDirectory ⟨"/d/A/SUB"⟩ = true := by decide
  have hfile : c.isDirectoryAt (c.root.below ["A"]) = false := by decide
  refine ⟨?_, hsub, by decide, fun htree => ?_⟩
  · simp only [changes, List.forall_mem_cons]
    exact ⟨⟨["A"], nofun, by decide⟩, ⟨["A", "SUB"], nofun, by decide⟩,
      ⟨["A"], nofun, by decide⟩, List.forall_mem_nil _⟩
  · obtain ⟨names, hplace, habove⟩ := htree.directories _ hsub
    have hnames : HostPath.components ⟨"/d/A/SUB"⟩ = c.root.below ["A", "SUB"] := by decide
    obtain rfl := HostPath.below_inj.mp (hnames.symm.trans hplace)
    exact Bool.false_ne_true (hfile.symm.trans (habove ["A"] (by decide)))

end Catalog

end HostDrive

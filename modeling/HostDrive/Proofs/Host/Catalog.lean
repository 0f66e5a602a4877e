import HostDrive.Host.Catalog
import Mathlib.Data.List.Nodup

/-!
# Consistent Catalogues

Whatever is added to a catalogue, changed in it or removed from it, each path has one node at most,
and the entry of a node has the last name of its path. So the entries of a listing are found again
under the path of the listing followed by their names, and nothing else is found there.

## Architecture

- `Change` lists the changes, `Catalog.changed` makes them in order.
- `Consistent` is the invariant. `Consistent.put` is its step for one node, from which
  `Consistent.change` follows, and by induction `Consistent.changed`.
- `Consistent.find?_eq_some_iff` and `Consistent.mem_children_iff` are what it is good for.
-/

namespace HostDrive.Catalog

open HostPath (Component)

/-! ## Section 1: Changes -/

/-- A change of a catalogue. -/
inductive Change where
  | addDirectory (path : HostPath)
  | addFile (path : HostPath) (size : Nat) (modified : Timestamp)
  | setAttributes (path : HostPath) (attributes : UInt8)
  | remove (path : HostPath)
  deriving DecidableEq, Repr

def change (c : Catalog) : Change → Catalog
  | .addDirectory path => c.addDirectory path
  | .addFile path size modified => c.addFile path size modified
  | .setAttributes path attributes => c.setAttributes path attributes
  | .remove path => c.remove path

/-- The catalogue after some changes, made in order. -/
def changed (c : Catalog) (changes : List Change) : Catalog := changes.foldl change c

theorem root_addMissing (c : Catalog) (above : List Component) :
    (c.addMissing above).root = c.root := by
  induction above with
  | nil => rfl
  | cons component above ih =>
    cases component with
    | name n =>
      rw [addMissing]
      split
      · rfl
      · exact ih
    | root | here | up => rfl

theorem root_insert (c : Catalog) (path : HostPath) (entry : String → Entry) :
    (c.insert path entry).root = c.root := by
  unfold insert
  split
  · exact root_addMissing c _
  · rfl

/-- The root stays what it is. -/
@[simp] theorem root_changed (c : Catalog) (changes : List Change) :
    (c.changed changes).root = c.root := by
  induction changes generalizing c with
  | nil => rfl
  | cons first rest ih =>
    have hfirst : (c.change first).root = c.root := by
      cases first with
      | addDirectory path => exact c.root_insert path _
      | addFile path size modified => exact c.root_insert path _
      | setAttributes path attributes => rfl
      | remove path => rfl
    exact (ih _).trans hfirst

/-! ## Section 2: The invariant -/

/-- **A consistent catalogue**: each path has one node at most, and its entry has the last name of
    the path. -/
structure Consistent (c : Catalog) : Prop where
  nodup : (c.nodes.map Prod.fst).Nodup
  named : ∀ n ∈ c.nodes, ∃ above, n.1 = above ++ [Component.name n.2.name]

theorem consistent_empty (root : HostPath) : Consistent { root } where
  nodup := List.nodup_nil
  named := List.forall_mem_nil _

namespace Consistent

variable {c : Catalog}

/-- Some of the nodes of a consistent catalogue. -/
theorem of_sublist (h : c.Consistent) {nodes : List (List Component × Entry)}
    (hnodes : nodes.Sublist c.nodes) : Consistent { c with nodes } where
  nodup := h.nodup.sublist (hnodes.map Prod.fst)
  named := fun n hn => h.named n (hnodes.subset hn)

/-- One more node. What had its path is gone. -/
theorem put (h : c.Consistent) {above : List Component} {n : String} {e : Entry}
    (hname : e.name = n) : (c.put (above ++ [.name n]) e).Consistent where
  nodup := by
    refine List.nodup_cons.mpr ⟨?_, (h.of_sublist List.filter_sublist).nodup⟩
    intro hmem
    obtain ⟨n, hn, hkey⟩ := List.mem_map.mp hmem
    exact bne_iff_ne.mp (List.mem_filter.mp hn).2 hkey
  named := by
    intro n hn
    rcases List.mem_cons.mp hn with rfl | hn
    · exact ⟨above, hname ▸ rfl⟩
    · exact h.named n (List.mem_filter.mp hn).1

/-- The directories above a new node, from the nearest one that is there. -/
theorem addMissing (h : c.Consistent) (above : List Component) :
    (c.addMissing above).Consistent := by
  induction above with
  | nil => exact h
  | cons component above ih =>
    cases component with
    | name n =>
      rw [Catalog.addMissing]
      split
      · exact h
      · rw [List.reverse_cons]
        exact ih.put rfl
    | root | here | up => exact h

theorem insert (h : c.Consistent) (path : HostPath) {entry : String → Entry}
    (hentry : ∀ n, (entry n).name = n) : (c.insert path entry).Consistent := by
  unfold Catalog.insert
  split
  · rename_i n above hcomponents
    have hpath : path.components = above.reverse ++ [.name n] := by
      simpa using congrArg List.reverse hcomponents
    rw [hpath]
    exact (h.addMissing above).put (hentry n)
  · exact h

theorem setAttributes (h : c.Consistent) (path : HostPath) (attributes : UInt8) :
    (c.setAttributes path attributes).Consistent := by
  -- neither a path nor a name is touched
  have hkeeps : ∀ n : List Component × Entry,
      let n' := if n.1 == path.components then (n.1, { n.2 with attributes := attributes }) else n
      n'.1 = n.1 ∧ n'.2.name = n.2.name := by
    intro n
    simp only
    split <;> exact ⟨rfl, rfl⟩
  constructor
  · have hkeys : (c.setAttributes path attributes).nodes.map Prod.fst = c.nodes.map Prod.fst := by
      rw [Catalog.setAttributes, List.map_map]
      exact List.map_congr_left fun n _ => (hkeeps n).1
    rw [hkeys]
    exact h.nodup
  · intro n' hn'
    obtain ⟨n, hn, rfl⟩ := List.mem_map.mp hn'
    rw [(hkeeps n).1, (hkeeps n).2]
    exact h.named n hn

/-- **A change keeps a catalogue consistent.** -/
theorem change (h : c.Consistent) (change : Change) : (c.change change).Consistent := by
  cases change with
  | addDirectory path => exact h.insert path fun _ => rfl
  | addFile path size modified => exact h.insert path fun _ => rfl
  | setAttributes path attributes => exact h.setAttributes path attributes
  | remove path => exact h.of_sublist List.filter_sublist

/-- **So do any number of changes.** -/
theorem changed (h : c.Consistent) (changes : List Change) : (c.changed changes).Consistent := by
  induction changes generalizing c with
  | nil => exact h
  | cons change rest ih => exact ih (h.change change)

/-! ## Section 3: What is found -/

/-- A node is found under its path, and nothing else is. -/
theorem find?_eq_some_iff (h : c.Consistent) {key : List Component} {e : Entry} :
    c.find? key = some e ↔ (key, e) ∈ c.nodes := by
  rw [find?, List.lookup_eq_some_iff]
  constructor
  · rintro ⟨before, behind, hnodes, -⟩
    rw [hnodes]
    exact List.mem_append_right _ List.mem_cons_self
  · intro hmem
    obtain ⟨before, behind, hnodes⟩ := List.append_of_mem hmem
    refine ⟨before, behind, hnodes, fun n hn => ?_⟩
    -- a node before it with the same path would be a second one
    have hnodup := h.nodup
    rw [hnodes, List.map_append, List.map_cons] at hnodup
    rw [bne_iff_ne]
    rintro rfl
    exact (List.disjoint_of_nodup_append hnodup) (List.mem_map_of_mem hn) List.mem_cons_self

/-- **A listing has what is found below its path**, one name further down. -/
theorem mem_children_iff (h : c.Consistent) {key : List Component} {e : Entry} :
    e ∈ c.children key ↔ c.find? (key ++ [.name e.name]) = some e := by
  rw [h.find?_eq_some_iff, children, List.mem_mergeSort, List.mem_filterMap]
  constructor
  · rintro ⟨n, hn, hbelow⟩
    split at hbelow
    · rename_i hkey
      obtain rfl := Option.some.inj hbelow
      obtain ⟨above, hpath⟩ := h.named n hn
      rw [hpath, beq_iff_eq, List.dropLast_concat] at hkey
      rw [← hkey, ← hpath]
      exact hn
    · exact nomatch hbelow
  · intro hmem
    exact ⟨_, hmem, if_pos (by simp)⟩

end Consistent

end HostDrive.Catalog

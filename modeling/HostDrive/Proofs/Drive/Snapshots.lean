import HostDrive.Proofs.Drive.Calls

/-!
# The Table of Snapshots

Whatever calls a drive has served, its searches are what an abstract table of four snapshots says: a
find-first that takes a snapshot puts it in the slot of its serial number, no other call changes a
slot, and a find-next answers from the snapshot that was put into its slot last.

## Architecture

- `Latest` says, of a history alone, which snapshot a slot was given last.
- `slots_after` is the refinement: the slots of the drive hold the latest snapshots.
- `Served` collects what one more call then does.
-/

namespace HostDrive

variable {γ : Type} [Guest γ]

/-! ## Section 1: The latest snapshot of a slot -/

/-- No call of a history takes a snapshot for a slot. -/
def Silent (base : HostPath) (history : List (Visit γ)) (slot : Fin searchSlots) : Prop :=
  ∀ v ∈ history, SearchTable.slotOf v.block.serial = slot → ∀ found, ¬ v.Takes base found

/-- **The latest snapshot of a slot** in a history: some call took it for that slot, and no call
    since then took one for the same slot. -/
def Latest (base : HostPath) (history : List (Visit γ)) (slot : Fin searchSlots)
    (found : List Entry) : Prop :=
  ∃ before v since, history = before ++ v :: since ∧
    SearchTable.slotOf v.block.serial = slot ∧ v.Takes base found ∧ Silent base since slot

theorem not_latest_nil (base : HostPath) (slot : Fin searchSlots) (found : List Entry) :
    ¬ Latest base ([] : List (Visit γ)) slot found := by
  rintro ⟨before, v, since, hhistory, -⟩
  cases before <;> cases hhistory

theorem silent_cons {base : HostPath} {v : Visit γ} {history : List (Visit γ)}
    {slot : Fin searchSlots} :
    Silent base (v :: history) slot ↔
      (SearchTable.slotOf v.block.serial = slot → ∀ found, ¬ v.Takes base found) ∧
      Silent base history slot := by
  simp only [Silent, List.forall_mem_cons]

/-- The first call of a history counts only if no later one takes its place. -/
theorem latest_cons {base : HostPath} {v : Visit γ} {history : List (Visit γ)}
    {slot : Fin searchSlots} {found : List Entry} :
    Latest base (v :: history) slot found ↔
      Latest base history slot found ∨
      (SearchTable.slotOf v.block.serial = slot ∧ v.Takes base found ∧
        Silent base history slot) := by
  constructor
  · rintro ⟨before, w, since, hhistory, hslot, htakes, hsince⟩
    cases before with
    | nil =>
      obtain ⟨rfl, rfl⟩ := List.cons.inj hhistory
      exact .inr ⟨hslot, htakes, hsince⟩
    | cons u before =>
      obtain ⟨rfl, rfl⟩ := List.cons.inj hhistory
      exact .inl ⟨before, w, since, rfl, hslot, htakes, hsince⟩
  · rintro (⟨before, w, since, rfl, hslot, htakes, hsince⟩ | ⟨hslot, htakes, hsince⟩)
    · exact ⟨v :: before, w, since, rfl, hslot, htakes, hsince⟩
    · exact ⟨[], v, history, rfl, hslot, htakes, hsince⟩

/-! ## Section 2: The slots of a drive -/

namespace Drive

/-- A call that takes a snapshot replaces one slot. -/
theorem slots_visit_of_takes {d : Drive} {v : Visit γ} {found : List Entry}
    (h : v.Takes d.base found) (slot : Fin searchSlots) :
    (d.visit v).1.searches.slots.get slot =
      if slot = SearchTable.slotOf v.block.serial then some found.toArray
      else d.searches.slots.get slot := by
  rw [visit_findFirst_of_takes h]
  cases found[0]? <;> exact SearchTable.slots_insert ..

theorem searches_visit_of_not_takes {d : Drive} {v : Visit γ}
    (h : ∀ found, ¬ v.Takes d.base found) : (d.visit v).1.searches = d.searches := by
  by_cases hentry : v.entry = .findFirst
  · rw [visit_findFirst_of_not_takes hentry h]
  · exact searches_visit_of_ne hentry

/-- **Refinement of the table.** After a history every slot holds the latest snapshot that the
    history took for it, or what it held before if there is none. -/
theorem slots_after (d : Drive) (history : List (Visit γ)) (slot : Fin searchSlots)
    (snapshot : Snapshot) :
    (d.after history).searches.slots.get slot = some snapshot ↔
      Latest d.base history slot snapshot.toList ∨
      (Silent d.base history slot ∧ d.searches.slots.get slot = some snapshot) := by
  -- on the history, for any drive: its first call replaces one slot at most, and the rest of the
  -- history starts from there
  induction history generalizing d with
  | nil => simp [not_latest_nil, Silent]
  | cons v history ih =>
    rw [after_cons, ih, (d.base_visit v).1, latest_cons, silent_cons]
    by_cases htakes : ∃ found, v.Takes d.base found
    · obtain ⟨found, hfound⟩ := htakes
      rw [slots_visit_of_takes hfound]
      by_cases hslot : SearchTable.slotOf v.block.serial = slot
      · -- this call gave the slot its snapshot, which lasts if the rest is silent
        have hsnapshot : v.Takes d.base snapshot.toList ↔ found.toArray = snapshot := by
          constructor
          · intro h
            rw [hfound.unique h]
          · rintro rfl
            exact hfound
        have htook : ¬ ∀ other, ¬ v.Takes d.base other := fun h => h found hfound
        simp only [hslot, if_true, Option.some.injEq, hsnapshot, true_and, true_imp_iff, htook,
          false_and, or_false]
        exact or_congr_right and_comm
      · -- it gave another slot its snapshot
        have hother : slot ≠ SearchTable.slotOf v.block.serial := fun h => hslot h.symm
        simp only [hslot, hother, if_false, false_and, or_false, false_imp_iff, true_and]
    · have hnone : ∀ found, ¬ v.Takes d.base found := fun found h => htakes ⟨found, h⟩
      rw [searches_visit_of_not_takes hnone]
      simp only [hnone, not_false_eq_true, implies_true, true_and, false_and, and_false, or_false]

end Drive

/-! ## Section 3: What one more call does -/

/-- A call hands an entry over: it succeeds and stores a block that reads as the entry, at this
    position of the search with the serial number that the guest's block has. -/
def HandsOver (v : Visit γ) (e : Entry) (index : UInt16) (outcome : Drive × Status × γ) : Prop :=
  ∃ b : InfoBlock, b.bytes.length = InfoBlock.length ∧ b.record = e.shown ∧ b.index = index ∧
    b.serial = v.block.serial ∧ outcome.2 = (.ok, (Reply.store v.address b.bytes).deliver v.guest)

/-- A call finds nothing, and says so in the registers only. -/
def FindsNothing (v : Visit γ) (outcome : Drive × Status × γ) : Prop :=
  outcome.2 = (.noFile, Reply.noFile.deliver v.guest)

theorem handsOver_present {v : Visit γ} {e : Entry} (hlegal : ShortName.isLegal e.name = true)
    (index : UInt16) (d : Drive) :
    HandsOver v e index
      (d, .ok, (Reply.store v.address (v.block.present e index).bytes).deliver v.guest) :=
  ⟨v.block.present e index,
    (InfoBlock.length_present v.isFull_block e index).trans v.length_block,
    InfoBlock.record_present v.isFull_block hlegal index,
    InfoBlock.index_present v.isFull_block e index,
    InfoBlock.serial_present v.isFull_block e index, rfl⟩

/-- **How a call is served** after a history, in terms of the history alone. -/
structure Served (base : HostPath) (history : List (Visit γ)) (d : Drive) (v : Visit γ) :
    Prop where
  /-- The slots hold the latest snapshots. -/
  table : ∀ slot snapshot, d.searches.slots.get slot = some snapshot ↔
    Latest base history slot snapshot.toList
  /-- A call that takes a snapshot replaces the slot of its serial number and no other. -/
  replaced : ∀ found, v.Takes base found → ∀ slot, (d.visit v).1.searches.slots.get slot =
    if slot = SearchTable.slotOf v.block.serial then some found.toArray
    else d.searches.slots.get slot
  /-- Every other call changes no slot. -/
  unchanged : (∀ found, ¬ v.Takes base found) → (d.visit v).1.searches = d.searches
  /-- A find-first that takes no snapshot says that there is no directory. -/
  noDirectory : v.entry = .findFirst → (∀ found, ¬ v.Takes base found) →
    (d.visit v).2 = (.noDirectory, Reply.noDirectory.deliver v.guest)
  /-- A find-first hands over the first entry of its snapshot. -/
  firstEntry : ∀ e rest, v.Takes base (e :: rest) → HandsOver v e 0 (d.visit v)
  /-- An empty snapshot has none. -/
  firstNothing : v.Takes base [] → FindsNothing v (d.visit v)
  /-- A find-next hands over the next entry of the latest snapshot in its slot. -/
  nextEntry : v.entry = .findNext → v.block.index ≠ 0xFFFF → ∀ found e,
    Latest base history (SearchTable.slotOf v.block.serial) found →
    found[v.block.index.toNat + 1]? = some e →
    HandsOver v e (v.block.index + 1) (d.visit v)
  /-- Behind the last position or the last entry there is none, and none without a snapshot. -/
  nextNothing : v.entry = .findNext →
    (v.block.index = 0xFFFF ∨ ∀ found,
      Latest base history (SearchTable.slotOf v.block.serial) found →
      found.length ≤ v.block.index.toNat + 1) →
    FindsNothing v (d.visit v)

theorem Latest.isLegal {base : HostPath} {history : List (Visit γ)} {slot : Fin searchSlots}
    {found : List Entry} (h : Latest base history slot found) {e : Entry} (he : e ∈ found) :
    ShortName.isLegal e.name = true := by
  obtain ⟨_, _, _, -, -, htakes, -⟩ := h
  exact htakes.isLegal he

/-- Every call of a new drive is served as its history says. -/
theorem served_after_new (base : HostPath) (label : String) (history : List (Visit γ))
    (v : Visit γ) : Served base history ((Drive.new base label).after history) v := by
  have hbase : ((Drive.new base label).after history).base = base := Drive.base_after _ _
  have htable : ∀ slot snapshot,
      ((Drive.new base label).after history).searches.slots.get slot = some snapshot ↔
        Latest base history slot snapshot.toList := by
    intro slot snapshot
    have hempty : (Drive.new base label).searches.slots.get slot = none :=
      Vector.getElem_replicate slot.isLt
    rw [Drive.slots_after, hempty]
    simp only [reduceCtorEq, and_false, or_false]
    exact Iff.rfl
  -- from here on only base and table of the drive matter, not how it came about
  generalize (Drive.new base label).after history = d at hbase htable
  subst hbase
  exact {
    table := htable
    replaced := fun found h => Drive.slots_visit_of_takes h
    unchanged := fun h => Drive.searches_visit_of_not_takes h
    noDirectory := fun hentry h => by rw [Drive.visit_findFirst_of_not_takes hentry h]
    firstEntry := fun e rest h => by
      rw [Drive.visit_findFirst_of_takes h]
      exact handsOver_present (h.isLegal List.mem_cons_self) 0 _
    firstNothing := fun h => by
      rw [Drive.visit_findFirst_of_takes h]
      rfl
    nextEntry := fun hentry hindex found e hlatest he => by
      have hget : d.searches.get? v.block.serial = some found.toArray :=
        (htable _ found.toArray).mpr hlatest
      have he' : found.toArray[v.block.index.toNat + 1]? = some e := by
        rw [List.getElem?_toArray, he]
      rw [Drive.visit_findNext_of_some hentry hindex hget he']
      exact handsOver_present (hlatest.isLegal (List.mem_of_getElem? he)) _ _
    nextNothing := fun hentry h => by
      have hnone : v.block.index = 0xFFFF ∨ ∀ snapshot,
          d.searches.get? v.block.serial = some snapshot →
            snapshot.size ≤ v.block.index.toNat + 1 :=
        h.imp_right fun hlatest snapshot hget =>
          hlatest snapshot.toList ((htable _ snapshot).mp hget)
      rw [Drive.visit_findNext_of_none hentry hnone]
      rfl }

end HostDrive

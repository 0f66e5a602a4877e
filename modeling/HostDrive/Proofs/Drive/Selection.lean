import HostDrive.Drive.Basic
import HostDrive.Proofs.Bytes

/-!
# Guest Order

The order in which a search hands its entries over, said without a sorting algorithm: the same
entries, by rising key, and those with the same key in the order of the listing. There is one such
list at most, and `Drive.selection` is it.
-/

namespace HostDrive

/-- **Guest order.** `found` has the entries of `listing`, none lost and none twice, sorted by their
    names in upper case; entries that sort alike stay in the order of the listing. -/
structure InGuestOrder (listing found : List Entry) : Prop where
  perm : found.Perm listing
  sorted : found.Pairwise fun e f => e.sortKey ≤ f.sortKey
  stable : ∀ key, found.filter (·.sortKey = key) = listing.filter (·.sortKey = key)

/-- The entries of a listing that a search asks for: legal names that match its pattern. -/
def wanted (pattern : String) (listing : List Entry) : List Entry :=
  listing.filter fun e => ShortName.isLegal e.name && Wildcard.isMatch pattern e.name

theorem isLegal_of_mem_wanted {pattern : String} {listing : List Entry} {e : Entry}
    (h : e ∈ wanted pattern listing) : ShortName.isLegal e.name = true := by
  have hboth := (List.mem_filter.mp h).2
  exact (Bool.and_eq_true_iff.mp hboth).1

namespace InGuestOrder

/-- Sorting with a stable sort is putting into guest order. -/
theorem mergeSort (listing : List Entry) :
    InGuestOrder listing (listing.mergeSort fun e f => e.sortKey ≤ f.sortKey) := by
  have htrans := Bytes.decide_le_trans Entry.sortKey
  have htotal := Bytes.decide_le_total Entry.sortKey
  have hperm := List.mergeSort_perm listing fun e f => e.sortKey ≤ f.sortKey
  refine ⟨hperm, ?sorted, ?stable⟩
  case sorted => simpa using List.pairwise_mergeSort htrans htotal listing
  case stable =>
    -- entries with one key are a sorted sublist, which a stable sort keeps; it is all of them
    intro key
    have hsame : (listing.filter (·.sortKey = key)).Pairwise
        fun e f => decide (e.sortKey ≤ f.sortKey) = true := by
      apply List.pairwise_of_forall_mem_list
      intro e he f hf
      have hkeyE : e.sortKey = key := by simpa using (List.mem_filter.mp he).2
      have hkeyF : f.sortKey = key := by simpa using (List.mem_filter.mp hf).2
      simp only [hkeyE, hkeyF, decide_eq_true_eq]
      exact List.le_refl key
    have hsub := List.sublist_mergeSort htrans htotal hsame List.filter_sublist
    have hkept := hsub.filter (·.sortKey = key)
    rw [List.filter_filter] at hkept
    simp only [Bool.and_self] at hkept
    exact (hkept.eq_of_length (hperm.filter _).length_eq.symm).symm

/-- Lists that agree under each key still do without the entry that both begin with. -/
private theorem stable_tail {e : Entry} {found found' : List Entry}
    (h : ∀ key, (e :: found).filter (·.sortKey = key) = (e :: found').filter (·.sortKey = key))
    (key : List UInt8) : found.filter (·.sortKey = key) = found'.filter (·.sortKey = key) := by
  have hkey := h key
  simp only [List.filter_cons] at hkey
  split at hkey
  · exact List.tail_eq_of_cons_eq hkey
  · exact hkey

/-- **Guest order leaves no choice.** Two lists with the same entries, both sorted and agreeing on
    the order under each key, are equal. -/
theorem unique {listing found found' : List Entry} (h : InGuestOrder listing found)
    (h' : InGuestOrder listing found') : found = found' := by
  have hperm : found.Perm found' := h.perm.trans h'.perm.symm
  have hstable : ∀ key, found.filter (·.sortKey = key) = found'.filter (·.sortKey = key) :=
    fun key => (h.stable key).trans (h'.stable key).symm
  have hsorted := h.sorted
  have hsorted' := h'.sorted
  clear h h'
  -- on the first list, for any second one; the head of both is the first entry under its key
  induction found generalizing found' with
  | nil => exact (List.nil_perm.mp hperm).symm
  | cons e rest ih =>
    match found' with
    | [] => exact absurd hperm (by simp)
    | f :: rest' =>
      -- the smallest key stands in front of both lists
      have hkey : e.sortKey = f.sortKey := by
        have hle : e.sortKey ≤ f.sortKey := by
          rcases List.mem_cons.mp (hperm.mem_iff.mpr List.mem_cons_self) with heq | hmem
          · rw [heq]
            exact List.le_refl _
          · exact List.rel_of_pairwise_cons hsorted hmem
        have hge : f.sortKey ≤ e.sortKey := by
          rcases List.mem_cons.mp (hperm.mem_iff.mp List.mem_cons_self) with heq | hmem
          · rw [heq]
            exact List.le_refl _
          · exact List.rel_of_pairwise_cons hsorted' hmem
        exact List.le_antisymm hle hge
      have hhead := hstable e.sortKey
      simp only [List.filter_cons, hkey, decide_true, if_true] at hhead
      obtain rfl := List.head_eq_of_cons_eq hhead
      rw [ih hperm.cons_inv (stable_tail hstable) hsorted.of_cons hsorted'.of_cons]

end InGuestOrder

/-- A search finds the wanted entries in guest order. -/
theorem Drive.inGuestOrder_selection (pattern : String) (listing : List Entry) :
    InGuestOrder (wanted pattern listing) (Drive.selection pattern listing) :=
  InGuestOrder.mergeSort (wanted pattern listing)

end HostDrive

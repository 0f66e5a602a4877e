import HostDrive.Proofs.Guest.Text
import Mathlib.Data.Set.Card

/-!
# Reading Back What Was Written

Memory has as many bytes as there are addresses, so a run of bytes that is no longer than memory
never comes round to its own start, wherever it begins. What was written is therefore there to be
read: a block as it was, and a text as far as its first zero character and the limit of the reader.

## Architecture

- `Guest.ncard_within` counts the addresses of a run.
- `FlatGuest.MayChange` is what a write may change in any memory; `FlatGuest.mayChange_iff` says
  that this is its run, to the last byte.
- `FlatGuest.written_reads_back` puts writing and reading side by side.
-/

namespace HostDrive

/-! ## Section 1: The addresses of a run -/

namespace Guest

/-- Distances below the size of memory lead to addresses of their own. -/
theorem injOn_add_ofNat (start : UInt16) (length : Nat) (hfit : length ≤ memorySize) :
    Set.InjOn (fun i => start + UInt16.ofNat i) (Finset.range length) := by
  intro i hi j hj heq
  rw [Finset.coe_range, Set.mem_Iio] at hi hj
  have hdistance : (start + UInt16.ofNat i - start).toNat =
      (start + UInt16.ofNat j - start).toNat := congrArg (fun x => (x - start).toNat) heq
  rwa [toNat_add_ofNat_sub, toNat_add_ofNat_sub, Nat.mod_eq_of_lt (by omega),
    Nat.mod_eq_of_lt (by omega)] at hdistance

/-- **A run has as many addresses as bytes**, if it is no longer than memory. -/
theorem ncard_within (start : UInt16) {length : Nat} (hfit : length ≤ memorySize) :
    {x | Within start length x}.ncard = length := by
  have himage : {x | Within start length x} =
      ((Finset.range length).image fun i => start + UInt16.ofNat i : Finset UInt16) := by
    ext x
    simp only [Set.mem_ofPred_eq, Finset.coe_image, Finset.coe_range, Set.mem_image, Set.mem_Iio]
    constructor
    · intro hx
      obtain ⟨i, hi, rfl⟩ := hx.exists_eq
      exact ⟨i, hi, rfl⟩
    · rintro ⟨i, hi, rfl⟩
      exact within_add_ofNat hi
  rw [himage, Set.ncard_coe_finset, Finset.card_image_of_injOn (injOn_add_ofNat start length hfit),
    Finset.card_range]

end Guest

/-! ## Section 2: What a write may change -/

namespace FlatGuest

/-- **The bytes that a write may change**: each of them is changed in some memory. -/
def MayChange (start : UInt16) (bytes : List UInt8) (x : UInt16) : Prop :=
  ∃ g : FlatGuest, (Guest.store g start bytes).peek x ≠ g.peek x

/-- **A write may change its run**, and nothing but its run. -/
theorem mayChange_iff {start : UInt16} {bytes : List UInt8} (hfit : bytes.length ≤ memorySize)
    (x : UInt16) : MayChange start bytes x ↔ Guest.Within start bytes.length x := by
  constructor
  · rintro ⟨g, hchanged⟩
    by_contra houtside
    exact hchanged (peek_store_of_not_within houtside)
  · intro hinside
    obtain ⟨i, hi, rfl⟩ := hinside.exists_eq
    -- memory with another byte everywhere
    refine ⟨filled (bytes[i] + 1), ?_⟩
    rw [peek_store_add _ start bytes hfit i hi, peek_filled]
    intro heq
    have hnumber := congrArg UInt8.toNat heq
    rw [UInt8.toNat_add] at hnumber
    simp only [UInt8.reduceToNat] at hnumber
    omega

/-! ## Section 3: Writing and reading -/

/-- A text that was written is heard up to its first zero character. -/
theorem readText_store_plainText (g : FlatGuest) (start : UInt16) {s : String}
    (hfit : s.utf8ByteSize < memorySize) (limit : Nat) :
    Guest.readText (Guest.store g start (Guest.plainText s)).peek start limit =
      Guest.heard limit (Text.untilZero s) := by
  apply Guest.readText_of_holds_plainText
  apply readBlock_store
  rw [Guest.length_plainText]
  exact hfit

/-- **What is written reads back.** Whatever memory holds, and wherever a run begins in it:

    - A text shorter than memory is read back up to its first zero character, as many bytes of that
      as the limit allows, with a question mark for each byte outside ASCII. Writing it may change
      as many bytes as it has and one more, which are those from the start on.
    - A block no longer than memory is read back as it was, and every other byte stays.
    - Any text that is read is no longer than the limit and has plain characters only. Memory that
      holds the same bytes up to the first zero byte or the limit gives the same text. -/
theorem written_reads_back (g : FlatGuest) (start : UInt16) :
    (∀ s : String, s.utf8ByteSize < memorySize →
      (∀ limit, (Guest.readText (Guest.store g start (Guest.plainText s)).peek start limit).toList =
        ((Text.utf8 (Text.untilZero s)).take limit).map Text.shownChar) ∧
      (∀ x, MayChange start (Guest.plainText s) x ↔ Guest.Within start (s.utf8ByteSize + 1) x) ∧
      {x | MayChange start (Guest.plainText s) x}.ncard = s.utf8ByteSize + 1) ∧
    (∀ data : List UInt8, data.length ≤ memorySize →
      Guest.readBlock (Guest.store g start data).peek start data.length = data ∧
      ∀ x, ¬ Guest.Within start data.length x → (Guest.store g start data).peek x = g.peek x) ∧
    ∀ limit,
      (Guest.readText g.peek start limit).length ≤ limit ∧
      (∀ c ∈ (Guest.readText g.peek start limit).toList, Text.IsPlainChar c) ∧
      ∀ g' : FlatGuest,
        (∀ i < limit, (∀ j < i, g.peek (start + UInt16.ofNat j) ≠ 0) →
          g.peek (start + UInt16.ofNat i) = g'.peek (start + UInt16.ofNat i)) →
        Guest.readText g.peek start limit = Guest.readText g'.peek start limit := by
  refine ⟨fun s hfit => ?text, fun data hfit => ?block, fun limit => ?reader⟩
  case text =>
    have hlength := Guest.length_plainText s
    have hroom : (Guest.plainText s).length ≤ memorySize := hlength ▸ hfit
    have hchange : ∀ x, MayChange start (Guest.plainText s) x ↔
        Guest.Within start (s.utf8ByteSize + 1) x := fun x => hlength ▸ mayChange_iff hroom x
    refine ⟨fun limit => ?_, hchange, ?_⟩
    · rw [readText_store_plainText g start hfit, Guest.toList_heard]
    · simp only [hchange]
      exact Guest.ncard_within start hfit
  case block =>
    exact ⟨readBlock_store g start data hfit, fun x hx => peek_store_of_not_within hx⟩
  case reader =>
    obtain ⟨hlength, hplain⟩ := Guest.readText_bounds g.peek start limit
    refine ⟨hlength, hplain, fun g' hsame => Guest.readText_congr fun x hx => ?_⟩
    obtain ⟨i, hi, hnonzero, rfl⟩ := hx.exists_eq
    exact hsame i hi hnonzero

/-- Over the top of memory: a text of two characters, a zero character and one more, read by two
    bytes; a block; and a text whose zero byte stands before the byte that two guests differ in. -/
theorem written_reads_back_over_top :
    let g := (filled 0xAA).poke 0xFFFF 0
    let s := "AÉ\x00B"
    let data : List UInt8 := [1, 2, 3]
    (s.utf8ByteSize < memorySize ∧
      (Guest.readText (Guest.store g 0xFFFE (Guest.plainText s)).peek 0xFFFE 2).toList =
        ['A', '?'] ∧
      MayChange 0xFFFE (Guest.plainText s) 3 ∧ ¬ MayChange 0xFFFE (Guest.plainText s) 4) ∧
    (data.length ≤ memorySize ∧
      Guest.readBlock (Guest.store g 0xFFFE data).peek 0xFFFE 3 = data) ∧
    Guest.readText g.peek 0xFFFE 10 = Guest.readText (g.poke 0 0x55).peek 0xFFFE 10 := by
  intro g s data
  have hs : s.utf8ByteSize < memorySize := by decide
  have hdata : data.length ≤ memorySize := by decide
  obtain ⟨htext, hblock, hreader⟩ := written_reads_back g 0xFFFE
  obtain ⟨hread, hchange, -⟩ := htext s hs
  refine ⟨⟨hs, ?_, ?_, ?_⟩, ⟨hdata, (hblock _ hdata).1⟩, ?_⟩
  · exact (hread 2).trans (by decide)
  · exact (hchange 3).mpr (by decide)
  · exact fun hfour => absurd ((hchange 4).mp hfour) (by decide)
  · obtain ⟨-, -, hsame⟩ := hreader 10
    refine hsame _ fun i _ hnonzero => ?_
    -- the reader stops at the second byte, and the guests differ in the third
    have hzero : g.peek 0xFFFF = 0 := (peek_poke _ _ _ _).trans (if_pos rfl)
    have hfirst : i < 2 := by
      by_contra hbehind
      exact hnonzero 1 (by omega) hzero
    have hne : ∀ k < 2, (0xFFFE : UInt16) + UInt16.ofNat k ≠ 0 := by decide
    exact ((peek_poke _ _ _ _).trans (if_neg (hne i hfirst))).symm

end FlatGuest

end HostDrive

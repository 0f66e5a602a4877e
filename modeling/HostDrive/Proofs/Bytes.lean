import HostDrive.Bytes
import Mathlib.Algebra.Group.Nat.Defs

/-!
# Laws of Byte Strings

Little-endian numbers are read back as written, up to the bytes that there was room for. Two fields
of one byte do not get in each other's way, and a splice changes one field of a record and no other.
Byte strings are ordered totally, so they can be keys that entries are sorted by.
-/

namespace HostDrive.Bytes

/-! ## Section 1: Little-endian numbers -/

@[simp] theorem length_ofNat (count n : Nat) : (ofNat count n).length = count := by
  induction count generalizing n with
  | zero => rfl
  | succ count ih => simp [ofNat, ih]

/-- The lowest bytes of a number are the number modulo what they can hold. -/
theorem toNat_ofNat (count n : Nat) : toNat (ofNat count n) = n % 256 ^ count := by
  induction count generalizing n with
  | zero => simp [ofNat, toNat, Nat.mod_one]
  | succ count ih =>
    -- the first byte is the remainder by 256, the others are the quotient
    simp only [ofNat, toNat, ih, UInt8.toNat_ofNat', Nat.pow_succ']
    exact Nat.mod_mul.symm

@[simp] theorem word_low_high (w : UInt16) : word (low w) (high w) = w := by
  have hlt := w.toNat_lt
  apply UInt16.toNat_inj.mp
  simp only [word, low, high, UInt16.toNat_ofNat', UInt8.toNat_ofNat']
  omega

@[simp] theorem low_word (l h : UInt8) : low (word l h) = l := by
  have hl := l.toNat_lt
  apply UInt8.toNat_inj.mp
  simp only [word, low, UInt16.toNat_ofNat', UInt8.toNat_ofNat']
  omega

@[simp] theorem high_word (l h : UInt8) : high (word l h) = h := by
  have hl := l.toNat_lt
  have hh := h.toNat_lt
  apply UInt8.toNat_inj.mp
  simp only [word, high, UInt16.toNat_ofNat', UInt8.toNat_ofNat']
  omega

theorem ofNat_toNat_ofNat (w : UInt16) : UInt16.ofNat (toNat (ofNat 2 w.toNat)) = w := by
  have hlt := w.toNat_lt
  rw [toNat_ofNat, Nat.mod_eq_of_lt (by omega), UInt16.ofNat_toNat]

/-! ## Section 2: Fields of a byte -/

/-- **Fields side by side in a byte**: shifting makes room for the low field, and cuts off what does
    not fit. -/
theorem toNat_shiftLeft_or {k : Nat} (hk : k < 8) (high low : UInt8) (hlow : low.toNat < 2 ^ k) :
    (high <<< UInt8.ofNat k ||| low).toNat = high.toNat % 2 ^ (8 - k) * 2 ^ k + low.toNat := by
  have hshift : (UInt8.ofNat k).toNat % 8 = k := by
    rw [UInt8.toNat_ofNat']
    omega
  have hsplit : 2 ^ 8 = 2 ^ (8 - k) * 2 ^ k := by
    rw [← Nat.pow_add, Nat.sub_add_cancel (Nat.le_of_lt hk)]
  have hhigh : (high <<< UInt8.ofNat k).toNat = (high.toNat % 2 ^ (8 - k)) <<< k := by
    rw [UInt8.toNat_shiftLeft, hshift, Nat.shiftLeft_eq, Nat.shiftLeft_eq, hsplit,
      Nat.mul_mod_mul_right]
  rw [UInt8.toNat_or, hhigh, ← Nat.shiftLeft_add_eq_or_of_lt hlow, Nat.shiftLeft_eq]

theorem eq_shiftLeft_or {k : Nat} (hk : k < 8) {b high low : UInt8} (hlow : low.toNat < 2 ^ k)
    (h : b.toNat = high.toNat % 2 ^ (8 - k) * 2 ^ k + low.toNat) :
    b = high <<< UInt8.ofNat k ||| low :=
  UInt8.toNat_inj.mp (h.trans (toNat_shiftLeft_or hk high low hlow).symm)

/-! ## Section 3: Fields and splices -/

theorem getElem?_field (start length i : Nat) (record : List UInt8) :
    (field start length record)[i]? = if i < length then record[start + i]? else none := by
  simp [field, List.getElem?_take]

/-- The bytes of a record after a splice, one by one. -/
theorem getElem?_splice (start : Nat) (patch record : List UInt8)
    (hfit : start + patch.length ≤ record.length) (i : Nat) :
    (splice start patch record)[i]? =
      if start ≤ i ∧ i < start + patch.length then patch[i - start]? else record[i]? := by
  have htake : (record.take start).length = start := by
    rw [List.length_take]
    omega
  unfold splice
  rw [List.append_assoc]
  -- the splice has three parts: what stands before the patch, the patch, and what stands behind
  by_cases hlow : i < start
  · rw [List.getElem?_append_left (by omega), List.getElem?_take, if_pos hlow, if_neg (by omega)]
  · rw [List.getElem?_append_right (by omega), htake]
    by_cases hmid : i < start + patch.length
    · rw [List.getElem?_append_left (by omega), if_pos (by omega)]
    · rw [List.getElem?_append_right (by omega), List.getElem?_drop, if_neg (by omega)]
      congr 1
      omega

theorem length_splice (start : Nat) (patch record : List UInt8)
    (hfit : start + patch.length ≤ record.length) :
    (splice start patch record).length = record.length := by
  simp only [splice, List.length_append, List.length_take, List.length_drop]
  omega

/-- A splice puts the patch in its place. -/
theorem field_splice_self (start : Nat) (patch record : List UInt8)
    (hfit : start + patch.length ≤ record.length) :
    field start patch.length (splice start patch record) = patch := by
  apply List.ext_getElem?
  intro i
  rw [getElem?_field]
  by_cases hi : i < patch.length
  · rw [if_pos hi, getElem?_splice start patch record hfit, if_pos (by omega),
      Nat.add_sub_cancel_left]
  · rw [if_neg hi, List.getElem?_eq_none (Nat.le_of_not_lt hi)]

/-- A splice leaves every field alone that lies before or behind it. -/
theorem field_splice_of_disjoint (start place length : Nat) (patch record : List UInt8)
    (hfit : place + patch.length ≤ record.length)
    (hapart : start + length ≤ place ∨ place + patch.length ≤ start) :
    field start length (splice place patch record) = field start length record := by
  apply List.ext_getElem?
  intro i
  rw [getElem?_field, getElem?_field]
  by_cases hi : i < length
  · rw [if_pos hi, if_pos hi, getElem?_splice place patch record hfit, if_neg (by omega)]
  · rw [if_neg hi, if_neg hi]

/-! ## Section 4: Keys -/

section Keys

variable {α : Type} (key : α → List UInt8)

theorem decide_le_trans (a b c : α) (hab : decide (key a ≤ key b) = true)
    (hbc : decide (key b ≤ key c) = true) : decide (key a ≤ key c) = true := by
  rw [decide_eq_true_eq] at *
  exact List.le_trans hab hbc

theorem decide_le_total (a b : α) : (decide (key a ≤ key b) || decide (key b ≤ key a)) = true := by
  simpa using List.le_total (key a) (key b)

end Keys

end HostDrive.Bytes

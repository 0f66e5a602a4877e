import HostDrive.InfoBlock
import HostDrive.Proofs.Bytes
import HostDrive.Proofs.ShortName
import HostDrive.Proofs.Timestamp
import Mathlib.Data.List.TakeWhile

/-!
# The Codec of Information Blocks

Each getter of a block decodes one field, each setter patches one field, and no two fields overlap.
So what a series of setters leaves is settled by a table of offsets and widths, once for all pairs.

## Architecture

- `Field` names the six fields; `bytesOf` is what a block holds in one.
- `Patch` is new bytes for a field. `bytesOf_patch`: it shows in its field and in no other.
- `get_patchAll`: after a series of patches a getter decodes the last one of its field.
- `record_fill` and `record_present`: what was written of an entry is what the guest reads.
- `getElem?_present`: bytes outside the fields of the entry and its position stay as they were.
-/

namespace HostDrive

/-- What the guest reads of an entry: the name in upper case, no size for a directory, the attribute
    bits that it may see, and the normalised time. -/
def Entry.shown (e : Entry) : Record where
  name := Text.upper e.name
  size := if e.isDirectory then 0 else e.size
  attributes := e.attributes &&& Attribute.visible
  modified := e.modified.normalised

/-- The last value that a list of items gives, if any item gives one. -/
def lastGiven {ι α : Type} (given : ι → Option α) (items : List ι) : Option α :=
  (items.filterMap given).getLast?

theorem lastGiven_cons {ι α : Type} (given : ι → Option α) (item : ι) (items : List ι) :
    lastGiven given (item :: items) = (lastGiven given items).or (given item) := by
  cases h : given item with
  | none => simp [lastGiven, h]
  | some value =>
    cases hlast : (items.filterMap given).getLast? <;>
      simp [lastGiven, List.getLast?_cons, h, hlast]

/-- **The last write wins.** If every step shows the value that its item gives and keeps the old one
    otherwise, a run shows the last value that was given. -/
theorem foldl_shows_last {σ ι α : Type} {step : σ → ι → σ} {given : ι → Option α}
    (Inv : σ → Prop) (get : σ → α) (hinv : ∀ s i, Inv s → Inv (step s i))
    (hstep : ∀ s i, Inv s → get (step s i) = (given i).getD (get s)) (items : List ι) {s : σ}
    (hs : Inv s) : get (items.foldl step s) = (lastGiven given items).getD (get s) := by
  induction items generalizing s with
  | nil => rfl
  | cons item items ih =>
    rw [List.foldl_cons, ih (hinv s item hs), hstep s item hs, lastGiven_cons]
    cases lastGiven given items <;> rfl

namespace InfoBlock

/-! ## Section 1: The table of fields -/

/-- The fields that the driver owns. -/
inductive Field where
  | name | attributes | stamp | size | index | serial
  deriving DecidableEq

namespace Field

/-- Where a field starts. -/
def offset : Field → Nat
  | name => nameAt
  | attributes => attributesAt
  | stamp => stampAt
  | size => sizeAt
  | index => indexAt
  | serial => serialAt

/-- How many bytes a field has. -/
def width : Field → Nat
  | name => nameLength
  | attributes => 1
  | stamp => 4
  | size => 4
  | index => 2
  | serial => 2

theorem offset_add_width_le (f : Field) : f.offset + f.width ≤ InfoBlock.length := by
  cases f <;> decide

/-- An offset that is part of a field. -/
def Has (f : Field) (i : Nat) : Prop := f.offset ≤ i ∧ i < f.offset + f.width

/-- No two fields share a byte. -/
theorem apart {f g : Field} (hne : f ≠ g) :
    f.offset + f.width ≤ g.offset ∨ g.offset + g.width ≤ f.offset := by
  cases f <;> cases g <;> first | exact absurd rfl hne | decide

end Field

/-- What a block holds in a field. -/
def bytesOf (b : InfoBlock) (f : Field) : List UInt8 := Bytes.field f.offset f.width b.bytes

/-- The block has all its bytes. -/
def IsFull (b : InfoBlock) : Prop := InfoBlock.length ≤ b.bytes.length

/-! ## Section 2: Patches -/

/-- New bytes for a field, as many as the field has. -/
structure Patch where
  field : Field
  bytes : List UInt8
  fits : bytes.length = field.width

/-- The bytes that a patch has for a field. -/
def Patch.bytesFor (f : Field) (p : Patch) : Option (List UInt8) :=
  if p.field = f then some p.bytes else none

def patch (b : InfoBlock) (p : Patch) : InfoBlock := b.put p.field.offset p.bytes

/-- The block after a series of patches. -/
def patchAll (b : InfoBlock) (ps : List Patch) : InfoBlock := ps.foldl patch b

theorem IsFull.fits {b : InfoBlock} (hfull : b.IsFull) (p : Patch) :
    p.field.offset + p.bytes.length ≤ b.bytes.length := by
  rw [p.fits]
  exact Nat.le_trans p.field.offset_add_width_le hfull

theorem length_patch {b : InfoBlock} (hfull : b.IsFull) (p : Patch) :
    (b.patch p).bytes.length = b.bytes.length :=
  Bytes.length_splice _ _ _ (hfull.fits p)

theorem IsFull.patch {b : InfoBlock} (hfull : b.IsFull) (p : Patch) : (b.patch p).IsFull := by
  rw [IsFull, length_patch hfull p]
  exact hfull

/-- **Patches are independent.** Replacing a field shows in that field and in no other. -/
theorem bytesOf_patch {b : InfoBlock} (hfull : b.IsFull) (p : Patch) (f : Field) :
    (b.patch p).bytesOf f = (p.bytesFor f).getD (b.bytesOf f) := by
  by_cases hf : p.field = f
  · -- the patch has the width of the field, so nothing of the old bytes is left
    subst hf
    rw [Patch.bytesFor, if_pos rfl, bytesOf, ← p.fits]
    exact Bytes.field_splice_self _ _ _ (hfull.fits p)
  · rw [Patch.bytesFor, if_neg hf]
    refine Bytes.field_splice_of_disjoint _ _ _ _ _ (hfull.fits p) ?_
    rw [p.fits]
    exact Field.apart (Ne.symm hf)

theorem getElem?_patch {b : InfoBlock} (hfull : b.IsFull) {p : Patch} {i : Nat}
    (hi : ¬ p.field.Has i) : (b.patch p).bytes[i]? = b.bytes[i]? := by
  rw [patch, put, Bytes.getElem?_splice _ _ _ (hfull.fits p), p.fits]
  exact if_neg hi

theorem length_patchAll {b : InfoBlock} (hfull : b.IsFull) (ps : List Patch) :
    (b.patchAll ps).bytes.length = b.bytes.length := by
  induction ps generalizing b with
  | nil => rfl
  | cons p ps ih => exact (ih (hfull.patch p)).trans (length_patch hfull p)

theorem IsFull.patchAll {b : InfoBlock} (hfull : b.IsFull) (ps : List Patch) :
    (b.patchAll ps).IsFull := by
  rw [IsFull, length_patchAll hfull ps]
  exact hfull

/-- A series of patches leaves every byte alone that is in none of their fields. -/
theorem getElem?_patchAll {b : InfoBlock} (hfull : b.IsFull) {ps : List Patch} {i : Nat}
    (hi : ∀ p ∈ ps, ¬ p.field.Has i) : (b.patchAll ps).bytes[i]? = b.bytes[i]? := by
  induction ps generalizing b with
  | nil => rfl
  | cons p ps ih =>
    have hrest := ih (hfull.patch p) fun q hq => hi q (List.mem_cons_of_mem p hq)
    exact hrest.trans (getElem?_patch hfull (hi p List.mem_cons_self))

/-! ## Section 3: Getters -/

/-- What the bytes of a field mean. -/
abbrev Field.Value : Field → Type
  | name => String
  | attributes => UInt8
  | stamp => Timestamp
  | size => UInt32
  | index | serial => UInt16

def Field.decode : (f : Field) → List UInt8 → f.Value
  | name, bytes => Text.latin1 (bytes.takeWhile (· != 0))
  | attributes, bytes => bytes.getD 0 0
  | stamp, bytes => (PackedStamp.ofBytes bytes).unpack
  | size, bytes => UInt32.ofNat (Bytes.toNat bytes)
  | index, bytes | serial, bytes => UInt16.ofNat (Bytes.toNat bytes)

/-- The getter of a field. -/
def get (b : InfoBlock) (f : Field) : f.Value := f.decode (b.bytesOf f)

/-- The value that a patch has for a field. -/
def Patch.valueFor (f : Field) (p : Patch) : Option f.Value := (p.bytesFor f).map f.decode

theorem get_name (b : InfoBlock) : b.get .name = b.name := rfl

theorem get_attributes (b : InfoBlock) : b.get .attributes = b.attributes := by
  simp [get, Field.decode, attributes, bytesOf, Bytes.getElem?_field, Field.offset, Field.width,
    List.getD_eq_getElem?_getD]

theorem get_stamp (b : InfoBlock) : b.get .stamp = b.modified := rfl

theorem get_size (b : InfoBlock) : b.get .size = b.size := rfl

theorem get_index (b : InfoBlock) : b.get .index = b.index := rfl

theorem get_serial (b : InfoBlock) : b.get .serial = b.serial := rfl

theorem record_eq (b : InfoBlock) :
    b.record = ⟨b.get .name, b.get .size, b.get .attributes, b.get .stamp⟩ := by
  rw [get_name, get_size, get_attributes, get_stamp, record]

theorem index_eq (b : InfoBlock) :
    b.index = UInt16.ofNat (Bytes.toNat (b.bytesOf .index)) := rfl

theorem serial_eq (b : InfoBlock) :
    b.serial = UInt16.ofNat (Bytes.toNat (b.bytesOf .serial)) := rfl

theorem get_patch {b : InfoBlock} (hfull : b.IsFull) (p : Patch) (f : Field) :
    (b.patch p).get f = (p.valueFor f).getD (b.get f) := by
  rw [get, bytesOf_patch hfull, Patch.valueFor]
  cases p.bytesFor f <;> rfl

theorem get_patch_of_ne {b : InfoBlock} (hfull : b.IsFull) {p : Patch} {f : Field}
    (hne : p.field ≠ f) : (b.patch p).get f = b.get f := by
  rw [get_patch hfull, Patch.valueFor, Patch.bytesFor, if_neg hne]
  rfl

/-- **A getter decodes the last patch of its field**, and the old bytes if there is none. -/
theorem get_patchAll {b : InfoBlock} (hfull : b.IsFull) (ps : List Patch) (f : Field) :
    (b.patchAll ps).get f = (lastGiven (Patch.valueFor f) ps).getD (b.get f) :=
  foldl_shows_last IsFull (fun b => b.get f)
    (fun _ p hfull => hfull.patch p) (fun _ p hfull => get_patch hfull p f) ps hfull

/-! ## Section 4: Setters -/

@[simp] theorem length_nameField (s : String) : (nameField s).length = Field.name.width := by
  simp only [nameField, List.length_append, List.length_replicate, List.length_take, Field.width,
    nameLength]
  omega

/-- The bytes of the size field for a record. -/
def sizeBytes (r : Record) : List UInt8 :=
  Bytes.ofNat 4
    (if Attribute.has r.attributes Attribute.directory then 0 else r.size : UInt32).toNat

namespace Patch

def name (s : String) : Patch := ⟨.name, nameField s, length_nameField s⟩

def attributes (a : UInt8) : Patch := ⟨.attributes, [a &&& Attribute.visible], rfl⟩

def stamp (t : Timestamp) : Patch := ⟨.stamp, t.pack.bytes, rfl⟩

def size (n : UInt32) : Patch := ⟨.size, Bytes.ofNat 4 n.toNat, Bytes.length_ofNat 4 _⟩

def index (w : UInt16) : Patch := ⟨.index, Bytes.ofNat 2 w.toNat, Bytes.length_ofNat 2 _⟩

def serial (w : UInt16) : Patch := ⟨.serial, Bytes.ofNat 2 w.toNat, Bytes.length_ofNat 2 _⟩

/-- The patches for a record, in the order in which they are made. -/
def record (r : Record) : List Patch :=
  [name r.name, attributes r.attributes, stamp r.modified,
    ⟨.size, sizeBytes r, Bytes.length_ofNat 4 _⟩]

end Patch

/-- Filling a block is four setters, one after the other. -/
theorem fill_eq (b : InfoBlock) (r : Record) : b.fill r = b.patchAll (Patch.record r) := rfl

/-- What the name field shows of a name: its first twelve bytes in upper case, up to a zero byte,
    read as Latin-1. -/
def shownName (s : String) : String :=
  Text.latin1 (((Text.upperBytes s).take 12).takeWhile (· != 0))

/-- The padding ends the name, however long it is. -/
theorem decode_nameField (s : String) : Field.name.decode (nameField s) = shownName s := by
  rw [Field.decode, nameField, shownName, List.takeWhile_append]
  split
  case isTrue hall =>
    -- no zero byte in the name, so the reader stops at the first byte of the padding
    have hname := (List.takeWhile_prefix _).eq_of_length hall
    rw [List.takeWhile_replicate_eq_filter, List.filter_eq_nil_iff.mpr (by simp), List.append_nil]
    exact congrArg Text.latin1 hname.symm
  case isFalse => rfl

theorem decode_stamp (t : Timestamp) : Field.stamp.decode t.pack.bytes = t.normalised := by
  rw [Field.decode, PackedStamp.ofBytes_bytes, Timestamp.unpack_pack]

theorem decode_size (n : UInt32) : Field.size.decode (Bytes.ofNat 4 n.toNat) = n := by
  have hlt : n.toNat < 256 ^ 4 := n.toNat_lt
  rw [Field.decode, Bytes.toNat_ofNat, Nat.mod_eq_of_lt hlt, UInt32.ofNat_toNat]

/-- A legal name is shown in full. -/
theorem shownName_of_isLegal {s : String} (hlegal : ShortName.isLegal s = true) :
    shownName s = Text.upper s := by
  obtain ⟨hlen, hplain⟩ := ShortName.isLegal_bounds hlegal
  have hshort : (Text.upperBytes s).length ≤ 12 := by
    simpa [Text.upperBytes, Text.utf8_of_plain s hplain] using hlen
  have hnonzero : ∀ b ∈ Text.upperBytes s, (b != 0) = true := by
    intro b hb
    simpa using Text.ne_zero_of_mem_upperBytes hplain b hb
  rw [shownName, List.take_of_length_le hshort, List.takeWhile_eq_self_iff.mpr hnonzero,
    Text.latin1_upperBytes s hplain]

/-! ## Section 5: Presenting an entry -/

/-- The guest sees whether an entry is a directory. -/
theorem has_visible (a : UInt8) :
    Attribute.has (a &&& Attribute.visible) Attribute.directory =
      Attribute.has a Attribute.directory := by
  simp only [Attribute.has, UInt8.and_assoc]
  rfl

/-- The time needs no legal name to be read back. -/
theorem modified_fill {b : InfoBlock} (hfull : b.IsFull) (r : Record) :
    (b.fill r).modified = r.modified.normalised := by
  rw [← get_stamp, fill_eq, get_patchAll hfull]
  exact decode_stamp r.modified

/-- **What was written is what the guest reads.** A block that was filled with an entry of a legal
    name decodes to that entry: full name in upper case, size, visible attributes and normalised
    time. -/
theorem record_fill {b : InfoBlock} (hfull : b.IsFull) {e : Entry}
    (hlegal : ShortName.isLegal e.name = true) : (b.fill e.record).record = e.shown := by
  have hget := get_patchAll hfull (Patch.record e.record)
  have hname : (b.fill e.record).get .name = Text.upper e.name :=
    (hget .name).trans ((decode_nameField e.name).trans (shownName_of_isLegal hlegal))
  have hsize : (b.fill e.record).get .size = if e.isDirectory then 0 else e.size := by
    refine (hget .size).trans ((decode_size _).trans ?_)
    -- the record of a directory has no size already
    simp only [Entry.record, has_visible]
    by_cases hdir : e.isDirectory = true
    · rw [if_pos hdir]
      exact ite_self _
    · rw [if_neg hdir]
      exact if_neg hdir
  have hattributes : (b.fill e.record).get .attributes = e.attributes &&& Attribute.visible := by
    refine (hget .attributes).trans ?_
    show e.attributes &&& Attribute.visible &&& Attribute.visible = _
    rw [UInt8.and_assoc, UInt8.and_self]
  rw [record_eq, hname, hsize, hattributes, get_stamp, modified_fill hfull, Entry.record,
    Entry.shown]

/-- The block that hands an entry over: filled with its record, at a position of the search. -/
def present (b : InfoBlock) (e : Entry) (index : UInt16) : InfoBlock :=
  (b.fill e.record).setIndex index

theorem present_eq (b : InfoBlock) (e : Entry) (index : UInt16) :
    b.present e index = (b.patchAll (Patch.record e.record)).patch (.index index) := rfl

theorem length_present {b : InfoBlock} (hfull : b.IsFull) (e : Entry) (index : UInt16) :
    (b.present e index).bytes.length = b.bytes.length := by
  rw [present_eq, length_patch (hfull.patchAll _), length_patchAll hfull]

/-- The position is written last. -/
theorem index_present {b : InfoBlock} (hfull : b.IsFull) (e : Entry) (index : UInt16) :
    (b.present e index).index = index := by
  rw [← get_index, present_eq, get_patch (hfull.patchAll _)]
  exact Bytes.ofNat_toNat_ofNat index

/-- The position touches no other field. -/
theorem get_present_of_ne {b : InfoBlock} (hfull : b.IsFull) (e : Entry) (index : UInt16)
    {f : Field} (hne : f ≠ .index) : (b.present e index).get f = (b.fill e.record).get f := by
  rw [present_eq, fill_eq]
  exact get_patch_of_ne (hfull.patchAll _) hne.symm

theorem serial_present {b : InfoBlock} (hfull : b.IsFull) (e : Entry) (index : UInt16) :
    (b.present e index).serial = b.serial := by
  rw [← get_serial, get_present_of_ne hfull e index (by decide), fill_eq, get_patchAll hfull]
  rfl

theorem record_present {b : InfoBlock} (hfull : b.IsFull) {e : Entry}
    (hlegal : ShortName.isLegal e.name = true) (index : UInt16) :
    (b.present e index).record = e.shown := by
  have hget : ∀ f, f ≠ .index → (b.present e index).get f = (b.fill e.record).get f :=
    fun f => get_present_of_ne hfull e index
  rw [← record_fill hfull hlegal, record_eq, record_eq, hget .name (by decide),
    hget .size (by decide), hget .attributes (by decide), hget .stamp (by decide)]

/-! ## Section 6: What presenting an entry leaves alone -/

/-- **Presenting an entry leaves every other byte alone**, also the serial number. -/
theorem getElem?_present {b : InfoBlock} (hfull : b.IsFull) (e : Entry) (index : UInt16) {i : Nat}
    (hi : ∀ f, f ≠ .serial → ¬ Field.Has f i) :
    (b.present e index).bytes[i]? = b.bytes[i]? := by
  have hfields : ∀ p ∈ Patch.record e.record, p.field ≠ .serial := by
    simp [Patch.record, Patch.name, Patch.attributes, Patch.stamp]
  rw [present_eq, getElem?_patch (hfull.patchAll _) (hi .index nofun)]
  exact getElem?_patchAll hfull fun p hp => hi p.field (hfields p hp)

/-- The offsets at which an entry is handed over, as numbers. -/
theorem Field.has_range {f : Field} {i : Nat} (hf : f ≠ .serial) (h : f.Has i) :
    (1 ≤ i ∧ i ≤ 18) ∨ (21 ≤ i ∧ i ≤ 24) ∨ (26 ≤ i ∧ i ≤ 27) := by
  cases f with
  | serial => exact absurd rfl hf
  | _ =>
    simp only [Has, offset, width, nameAt, nameLength, attributesAt, stampAt, sizeAt, indexAt] at h
    omega

end InfoBlock

end HostDrive

import HostDrive.Proofs.InfoBlock

/-!
# Series of Edits of a Block

A block is edited by its seven setters, in any order and as often as one likes. What it shows
afterwards does not depend on the order across fields: each field shows what was last given to it,
as its setter normalises it, and no byte outside the fields changes.

## Architecture

- `Edit` is one call of a setter, `edited` the block after a series of them.
- `Edit.given` is what an edit gives to a field, said without bytes.
- `edit_eq`: an edit is a series of patches, so `get_edit` is the step of one edit.
- `get_edited`, by induction over the series: the last value given is shown.
-/

namespace HostDrive.InfoBlock

/-! ## Section 1: Edits and what they give -/

/-- One call of a setter. -/
inductive Edit where
  | name (s : String)
  | attributes (a : UInt8)
  | modified (t : Timestamp)
  | size (n : UInt32)
  | serial (w : UInt16)
  | index (w : UInt16)
  | fill (r : Record)

def edit (b : InfoBlock) : Edit → InfoBlock
  | .name s => b.setName s
  | .attributes a => b.setAttributes a
  | .modified t => b.setModified t
  | .size n => b.setSize n
  | .serial w => b.setSerial w
  | .index w => b.setIndex w
  | .fill r => b.fill r

/-- The block after a series of edits, the first one first. -/
def edited (b : InfoBlock) (es : List Edit) : InfoBlock := es.foldl edit b

/-- What an edit gives to a field, as the getter of the field will show it. -/
def Edit.given : (f : Field) → Edit → Option f.Value
  | .name, .name s => some (shownName s)
  | .name, .fill r => some (shownName r.name)
  | .attributes, .attributes a => some (a &&& Attribute.visible)
  | .attributes, .fill r => some (r.attributes &&& Attribute.visible)
  | .stamp, .modified t => some t.normalised
  | .stamp, .fill r => some r.modified.normalised
  | .size, .size n => some n
  | .size, .fill r => some (if Attribute.has r.attributes Attribute.directory then 0 else r.size)
  | .serial, .serial w => some w
  | .index, .index w => some w
  | _, _ => none

/-- A block after a series of edits: every getter shows what was last given to its field, or the old
    value if nothing was, and the bytes outside the fields are the old ones. -/
structure ShowsLast (b : InfoBlock) (es : List Edit) : Prop where
  name : (b.edited es).name = (lastGiven (Edit.given .name) es).getD b.name
  attributes : (b.edited es).attributes = (lastGiven (Edit.given .attributes) es).getD b.attributes
  modified : (b.edited es).modified = (lastGiven (Edit.given .stamp) es).getD b.modified
  size : (b.edited es).size = (lastGiven (Edit.given .size) es).getD b.size
  serial : (b.edited es).serial = (lastGiven (Edit.given .serial) es).getD b.serial
  index : (b.edited es).index = (lastGiven (Edit.given .index) es).getD b.index
  length : (b.edited es).bytes.length = b.bytes.length
  kept : ∀ i, i = 0 ∨ i = 19 ∨ i = 20 ∨ i = 25 ∨ 30 ≤ i →
    (b.edited es).bytes[i]? = b.bytes[i]?

/-! ## Section 2: One edit -/

/-- The patches that an edit makes. -/
def Edit.patches : Edit → List Patch
  | name s => [.name s]
  | attributes a => [.attributes a]
  | modified t => [.stamp t]
  | size n => [.size n]
  | serial w => [.serial w]
  | index w => [.index w]
  | fill r => Patch.record r

theorem edit_eq (b : InfoBlock) (e : Edit) : b.edit e = b.patchAll e.patches := by
  cases e <;> rfl

/-- What an edit gives is what its last patch of the field decodes to. -/
theorem Edit.given_eq (e : Edit) (f : Field) :
    e.given f = lastGiven (Patch.valueFor f) e.patches := by
  -- a setter makes one patch, and only filling a block makes several
  cases e with
  | name s => cases f with
    | name => exact congrArg some (decode_nameField s).symm
    | _ => rfl
  | attributes a => cases f <;> rfl
  | modified t => cases f with
    | stamp => exact congrArg some (decode_stamp t).symm
    | _ => rfl
  | size n => cases f with
    | size => exact congrArg some (decode_size n).symm
    | _ => rfl
  | serial w => cases f with
    | serial => exact congrArg some (Bytes.ofNat_toNat_ofNat w).symm
    | _ => rfl
  | index w => cases f with
    | index => exact congrArg some (Bytes.ofNat_toNat_ofNat w).symm
    | _ => rfl
  | fill r => cases f with
    | name => exact congrArg some (decode_nameField r.name).symm
    | stamp => exact congrArg some (decode_stamp r.modified).symm
    | size => exact congrArg some (decode_size _).symm
    | _ => rfl

theorem IsFull.edit {b : InfoBlock} (hfull : b.IsFull) (e : Edit) : (b.edit e).IsFull := by
  rw [edit_eq]
  exact hfull.patchAll e.patches

/-- **One edit** shows in the fields that it gives a value to, and in no other. -/
theorem get_edit {b : InfoBlock} (hfull : b.IsFull) (e : Edit) (f : Field) :
    (b.edit e).get f = (e.given f).getD (b.get f) := by
  rw [edit_eq, get_patchAll hfull, e.given_eq]

/-- The offsets of no field, as numbers. -/
theorem Field.not_has {i : Nat} (hi : i = 0 ∨ i = 19 ∨ i = 20 ∨ i = 25 ∨ 30 ≤ i) (f : Field) :
    ¬ f.Has i := by
  cases f <;>
    simp only [Has, offset, width, nameAt, nameLength, attributesAt, stampAt, sizeAt, indexAt,
      serialAt] <;>
    omega

/-! ## Section 3: A series of edits -/

theorem get_edited {b : InfoBlock} (hfull : b.IsFull) (es : List Edit) (f : Field) :
    (b.edited es).get f = (lastGiven (Edit.given f) es).getD (b.get f) :=
  foldl_shows_last IsFull (fun b => b.get f)
    (fun _ e hfull => hfull.edit e) (fun _ e hfull => get_edit hfull e f) es hfull

theorem edited_eq (b : InfoBlock) (es : List Edit) :
    b.edited es = b.patchAll (es.flatMap Edit.patches) := by
  rw [edited, patchAll, List.foldl_flatMap]
  congr 1
  funext b e
  exact edit_eq b e

/-- **The codec of a block.** After any series of edits every getter shows the normalised value last
    given to its field, and all other bytes are the old ones. In particular a block that was filled
    with an entry of a legal name decodes to the entry. -/
theorem edits_show_last {b : InfoBlock} (hfull : b.IsFull) :
    (∀ es, b.ShowsLast es) ∧
    ∀ e : Entry, ShortName.isLegal e.name = true → (b.fill e.record).record = e.shown := by
  refine ⟨fun es => ?_, fun e => record_fill hfull⟩
  have hget := get_edited hfull es
  exact {
    name := by simpa only [get_name] using hget .name
    attributes := by simpa only [get_attributes] using hget .attributes
    modified := by simpa only [get_stamp] using hget .stamp
    size := by simpa only [get_size] using hget .size
    serial := by simpa only [get_serial] using hget .serial
    index := by simpa only [get_index] using hget .index
    length := by rw [edited_eq, length_patchAll hfull]
    kept := fun i hi => by
      -- whatever the edits patch, it is fields, and the byte is in none
      rw [edited_eq]
      exact getElem?_patchAll hfull fun p _ => Field.not_has hi p.field }

/-- Seventy nonzero bytes. A short name, for a directory with a size, is written over a name of
    twelve bytes. -/
theorem edits_show_last_overwritten :
    let b : InfoBlock := ⟨List.replicate 70 0xFF⟩
    let es : List Edit := [.name "LONGNAME.EXT", .serial 0x0102, .size 5,
      .fill ⟨"äb", 4096, 0x90, {}⟩, .index 7]
    let e : Entry := .file "hello.com" 5 {}
    b.IsFull ∧ ShortName.isLegal e.name = true ∧
    (b.edited es).record = ⟨"Ã¤B", 0, 0x10, { year := 1980 }⟩ ∧
    (b.edited es).serial = 0x0102 ∧ (b.edited es).index = 7 ∧
    (b.edited es).bytes[69]? = some 0xFF ∧ (b.fill e.record).record = e.shown := by
  intro b es e
  have hfull : b.IsFull := (by decide : 64 ≤ 70)
  have hlegal : ShortName.isLegal e.name = true := by decide
  obtain ⟨hedits, hfill⟩ := edits_show_last hfull
  have h := hedits es
  -- no byte is written here, the last values given are looked up
  have hrecord : (b.edited es).record = ⟨"Ã¤B", 0, 0x10, { year := 1980 }⟩ := by
    rw [record, h.name, h.size, h.attributes, h.modified]
    decide
  exact ⟨hfull, hlegal, hrecord, h.serial.trans (by decide), h.index.trans (by decide),
    h.kept 69 (by decide), hfill e hlegal⟩

end HostDrive.InfoBlock

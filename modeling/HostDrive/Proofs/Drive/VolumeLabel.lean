import HostDrive.Drive.Mount
import HostDrive.Proofs.Drive.Outcome
import HostDrive.Proofs.Guest.Text

/-!
# The Volume Label

Settings that pass their check have a label of one to eleven ASCII characters, and a guest has room
for any of these. The check does not look for the one ASCII character that ends a text in the
guest's memory: of a label with a zero character a guest sees what stands before it.

## Architecture

- `Settings.label_bounds` is what the check of the settings says about their label, and
  `Drive.mount_of_validate` the drive that is made from them.
- `ToldLabel` collects what a guest gets that asks for the label; `Drive.told_label` is the call.
- `volume_label_told` takes a drive from its settings through any history of calls.
-/

namespace HostDrive

/-! ## Section 1: Labels that pass the check -/

namespace Settings

/-- What the check of the settings says about their label. -/
theorem label_bounds {s : Settings} (h : s.validate = .ok ()) :
    s.label ≠ "" ∧ s.label.length ≤ 11 ∧ ∀ c ∈ s.label.toList, c.toNat < 128 := by
  have hlegal : isLegalLabel s.label = true := by
    unfold validate at h
    split at h
    · cases h
    · rename_i hnot
      simpa using hnot
  simp only [isLegalLabel, Bool.and_eq_true, Bool.not_eq_true', Text.isAscii, List.all_eq_true,
    decide_eq_true_eq] at hlegal
  obtain ⟨⟨hempty, hsize⟩, hascii⟩ := hlegal
  refine ⟨fun heq => ?_, ?_, hascii⟩
  · rw [heq] at hempty
    exact absurd hempty (by decide)
  · rw [← Text.length_utf8] at hsize
    exact Nat.le_trans (Text.length_utf8_bounds s.label).1 hsize

end Settings

/-- Settings that pass their check are mounted, if the directory that they name is there. -/
theorem Drive.mount_of_validate {s : Settings} {host : Host} {around : Surroundings}
    (hvalid : s.validate = .ok ()) (hbase : host.isDirectory (s.basePath around) = true) :
    mount host around s = .ok (new (s.basePath around) s.label) := by
  simp only [mount, hvalid, hbase, if_true]

/-! ## Section 2: Asking for the label -/

/-- **A call that tells a label** to its guest: it succeeds, changes no byte but twelve from `DE` on,
    and the guest reads the label there up to its first zero character. -/
structure ToldLabel (label : String) (d : Drive) (v : Visit FlatGuest) : Prop where
  status : (d.visit v).2.1 = .ok
  kept : ∀ x, ¬ Guest.Within v.guest.registers.de 12 x →
    (d.visit v).2.2.peek x = v.guest.peek x
  read : ∀ limit, 11 ≤ limit →
    Guest.readText (d.visit v).2.2.peek v.guest.registers.de limit = Text.untilZero label

theorem Drive.told_label {d : Drive} {v : Visit FlatGuest} {label : String}
    (hentry : v.entry = .getVolume) (hlabel : d.label = label) (hlength : label.length ≤ 11)
    (hascii : ∀ c ∈ label.toList, c.toNat < 128) : ToldLabel label d v := by
  subst hlabel
  have hbytes := Guest.length_plainText_of_ascii hascii
  have hfit : (Guest.plainText d.label).length ≤ 12 := by omega
  refine ⟨?_, fun x hx => ?_, fun limit hlimit => ?_⟩ <;> rw [visit_getVolume hentry]
  · rw [FlatGuest.peek_deliver]
    exact FlatGuest.peek_store_of_not_within fun hin => hx (Nat.lt_of_lt_of_le hin hfit)
  · rw [FlatGuest.peek_deliver]
    refine Guest.readText_of_holds_ascii hascii (Nat.le_trans hlength hlimit) ?_
    exact FlatGuest.readBlock_store _ _ _ (Nat.le_trans hfit (by decide))

/-- **The label that a guest is told.** Settings that pass their check, with a directory that is
    there, are mounted. Whatever calls the drive has served since, a guest that asks for the label
    reads it up to its first zero character: the label of the settings, which is not empty, exactly
    if there is no zero character in it. -/
theorem volume_label_told {s : Settings} {host : Host} {around : Surroundings}
    (hvalid : s.validate = .ok ()) (hbase : host.isDirectory (s.basePath around) = true) :
    s.label ≠ "" ∧ (Text.untilZero s.label = s.label ↔ '\x00' ∉ s.label.toList) ∧
    ∃ d, Drive.mount host around s = .ok d ∧
      ∀ (γ : Type) [Guest γ] (history : List (Visit γ)) (v : Visit FlatGuest),
        v.entry = .getVolume → ToldLabel s.label (d.after history) v := by
  obtain ⟨hne, hlength, hascii⟩ := Settings.label_bounds hvalid
  refine ⟨hne, Text.untilZero_eq_iff, _, Drive.mount_of_validate hvalid hbase, ?_⟩
  intro γ _ history v hentry
  exact Drive.told_label hentry (Drive.label_after _ history) hlength hascii

/-- A label of eleven characters, asked for with a buffer that runs over the top of memory. -/
theorem volume_label_told_at_top :
    let s : Settings := { directory := "/d", label := "ELEVEN-CHAR" }
    let around : Surroundings := ⟨"/home", "", ⟨"/"⟩⟩
    let host : Host := ⟨fun _ => true, fun path => .error (.noDirectory path)⟩
    let guest : FlatGuest := { FlatGuest.filled 0xFF with registers := { de := 0xFFFA } }
    let v : Visit FlatGuest := ⟨host, .getVolume, guest⟩
    s.validate = .ok () ∧ host.isDirectory (s.basePath around) = true ∧
    ∃ d, Drive.mount host around s = .ok d ∧
      Guest.readText (d.visit v).2.2.peek 0xFFFA 11 = "ELEVEN-CHAR" := by
  intro s around host guest v
  have hvalid : s.validate = .ok () := by decide
  have hbase : host.isDirectory (s.basePath around) = true := rfl
  obtain ⟨-, hwhole, d, hmount, htold⟩ := volume_label_told hvalid hbase
  have hread := (htold FlatGuest [] v rfl).read 11 (Nat.le_refl 11)
  rw [hwhole.mpr (by decide)] at hread
  exact ⟨hvalid, hbase, d, hmount, hread⟩

/-- A label with a zero character passes the check, but a guest reads only what stands before it. -/
theorem volume_label_told_in_part :
    let s : Settings := { directory := "/d", label := "A\x00B" }
    let around : Surroundings := ⟨"/home", "", ⟨"/"⟩⟩
    let host : Host := ⟨fun _ => true, fun path => .error (.noDirectory path)⟩
    let v : Visit FlatGuest := ⟨host, .getVolume, FlatGuest.filled 0xFF⟩
    s.validate = .ok () ∧ host.isDirectory (s.basePath around) = true ∧
    ∃ d, Drive.mount host around s = .ok d ∧
      Guest.readText (d.visit v).2.2.peek v.guest.registers.de 11 = "A" ∧ "A" ≠ s.label := by
  intro s around host v
  have hvalid : s.validate = .ok () := by decide
  obtain ⟨-, hlength, hascii⟩ := Settings.label_bounds hvalid
  have htold : ToldLabel s.label (Drive.new (s.basePath around) s.label) v :=
    Drive.told_label rfl rfl hlength hascii
  refine ⟨hvalid, rfl, _, Drive.mount_of_validate hvalid rfl, ?_, by decide⟩
  exact (htold.read 11 (Nat.le_refl 11)).trans (by decide)

end HostDrive

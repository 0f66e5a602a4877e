import HostDrive.Proofs.Json.Values
import HostDrive.Settings.Text

/-!
# Settings Written and Read

Settings that are written as text are read back from it. The text may as well be written by hand:
the members may be in any order and layout, with escapes wherever one likes them, and others may
stand among them. What counts is the strings of the two members, or the default of one that is
missing.

## Architecture

- `given` are the values that a list of members has under a name, and `strings` those that are
  asked for.
- `takeMember?_cases` is the step over one member; from it, by induction over the members,
  `foldlM_takeMember?`.
- `ofText_of_writtenAs` is a text of members, and `writtenAs_text` says that settings are written as
  such a text. `settings_merged` puts both together.
-/

namespace HostDrive.Settings

open Json (Value Layout IsGap SpellsUnits HasUnits)
open Json.Token (spelled_quoted)

/-! ## Section 1: Settings that are accepted -/

/-- Settings that are checked before they are used: themselves, or what is wrong with them. -/
def checked (s : Settings) : Except SetupError Settings :=
  match s.validate with
  | .ok () => .ok s
  | .error e => .error e

theorem ofText_of_parse {s : String} {v : Value} {found : Found} (hparse : Value.parse? s = some v)
    (hfound : found? v = some found) : ofText s = found.settings.checked := by
  unfold ofText
  rw [hparse, Option.bind_some, hfound]
  rfl

/-! ## Section 2: Members of an object -/

/-- The object with these members, whose names all have a text. -/
def object (members : List (String × Value)) : Value :=
  .object (members.map fun m => (some m.1, m.2))

/-- The values that members have under a name. -/
def given (key : String) (members : List (String × Value)) : List Value :=
  (members.filter fun m => m.1 = key).map (·.2)

/-- One string, or nothing. -/
def strings (text? : Option String) : List Value := text?.toList.map fun t => .string (some t)

private theorem given_cons_self (key : String) (v : Value) (members : List (String × Value)) :
    given key ((key, v) :: members) = v :: given key members := by
  simp [given]

private theorem given_cons_of_ne {key key' : String} (h : key' ≠ key) (v : Value)
    (members : List (String × Value)) : given key ((key', v) :: members) = given key members := by
  simp [given, h]

/-- If only one string is given, then the first value is this string, and there is no other. -/
private theorem strings_cons {v : Value} {values : List Value} {text? : Option String}
    (h : v :: values = strings text?) :
    ∃ t, text? = some t ∧ v = .string (some t) ∧ values = strings none := by
  cases text? with
  | none => exact nomatch h
  | some t =>
    obtain ⟨hv, hvalues⟩ := List.cons.inj h
    exact ⟨t, rfl, hv, hvalues⟩

private theorem takeMember?_directory {f : Found} (hf : f.directory = none) (t : String) :
    takeMember? f (some directoryKey, .string (some t)) = some { f with directory := some t } := by
  simp [takeMember?, hf, textOf?]

private theorem takeMember?_label {f : Found} (hf : f.label = none) (t : String) :
    takeMember? f (some labelKey, .string (some t)) = some { f with label := some t } := by
  have hkeys : labelKey ≠ directoryKey := by decide
  simp [takeMember?, hf, textOf?, hkeys]

private theorem takeMember?_other {key : String} (hdirectory : key ≠ directoryKey)
    (hlabel : key ≠ labelKey) (f : Found) (v : Value) : takeMember? f (some key, v) = some f := by
  simp [takeMember?, hdirectory, hlabel]

/-- **Members are taken**, in any order and whatever others stand among them. One that is asked for
    must not have been found before. -/
theorem foldlM_takeMember? {members : List (String × Value)} {directory? label? : Option String}
    (f : Found) (hdirectory : given directoryKey members = strings directory?)
    (hlabel : given labelKey members = strings label?)
    (hdirectory' : f.directory = none ∨ directory? = none)
    (hlabel' : f.label = none ∨ label? = none) :
    (members.map fun m => (some m.1, m.2)).foldlM takeMember? f =
      some ⟨f.directory.or directory?, f.label.or label?⟩ := by
  have hkeys : labelKey ≠ directoryKey := by decide
  -- what has been found so far and what is still to come never have a member in common
  induction members generalizing f directory? label? with
  | nil =>
    obtain rfl : directory? = none := by cases directory? <;> [rfl; exact nomatch hdirectory]
    obtain rfl : label? = none := by cases label? <;> [rfl; exact nomatch hlabel]
    simp
  | cons m members ih =>
    obtain ⟨key, v⟩ := m
    rw [List.map_cons, List.foldlM_cons]
    by_cases hd : key = directoryKey
    · -- there is no other member of this name
      subst hd
      rw [given_cons_self] at hdirectory
      rw [given_cons_of_ne hkeys.symm] at hlabel
      obtain ⟨t, rfl, rfl, hrest⟩ := strings_cons hdirectory
      have hf : f.directory = none := by simpa using hdirectory'
      rw [takeMember?_directory hf, Option.bind_eq_bind, Option.bind_some,
        ih { f with directory := some t } hrest hlabel (.inr rfl) hlabel']
      simp [hf]
    rw [given_cons_of_ne hd] at hdirectory
    by_cases hl : key = labelKey
    · -- nor of this one
      subst hl
      rw [given_cons_self] at hlabel
      obtain ⟨t, rfl, rfl, hrest⟩ := strings_cons hlabel
      have hf : f.label = none := by simpa using hlabel'
      rw [takeMember?_label hf, Option.bind_eq_bind, Option.bind_some,
        ih { f with label := some t } hdirectory hrest hdirectory' (.inr rfl)]
      simp [hf]
    · -- any other member is passed over
      rw [given_cons_of_ne hl] at hlabel
      rw [takeMember?_other hd hl, Option.bind_eq_bind, Option.bind_some,
        ih f hdirectory hlabel hdirectory' hlabel']

/-- **A text of members is read** as what they give, and defaults for the rest. -/
theorem ofText_of_writtenAs {members : List (String × Value)} {directory? label? : Option String}
    {text : String} (htext : (object members).WrittenAs text)
    (hdirectory : given directoryKey members = strings directory?)
    (hlabel : given labelKey members = strings label?) :
    ofText text = checked
      { directory := directory?.getD "$MyDocuments$/NestorMSX/FileSystem",
        label := label?.getD "NestorMSX" } := by
  have hfound : found? (object members) = some ⟨directory?, label?⟩ :=
    foldlM_takeMember? {} hdirectory hlabel (.inl rfl) (.inl rfl)
  have hdefault : ({} : Settings).directory = "$MyDocuments$/NestorMSX/FileSystem" := by decide
  rw [ofText_of_parse (Value.parse?_of_writtenAs htext) hfound, Found.settings, hdefault]

/-! ## Section 3: Settings as written -/

/-- **Settings are written as an object** with the two members, and no gaps. -/
theorem writtenAs_text (s : Settings) :
    (object [(directoryKey, .string (some s.directory)),
      (labelKey, .string (some s.label))]).WrittenAs s.text := by
  have hgap : IsGap [] := fun c hc => absurd hc List.not_mem_nil
  have hlabel : Layout _ _ :=
    .next (spelled_quoted labelKey) (.next .colon (.next (spelled_quoted s.label)
      (.next .closeBrace (.done hgap))))
  have hlayout : Layout _ _ :=
    .next .openBrace (.next (spelled_quoted directoryKey) (.next .colon
      (.next (spelled_quoted s.directory) (.next .comma hlabel))))
  have htext : s.text.toList = ['\x7b'] ++ (Json.quoted directoryKey ++ ([':'] ++
      (Json.quoted s.directory ++ ([','] ++ (Json.quoted labelKey ++ ([':'] ++
        (Json.quoted s.label ++ (['\x7d'] ++ [])))))))) := by
    simp [text, memberText]
  rw [Value.WrittenAs, htext]
  exact hlayout

/-- **Settings are read from text.** Those that were written are read back, if they are accepted, and
    else it is told what is wrong with them. So it is with every text of an object that gives one
    string at most for each of the two members, whatever other members it has, whose names are
    texts, and in any order and layout: the settings are these strings, and defaults for those that
    are missing. -/
theorem settings_merged :
    (∀ s : Settings, ofText s.text = s.checked) ∧
    ∀ (members : List (String × Value)) (directory? label? : Option String) (text : String),
      (object members).WrittenAs text →
      given directoryKey members = strings directory? → given labelKey members = strings label? →
      ofText text = checked
        { directory := directory?.getD "$MyDocuments$/NestorMSX/FileSystem",
          label := label?.getD "NestorMSX" } := by
  have hkeys : labelKey ≠ directoryKey := by decide
  refine ⟨fun s => ?written, fun members directory? label? text htext hdirectory hlabel => ?any⟩
  case written =>
    have hdirectory : given directoryKey [(directoryKey, .string (some s.directory)),
        (labelKey, .string (some s.label))] = strings (some s.directory) := by
      rw [given_cons_self, given_cons_of_ne hkeys]
      rfl
    have hlabel : given labelKey [(directoryKey, .string (some s.directory)),
        (labelKey, .string (some s.label))] = strings (some s.label) := by
      rw [given_cons_of_ne hkeys.symm, given_cons_self]
      rfl
    have hread := ofText_of_writtenAs (writtenAs_text s) hdirectory hlabel
    rw [Option.getD_some, Option.getD_some] at hread
    exact hread
  case any => exact ofText_of_writtenAs htext hdirectory hlabel

/-- A text by hand: gaps, another member that has half a pair of units in it, and no directory. -/
theorem settings_merged_other_member :
    let text := "\x7b \"x\": [1e5, \"\\ud800\"],\n\"volumeLabel\" :\"GAMES\"\x7d"
    ofText text = .ok { label := "GAMES" } := by
  intro text
  -- half a pair is the unit of no text
  have hhalf : SpellsUnits [.number 0xD800] ['\\', 'u', 'd', '8', '0', '0'] := by
    have hd : Json.IsHexDigit 13 'd' := by simp [Json.IsHexDigit, Nat.digitChar]
    have h8 : Json.IsHexDigit 8 '8' := by simp [Json.IsHexDigit, Nat.digitChar]
    have h0 : Json.IsHexDigit 0 '0' := by simp [Json.IsHexDigit, Nat.digitChar]
    exact .number hd h8 h0 h0 .nil
  have hnone : ∀ t : String, none = some t ↔ HasUnits t.toList [.number 0xD800] := by
    intro t
    rw [← Json.unitText?_eq_some_iff hhalf.number_lt]
    rfl
  have hnumber : Json.IsNumber ['1', 'e', '5'] := by
    have h1 : Json.IsDigits ['1'] := by simp [Json.IsDigits]
    have h5 : Json.IsDigits ['5'] := by simp [Json.IsDigits]
    exact .number (.inl rfl) (.digits h1 (by decide)) .none (.power (.inl rfl) (.inl rfl) h5)
  have hblank : IsGap [' '] := by simp [IsGap]
  have hend : IsGap ['\n'] := by simp [IsGap]
  have hgap : IsGap [] := by simp [IsGap]
  have hlabel : Layout _ _ :=
    .token hend (spelled_quoted labelKey) (.token hblank .colon
      (.next (spelled_quoted "GAMES") (.next .closeBrace (.done hgap))))
  have hlayout : Layout _ _ :=
    .next .openBrace (.token hblank (spelled_quoted "x") (.next .colon (.token hblank .openBracket
      (.next (.number hnumber) (.next .comma (.token hblank (.string hhalf hnone)
        (.next .closeBracket (.next .comma hlabel))))))))
  have htext : text.toList = ['\x7b'] ++ ([' '] ++ (Json.quoted "x" ++ ([':'] ++ ([' '] ++ (['['] ++
      (['1', 'e', '5'] ++ ([','] ++ ([' '] ++ ('\x22' :: (['\\', 'u', 'd', '8', '0', '0'] ++ ['\x22']) ++
        ([']'] ++ ([','] ++ (['\n'] ++ (Json.quoted labelKey ++ ([' '] ++ ([':'] ++
          (Json.quoted "GAMES" ++ (['\x7d'] ++ []))))))))))))))))) := by
    decide
  have hwritten : (object [("x", .array [.number, .string none]),
      (labelKey, .string (some "GAMES"))]).WrittenAs text := by
    rw [Value.WrittenAs, htext]
    exact hlayout
  have hkeys : "x" ≠ directoryKey ∧ "x" ≠ labelKey ∧ labelKey ≠ directoryKey := by decide
  obtain ⟨hx, hx', hlabel'⟩ := hkeys
  have hread := settings_merged.2 [("x", .array [.number, .string none]),
    (labelKey, .string (some "GAMES"))] none (some "GAMES") text hwritten
    (by rw [given_cons_of_ne hx, given_cons_of_ne hlabel']; rfl)
    (by rw [given_cons_of_ne hx', given_cons_self]; rfl)
  rw [hread]
  decide

end HostDrive.Settings

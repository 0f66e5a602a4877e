import HostDrive.Proofs.Host.Resolve
import HostDrive.Proofs.Text.Runs
import HostDrive.Settings.Basic

/-!
# The Base Directory

Which directory the settings name. Its text is cut at slashes of both kinds, and what is left
between them are the steps of the path, from the root or from the working directory. A colon at the
end of the first part makes no difference, and neither does the way the parts are separated.

The folder that the placeholder stands for is pasted into the text before the text is cut, so it is
cut at backslashes too. A folder whose name has a backslash in it is therefore missed.

## Architecture

- `HostPath.components_along` and `HostPath.along_eq_append`: the components and the text of a path
  that parts were joined to, by induction over the parts.
- `runs_slashed`: writing parts with slashes between them loses none and merges none.
- `splitPath_eq_foldl` ties the two together: the path of a text is what joining its parts one after
  the other leaves.
- `basePath_of_leading` and `basePath_of_relative` say where the base directory is, whatever the text
  is once the placeholder is replaced. `directory_read_part_by_part` and `placeholder_pasted` are the
  texts without and with the placeholder.
-/

namespace HostDrive

open Text (runs IsRuns)

/-! ## Section 1: Paths that parts are joined to -/

namespace HostPath

theorem isAbsolute_iff {p : HostPath} :
    p.isAbsolute = true ↔ ∃ rest, p.text.toList = '/' :: rest := by
  rw [isAbsolute, beq_iff_eq, List.head?_eq_some_iff]

/-- An absolute path starts with the root. -/
theorem components_of_absolute {p : HostPath} {rest : List Char} (h : p.text.toList = '/' :: rest) :
    p.components = .root :: (runs isSlash rest).filterMap componentOf? := by
  rw [components, h, Text.runs_cons rfl]
  rfl

/-- A path stays absolute when something is joined to it that is not. -/
theorem isAbsolute_join_of_relative {p : HostPath} (hp : p.isAbsolute = true) {s : String}
    (hs : s.toList.head? ≠ some '/') : (p.join s).isAbsolute = true := by
  obtain ⟨rest, hrest⟩ := isAbsolute_iff.mp hp
  obtain ⟨more, hmore⟩ := p.text_isPrefix_join_of_relative hs
  rw [hrest] at hmore
  exact isAbsolute_iff.mpr ⟨_, hmore.symm⟩

theorem text_ne_nil_of_isAbsolute {p : HostPath} (hp : p.isAbsolute = true) :
    p.text.toList ≠ [] := by
  obtain ⟨rest, hrest⟩ := isAbsolute_iff.mp hp
  simp [hrest]

private theorem slash_notMem {part : List Char} (hpart : ∀ c ∈ part, isSlash c = false) :
    '/' ∉ part :=
  fun hmem => absurd (hpart '/' hmem) (by decide)

/-- A part without slashes starts with none. -/
private theorem head?_of_part {part : List Char} (hpart : ∀ c ∈ part, isSlash c = false) :
    part.head? ≠ some '/' :=
  fun hslash => slash_notMem hpart (List.mem_of_head? hslash)

/-- It ends with none either, whatever stands in front. -/
private theorem getLast?_append_part {part : List Char} (text : List Char) (hne : part ≠ [])
    (hpart : ∀ c ∈ part, isSlash c = false) : (text ++ part).getLast? ≠ some '/' := by
  rw [List.getLast?_append_of_ne_nil _ hne]
  exact fun hslash => slash_notMem hpart (List.mem_of_getLast? hslash)

/-- **Parts are one step each**, unless they are dots. -/
theorem components_along {p : HostPath} (hp : p.isAbsolute = true) {parts : List (List Char)}
    (hparts : ∀ part ∈ parts, part ≠ [] ∧ ∀ c ∈ part, isSlash c = false) :
    (p.along (parts.map String.ofList)).components =
      p.components ++ parts.filterMap componentOf? := by
  induction parts generalizing p with
  | nil => exact (List.append_nil _).symm
  | cons part parts ih =>
    obtain ⟨⟨hne, hpart⟩, hrest⟩ := List.forall_mem_cons.mp hparts
    have hrelative : (String.ofList part).toList.head? ≠ some '/' := by
      rw [String.toList_ofList]
      exact head?_of_part hpart
    have hjoin := components_join_of_relative (text_ne_nil_of_isAbsolute hp) hrelative
    rw [String.toList_ofList, Text.runs_of_not_separator hne hpart] at hjoin
    -- the first part is joined before the others
    have hstep := ih (isAbsolute_join_of_relative hp hrelative) hrest
    rw [hjoin, List.append_assoc, ← List.filterMap_append, List.singleton_append] at hstep
    exact hstep

private theorem join_ofList (text : List Char) {s : List Char} (hs : s.head? ≠ some '/') :
    join ⟨String.ofList text⟩ (String.ofList s) = ⟨String.ofList (withSlash text ++ s)⟩ := by
  rw [join, String.toList_ofList, String.toList_ofList, if_neg (by simpa using hs)]

/-- What is joined to a path that ends in no slash stands behind one. -/
private theorem join_eq_append {text s : List Char} (hne : text ≠ [])
    (hlast : text.getLast? ≠ some '/') (hs : s.head? ≠ some '/') :
    join ⟨String.ofList text⟩ (String.ofList s) = ⟨String.ofList (text ++ '/' :: s)⟩ := by
  have hslash : withSlash text = text ++ ['/'] := by
    simp [withSlash, hne, hlast]
  rw [join_ofList text hs, hslash, List.append_assoc, List.singleton_append]

/-- A slash that is there already is enough. -/
private theorem join_append_slash {text s : List Char} (hne : text ≠ [])
    (hlast : text.getLast? ≠ some '/') (hs : s.head? ≠ some '/') :
    join ⟨String.ofList (text ++ ['/'])⟩ (String.ofList s) =
      join ⟨String.ofList text⟩ (String.ofList s) := by
  have hslash : withSlash (text ++ ['/']) = text ++ ['/'] := by
    simp [withSlash]
  rw [join_eq_append hne hlast hs, join_ofList _ hs, hslash, List.append_assoc,
    List.singleton_append]

/-- **Parts that are joined have a slash in front of each.** -/
theorem along_eq_append {text : List Char} (hne : text ≠ []) (hlast : text.getLast? ≠ some '/')
    {parts : List (List Char)}
    (hparts : ∀ part ∈ parts, part ≠ [] ∧ ∀ c ∈ part, isSlash c = false) :
    along ⟨String.ofList text⟩ (parts.map String.ofList) =
      ⟨String.ofList (text ++ parts.flatMap fun part => '/' :: part)⟩ := by
  induction parts generalizing text with
  | nil =>
    rw [List.flatMap_nil, List.append_nil]
    rfl
  | cons part parts ih =>
    obtain ⟨⟨hpartne, hpart⟩, hrest⟩ := List.forall_mem_cons.mp hparts
    have hjoin := join_eq_append hne hlast (head?_of_part hpart)
    -- the path ends as its last part does
    have hend : (text ++ '/' :: part).getLast? ≠ some '/' := by
      rw [List.append_cons]
      exact getLast?_append_part _ hpartne hpart
    have hstep := ih (by simp) hend hrest
    rw [← hjoin] at hstep
    rw [List.flatMap_cons, ← List.append_assoc]
    exact hstep

end HostPath

/-! ## Section 2: Parts with slashes between them -/

namespace Settings

open GuestPath (isSeparator)
open HostPath (isSlash componentOf?)

/-- A slash is a separator, so what has no separators has no slashes. -/
private theorem isSlash_of_not_isSeparator {c : Char} (h : isSeparator c = false) :
    isSlash c = false := by
  simp only [isSeparator, Bool.or_eq_false_iff] at h
  exact h.2

private theorem runs_flatMap_slash {parts : List (List Char)}
    (hparts : ∀ part ∈ parts, part ≠ [] ∧ ∀ c ∈ part, isSlash c = false) :
    runs isSlash (parts.flatMap fun part => '/' :: part) = parts := by
  induction parts with
  | nil => rfl
  | cons part parts ih =>
    obtain ⟨⟨hne, hpart⟩, hrest⟩ := List.forall_mem_cons.mp hparts
    rw [List.flatMap_cons, List.cons_append, Text.runs_cons rfl]
    cases parts with
    | nil => simp [Text.runs_of_not_separator hne hpart]
    | cons next parts =>
      -- the next slash ends this part
      have hnext := ih hrest
      rw [List.flatMap_cons, List.cons_append, Text.runs_cons rfl] at hnext
      rw [List.flatMap_cons, List.cons_append, Text.runs_append_cons rfl,
        Text.runs_of_not_separator hne hpart, hnext, List.singleton_append]

/-- **No part is lost or merged**, nor is one with a colon at its end any different. -/
theorem runs_slashed {parts : List (List Char)}
    (hparts : ∀ part ∈ parts, part ≠ [] ∧ ∀ c ∈ part, isSlash c = false) :
    runs isSlash (slashed parts) = parts := by
  match parts with
  | [] => rfl
  | [part] =>
    obtain ⟨hne, hpart⟩ := hparts part (by simp)
    rw [slashed]
    split
    · -- a drive gets a slash behind it, which is in no run
      rw [Text.runs_append_cons rfl, Text.runs_of_not_separator hne hpart]
      rfl
    · exact Text.runs_of_not_separator hne hpart
  | part :: next :: parts =>
    obtain ⟨⟨hne, hpart⟩, hrest⟩ := List.forall_mem_cons.mp hparts
    have hmore := runs_flatMap_slash hrest
    rw [List.flatMap_cons, List.cons_append, Text.runs_cons rfl] at hmore
    have htext : slashed (part :: next :: parts) =
        part ++ '/' :: (next ++ parts.flatMap fun part => '/' :: part) := rfl
    rw [htext, Text.runs_append_cons rfl, Text.runs_of_not_separator hne hpart, hmore,
      List.singleton_append]

/-- A first part is no slash. -/
theorem head?_slashed {parts : List (List Char)}
    (hparts : ∀ part ∈ parts, part ≠ [] ∧ ∀ c ∈ part, isSlash c = false) :
    (slashed parts).head? ≠ some '/' := by
  have hfirst : ∀ part ∈ parts, ∀ rest : List Char, (part ++ rest).head? ≠ some '/' := by
    intro part hmem rest
    obtain ⟨hne, hpart⟩ := hparts part hmem
    rw [List.head?_append_of_ne_nil _ hne]
    exact HostPath.head?_of_part hpart
  match parts with
  | [] => simp [slashed]
  | [part] =>
    rw [slashed]
    split
    · exact hfirst part (by simp) _
    · simpa using hfirst part (by simp) []
  | part :: next :: parts => exact hfirst part (by simp) _

/-- The runs of a text are parts that slashes can stand between. -/
private theorem parts_of_runs (text : List Char) :
    ∀ part ∈ runs isSeparator text, part ≠ [] ∧ ∀ c ∈ part, isSlash c = false := by
  intro part hpart
  obtain ⟨hne, hchars⟩ := Text.forall_mem_runs hpart
  exact ⟨hne, fun c hc => isSlash_of_not_isSeparator (hchars c hc)⟩

/-! ## Section 3: Part by part -/

/-- Joins part number `i` to a path. A first part with a colon at its end is a drive, and has a
    slash behind it. -/
def pushPart (path : HostPath) : List Char × Nat → HostPath
  | (part, i) =>
    if i = 0 ∧ part.getLast? = some ':' then path.join (String.ofList (part ++ ['/']))
    else path.join (String.ofList part)

/-- No part behind the first one is a drive. -/
private theorem foldl_pushPart (path : HostPath) (parts : List (List Char)) (i : Nat) :
    (parts.zipIdx (i + 1)).foldl pushPart path = path.along (parts.map String.ofList) := by
  induction parts generalizing path i with
  | nil => rfl
  | cons part parts ih =>
    have hpush : pushPart path (part, i + 1) = path.join (String.ofList part) := by
      rw [pushPart, if_neg (fun h => Nat.succ_ne_zero i h.1)]
    rw [List.zipIdx_cons, List.foldl_cons, hpush]
    exact ih _ _

/-- The first part is joined to the root, or to nothing. -/
private theorem join_leadingSlash (text : List Char) {s : List Char} (hs : s.head? ≠ some '/') :
    HostPath.join ⟨String.ofList (leadingSlash text)⟩ (String.ofList s) =
      ⟨String.ofList (leadingSlash text ++ s)⟩ := by
  have hslash : HostPath.withSlash (leadingSlash text) = leadingSlash text := by
    unfold leadingSlash
    split <;> rfl
  rw [HostPath.join_ofList _ hs, hslash]

/-- A drive is joined with a slash behind it, which is the one in front of the next part. -/
private theorem slashed_of_drive {text first : List Char} {rest : List (List Char)}
    (hne : first ≠ []) (hlast : (text ++ first).getLast? ≠ some '/')
    (hrest : ∀ part ∈ rest, part ≠ [] ∧ ∀ c ∈ part, isSlash c = false)
    (hdrive : first.getLast? = some ':') :
    HostPath.along ⟨String.ofList (text ++ (first ++ ['/']))⟩ (rest.map String.ofList) =
      ⟨String.ofList (text ++ slashed (first :: rest))⟩ := by
  cases rest with
  | nil =>
    rw [slashed, if_pos (by simp [hdrive])]
    rfl
  | cons next names =>
    have hjoin := HostPath.join_append_slash (by simp [hne]) hlast
      (HostPath.head?_of_part (hrest next List.mem_cons_self).2)
    have hnames := HostPath.along_eq_append (by simp [hne]) hlast hrest
    rw [List.map_cons, HostPath.along, List.foldl_cons] at hnames ⊢
    rw [← List.append_assoc, hjoin, hnames, List.append_assoc]
    rfl

/-- **A path is joined part by part**, from the root if its text starts with a separator. -/
theorem splitPath_eq_foldl (text : List Char) :
    splitPath text = (runs isSeparator text).zipIdx.foldl pushPart
      (if text.head?.any isSeparator then HostPath.join ⟨""⟩ "/" else ⟨""⟩) := by
  have hstart : (if text.head?.any isSeparator then HostPath.join ⟨""⟩ "/" else ⟨""⟩) =
      HostPath.mk (String.ofList (leadingSlash text)) := by
    unfold leadingSlash
    split <;> rfl
  have hparts := parts_of_runs text
  rw [hstart, splitPath]
  generalize runs isSeparator text = parts at hparts ⊢
  cases parts with
  | nil =>
    rw [slashed, List.append_nil]
    rfl
  | cons first rest =>
    obtain ⟨⟨hne, hfirst⟩, hrest⟩ := List.forall_mem_cons.mp hparts
    have hhead := HostPath.head?_of_part hfirst
    have hlast := HostPath.getLast?_append_part (leadingSlash text) hne hfirst
    rw [List.zipIdx_cons, List.foldl_cons, foldl_pushPart, pushPart]
    by_cases hdrive : first.getLast? = some ':'
    · have hdriveHead : (first ++ ['/']).head? ≠ some '/' := by
        rwa [List.head?_append_of_ne_nil _ hne]
      rw [if_pos ⟨rfl, hdrive⟩, join_leadingSlash text hdriveHead]
      exact (slashed_of_drive hne hlast hrest hdrive).symm
    · rw [if_neg fun h => hdrive h.2, join_leadingSlash text hhead,
        HostPath.along_eq_append (by simp [hne]) hlast hrest, List.append_assoc]
      cases rest with
      | nil => rw [slashed, if_neg (by simpa using hdrive), List.flatMap_nil, List.append_nil]
      | cons next names => rfl

/-! ## Section 4: Where the base directory is -/

/-- A text that starts with a separator leads from the root, wherever the program runs. -/
theorem basePath_of_leading (around : Surroundings) {s : Settings}
    (hleading : (s.expanded around).head?.any isSeparator = true) :
    (s.basePath around).isAbsolute = true ∧
      (s.basePath around).components =
        .root :: (runs isSeparator (s.expanded around)).filterMap componentOf? := by
  have htext : (splitPath (s.expanded around)).text.toList =
      '/' :: slashed (runs isSeparator (s.expanded around)) := by
    simp [splitPath, leadingSlash, hleading]
  have habsolute := HostPath.isAbsolute_iff.mpr ⟨_, htext⟩
  rw [basePath, if_pos habsolute, HostPath.components_of_absolute htext,
    runs_slashed (parts_of_runs _)]
  exact ⟨habsolute, rfl⟩

/-- Any other text leads from the working directory. -/
theorem basePath_of_relative {around : Surroundings}
    (hworking : around.workingDirectory.isAbsolute = true) {s : Settings}
    (hrelative : ¬ (s.expanded around).head?.any isSeparator = true) :
    (s.basePath around).isAbsolute = true ∧
      (s.basePath around).components = around.workingDirectory.components ++
        (runs isSeparator (s.expanded around)).filterMap componentOf? := by
  have hparts := parts_of_runs (s.expanded around)
  have htext : (splitPath (s.expanded around)).text.toList =
      slashed (runs isSeparator (s.expanded around)) := by
    simp [splitPath, leadingSlash, hrelative]
  have hhead : (splitPath (s.expanded around)).text.toList.head? ≠ some '/' := by
    rw [htext]
    exact head?_slashed hparts
  have hnot : ¬ (splitPath (s.expanded around)).isAbsolute = true := by
    simpa [HostPath.isAbsolute] using hhead
  rw [basePath, if_neg hnot, HostPath.components_join_of_relative
    (HostPath.text_ne_nil_of_isAbsolute hworking) hhead, htext, runs_slashed hparts]
  exact ⟨HostPath.isAbsolute_join_of_relative hworking hhead, rfl⟩

/-- The steps from the root to where the way to a directory starts: none if its text starts with a
    separator, and else those of the working directory. -/
def start (around : Surroundings) (text : List Char) : List HostPath.Component :=
  if text.head?.any isSeparator then [] else around.workingDirectory.components.tail

/-- **The base directory of a text without the placeholder.** -/
theorem basePath_of_not_placeholder {around : Surroundings}
    (hworking : around.workingDirectory.isAbsolute = true) {s : Settings}
    (hs : ¬ documentsPlaceholder.toList <:+: s.directory.toList) :
    (s.basePath around).isAbsolute = true ∧
      (s.basePath around).components = .root :: (start around s.directory.toList ++
        (runs isSeparator s.directory.toList).filterMap componentOf?) := by
  have hexpanded : s.expanded around = s.directory.toList := Text.replaceAll_of_not_infix hs
  by_cases hleading : s.directory.toList.head?.any isSeparator = true
  · rw [start, if_pos hleading]
    have h := basePath_of_leading around (hexpanded.symm ▸ hleading)
    rw [hexpanded] at h
    exact h
  · rw [start, if_neg hleading]
    have h := basePath_of_relative hworking (hexpanded.symm ▸ hleading)
    -- the working directory has the root in front
    obtain ⟨rest, hrest⟩ := HostPath.isAbsolute_iff.mp hworking
    rw [hexpanded, HostPath.components_of_absolute hrest] at h
    rw [HostPath.components_of_absolute hrest]
    exact h

/-- **A directory is read part by part.** Unless the placeholder is in its text, the path is
    absolute and leads from the root, over the working directory if the text does not start with a
    separator, along the runs of the text: each run is one step, dots are no step and two dots lead
    up. So it does not matter how the parts are separated. -/
theorem directory_read_part_by_part {around : Surroundings}
    (hworking : around.workingDirectory.isAbsolute = true) (s : Settings)
    (hs : ¬ documentsPlaceholder.toList <:+: s.directory.toList) :
    (s.basePath around).isAbsolute = true ∧
    (∃ parts, IsRuns isSeparator s.directory.toList parts ∧
      (s.basePath around).components =
        .root :: (start around s.directory.toList ++ parts.filterMap componentOf?)) ∧
    ∀ t : Settings, ¬ documentsPlaceholder.toList <:+: t.directory.toList →
      Text.Reseparated isSeparator s.directory.toList t.directory.toList →
      (t.basePath around).components = (s.basePath around).components := by
  obtain ⟨habsolute, hcomponents⟩ := basePath_of_not_placeholder hworking hs
  refine ⟨habsolute, ⟨_, Text.isRuns_iff.mpr rfl, hcomponents⟩, ?_⟩
  intro t ht hseparated
  obtain ⟨-, hcomponents'⟩ := basePath_of_not_placeholder hworking ht
  rw [hcomponents, hcomponents', start, start, hseparated.runs, hseparated.startsSeparated]

/-- A first part that looks like a drive, both slashes, and one slash too many. -/
theorem directory_read_part_by_part_drive :
    let around : Surroundings := { home := "/root", userFolders := "", workingDirectory := ⟨"/srv"⟩ }
    let s : Settings := { directory := "C:/a/../b" }
    let t : Settings := { directory := "C:/a/../b\\" }
    (s.basePath around).components =
        [.root, .name "srv", .name "C:", .name "a", .up, .name "b"] ∧
      (t.basePath around).components = (s.basePath around).components := by
  intro around s t
  have hnot : ¬ documentsPlaceholder.toList <:+: s.directory.toList := by decide +kernel
  have hnot' : ¬ documentsPlaceholder.toList <:+: t.directory.toList := by decide +kernel
  have hruns : runs isSeparator s.directory.toList =
      ["C:".toList, "a".toList, "..".toList, "b".toList] := by decide
  obtain ⟨-, ⟨parts, hparts, hcomponents⟩, hsame⟩ :=
    directory_read_part_by_part (by decide : around.workingDirectory.isAbsolute = true) s hnot
  obtain rfl := hruns.symm.trans hparts.runs_eq
  have hstart : start around s.directory.toList = [.name "srv"] := by decide
  refine ⟨?_, hsame t hnot' (.symm ?_)⟩
  · rw [hcomponents, hstart]
    decide
  · have htext : t.directory.toList = s.directory.toList ++ ['\\'] := by decide
    rw [htext]
    exact .trailing (by decide) (by decide)

/-! ## Section 5: The placeholder -/

variable {around : Surroundings} {s : Settings} {separator : Char} {rest : List Char}

/-- The folder is pasted in front of what stands behind the placeholder. -/
private theorem expanded_of_placeholder (hseparator : isSeparator separator = true)
    (hdirectory : s.directory.toList = documentsPlaceholder.toList ++ separator :: rest)
    (hrest : ¬ documentsPlaceholder.toList <:+: rest) :
    s.expanded around = around.documentsFolder.toList ++ separator :: rest := by
  have hbehind : ¬ documentsPlaceholder.toList <:+: separator :: rest := by
    rw [List.infix_cons_iff]
    rintro (hstart | hinfix)
    · -- the placeholder starts with no separator
      obtain ⟨more, hmore⟩ := hstart
      obtain rfl : '$' = separator := (List.cons.inj hmore).1
      exact absurd hseparator (by decide)
    · exact hrest hinfix
  rw [expanded, hdirectory, Text.replaceAll_append (by decide),
    Text.replaceAll_of_not_infix hbehind]

/-- **Cutting at backslashes too** leads along the same steps exactly if there are none: a name with
    a backslash in it is no step of a text that was cut there. -/
private theorem steps_eq_iff {text : List Char} :
    (runs isSeparator text).filterMap componentOf? = (runs isSlash text).filterMap componentOf? ↔
      '\\' ∉ text := by
  constructor
  · intro heq hmem
    obtain ⟨part, hpart, hbackslash⟩ := Text.exists_mem_runs hmem (by decide : isSlash '\\' = false)
    have hhere : part ≠ ['.'] := by
      rintro rfl
      exact absurd hbackslash (by decide)
    have habove : part ≠ ['.', '.'] := by
      rintro rfl
      exact absurd hbackslash (by decide)
    have hname : componentOf? part = some (.name (String.ofList part)) := by
      rw [componentOf?, if_neg hhere, if_neg habove]
    -- so the other cut has this name too, as a run of its own
    have hstep := List.mem_filterMap.mpr ⟨part, hpart, hname⟩
    rw [← heq] at hstep
    obtain ⟨part', hpart', hname'⟩ := List.mem_filterMap.mp hstep
    have hsame : part' = part := by
      unfold componentOf? at hname'
      split at hname'
      · cases hname'
      split at hname'
      · cases hname'
      have htexts : String.ofList part' = String.ofList part := by simpa using hname'
      simpa using congrArg String.toList htexts
    subst hsame
    exact absurd ((Text.forall_mem_runs hpart').2 _ hbackslash) (by decide)
  · intro hnot
    have hcongr : runs isSeparator text = runs isSlash text := by
      apply Text.runs_congr
      intro c hc
      have hne : c ≠ '\\' := by
        rintro rfl
        exact hnot hc
      simp [isSeparator, isSlash, hne]
    rw [hcongr]

/-- **The placeholder is replaced before the text is cut.** With any absolute folder for it, the base
    directory leads along the runs of the folder's text and of the text behind the placeholder, cut
    at slashes of both kinds. That is the folder followed by the parts exactly if there is no
    backslash in the folder's text. -/
theorem placeholder_pasted
    (hfolder : (⟨around.documentsFolder⟩ : HostPath).isAbsolute = true)
    (hseparator : isSeparator separator = true)
    (hdirectory : s.directory.toList = documentsPlaceholder.toList ++ separator :: rest)
    (hrest : ¬ documentsPlaceholder.toList <:+: rest) :
    let folder : HostPath := ⟨around.documentsFolder⟩
    ∃ steps parts, IsRuns isSeparator folder.text.toList steps ∧ IsRuns isSeparator rest parts ∧
      (s.basePath around).components = .root :: (steps ++ parts).filterMap componentOf? ∧
      ((s.basePath around).components = (folder.along (parts.map String.ofList)).components ↔
        '\\' ∉ folder.text.toList) := by
  intro folder
  obtain ⟨behind, hroot⟩ := HostPath.isAbsolute_iff.mp hfolder
  have hexpanded : s.expanded around = folder.text.toList ++ separator :: rest :=
    expanded_of_placeholder hseparator hdirectory hrest
  -- an absolute folder starts with a separator, which is in no run
  have hleading : (s.expanded around).head?.any isSeparator = true := by
    rw [hexpanded, hroot]
    rfl
  have hcomponents := (basePath_of_leading around hleading).2
  rw [hexpanded, Text.runs_append_cons hseparator] at hcomponents
  have halong := HostPath.components_along hfolder (parts_of_runs rest)
  have hslash : isSlash '/' = true := rfl
  rw [HostPath.components_of_absolute hroot, ← Text.runs_cons hslash behind, ← hroot,
    List.cons_append] at halong
  refine ⟨_, _, Text.isRuns_iff.mpr rfl, Text.isRuns_iff.mpr rfl, hcomponents, ?_⟩
  -- both paths end in the same parts, so only the steps of the folder can differ
  rw [hcomponents, halong, List.filterMap_append, List.cons.injEq, List.append_left_inj]
  simpa using steps_eq_iff

/-- A documents folder of the desktop, and both slashes behind the placeholder. -/
theorem placeholder_pasted_documents :
    let around : Surroundings :=
      { home := "/home/msx", userFolders := "XDG_DOCUMENTS_DIR=\"$HOME/My Documents\"\n",
        workingDirectory := ⟨"/"⟩ }
    let s : Settings := { directory := "$MyDocuments$\\MSX//Disk" }
    around.documentsFolder = "/home/msx/My Documents" ∧
      (s.basePath around).components =
        [.root, .name "home", .name "msx", .name "My Documents", .name "MSX", .name "Disk"] := by
  intro around s
  have hfolder : around.documentsFolder = "/home/msx/My Documents" := by decide
  have habsolute : (⟨around.documentsFolder⟩ : HostPath).isAbsolute = true := by
    rw [hfolder]
    decide
  have hrest : ¬ documentsPlaceholder.toList <:+: "MSX//Disk".toList := by decide +kernel
  obtain ⟨steps, parts, hsteps, hparts, hcomponents, -⟩ :=
    placeholder_pasted (s := s) habsolute (by decide : isSeparator '\\' = true) (by decide) hrest
  have hsteps' : runs isSeparator "/home/msx/My Documents".toList =
      ["home".toList, "msx".toList, "My Documents".toList] := by decide
  have hparts' : runs isSeparator "MSX//Disk".toList = ["MSX".toList, "Disk".toList] := by decide
  refine ⟨hfolder, ?_⟩
  rw [hcomponents, ← hsteps.runs_eq, ← hparts.runs_eq, hfolder, hsteps', hparts']
  decide

/-- **A folder that is missed.** The name of the home folder has a backslash in it, and the base
    directory is not below it. -/
theorem folder_with_backslash_missed :
    let around : Surroundings :=
      { home := "/home/a\\b", userFolders := "", workingDirectory := ⟨"/"⟩ }
    let s : Settings := { directory := "$MyDocuments$/games" }
    let folder : HostPath := ⟨around.documentsFolder⟩
    folder.isAbsolute = true ∧ ¬ documentsPlaceholder.toList <:+: "games".toList ∧
      (folder.join "games").components =
        [.root, .name "home", .name "a\\b", .name "games"] ∧
      (s.basePath around).components =
        [.root, .name "home", .name "a", .name "b", .name "games"] ∧
      (s.basePath around).components ≠ (folder.join "games").components := by
  decide +kernel

end Settings

end HostDrive

import HostDrive.Host.Resolve
import HostDrive.Proofs.Text.Runs
import Mathlib.Data.List.Forall2

/-!
# Resolved Directories

Where following names can lead on a host: from the base directory down, one level for each name, by
the host's own spelling of it.

## Main statements

- `HostPath.along`: the path that names lead along, and `text_isPrefix_along`: it stays below
- `HostPath.components_join_of_relative`: a text adds its runs to a path, and
  `HostPath.components_join`: a name adds one component
- `Host.enter_eq_some`, `Host.resolve_eq_some`: a resolved directory is the base followed by one
  host name for each guest name
- `Host.exists_enter_of_mem`: what a listing calls a directory can be entered
-/

namespace HostDrive

/-! ## Section 1: Paths along names -/

namespace HostPath

/-- The path from a directory along names, each one level below the one before. -/
def along (directory : HostPath) (names : List String) : HostPath := names.foldl join directory

/-- A name with a slash in front would replace the directory that it is joined to. -/
private theorem head?_of_isName {name : String} (hname : GuestPath.IsName name) :
    name.toList.head? ≠ some '/' := by
  intro hhead
  exact absurd rfl (hname.not_separator '/' (List.mem_of_head? hhead)).2

private theorem toList_join {s : String} (hs : s.toList.head? ≠ some '/') (directory : HostPath) :
    (directory.join s).text.toList = withSlash directory.text.toList ++ s.toList := by
  simp [join, hs]

/-- Joining a text that has no slash in front keeps the text of the directory. -/
theorem text_isPrefix_join_of_relative (directory : HostPath) {s : String}
    (hs : s.toList.head? ≠ some '/') :
    directory.text.toList <+: (directory.join s).text.toList := by
  rw [toList_join hs, withSlash]
  split
  · exact List.prefix_append _ _
  · rw [List.append_assoc]
    exact List.prefix_append _ _

/-- Joining a name keeps the text of the directory in front. -/
theorem text_isPrefix_join (directory : HostPath) {name : String} (hname : GuestPath.IsName name) :
    directory.text.toList <+: (directory.join name).text.toList :=
  directory.text_isPrefix_join_of_relative (head?_of_isName hname)

/-- **Names lead down**: the path along them starts with the text of the directory. -/
theorem text_isPrefix_along (directory : HostPath) {names : List String}
    (hnames : ∀ n ∈ names, GuestPath.IsName n) :
    directory.text.toList <+: (directory.along names).text.toList := by
  induction names generalizing directory with
  | nil => exact List.prefix_refl _
  | cons name rest ih =>
    -- the text only grows, with every name on the way
    have hname := hnames name List.mem_cons_self
    exact (directory.text_isPrefix_join hname).trans
      (ih (directory.join name) fun n hn => hnames n (List.mem_cons_of_mem _ hn))

/-! ## Section 2: Components along names -/

/-- What stands behind a slash does not change how a path starts. -/
private theorem leading_append_slash {q : List Char} (hq : q ≠ []) (t : List Char) :
    leading (q ++ '/' :: t) = leading q := by
  have hother : ∀ c rest, c ≠ '/' → c ≠ '.' → leading (c :: rest) = [] := by
    intro c rest hroot hhere
    unfold leading
    split <;> simp_all
  have hdot : ∀ d rest, d ≠ '/' → leading ('.' :: d :: rest) = [] := by
    intro d rest hslash
    unfold leading
    split <;> simp_all
  -- only the first two characters count
  match q with
  | [] => exact absurd rfl hq
  | c :: rest =>
    by_cases hroot : c = '/'
    · rw [hroot]
      rfl
    by_cases hhere : c = '.'
    · rw [hhere]
      match rest with
      | [] => rfl
      | d :: rest =>
        by_cases hslash : d = '/'
        · rw [hslash]
          rfl
        · rw [hdot d rest hslash]
          exact hdot d _ hslash
    · rw [hother c rest hroot hhere]
      exact hother c _ hroot hhere

/-- The slash that joins two texts changes neither how the first one starts nor the runs of either:
    it is there already, or it ends the first text. -/
private theorem leading_runs_withSlash_append {q : List Char} (hq : q ≠ []) (t : List Char) :
    leading (withSlash q ++ t) = leading q ∧
      Text.runs isSlash (withSlash q ++ t) = Text.runs isSlash q ++ Text.runs isSlash t := by
  have hroot : isSlash '/' = true := rfl
  obtain ⟨before, last, rfl⟩ := (List.eq_nil_or_concat q).resolve_left hq
  rw [List.concat_eq_append]
  by_cases hlast : last = '/'
  · have htext : withSlash (before ++ [last]) ++ t = before ++ '/' :: t := by
      simp [withSlash, hlast]
    rw [htext, hlast, Text.runs_append_cons hroot, Text.runs_append_cons hroot]
    refine ⟨?_, congrArg (· ++ _) (List.append_nil _).symm⟩
    by_cases hbefore : before = []
    · rw [hbefore]
      rfl
    · rw [leading_append_slash hbefore, leading_append_slash hbefore]
  · have htext : withSlash (before ++ [last]) ++ t = before ++ [last] ++ '/' :: t := by
      simp [withSlash, hlast]
    rw [htext]
    exact ⟨leading_append_slash (by simp) t, Text.runs_append_cons hroot _ t⟩

/-- **A text that has no slash in front adds its runs** to the path that it is joined to. -/
theorem components_join_of_relative {directory : HostPath} (hne : directory.text.toList ≠ [])
    {s : String} (hs : s.toList.head? ≠ some '/') :
    (directory.join s).components =
      directory.components ++ (Text.runs isSlash s.toList).filterMap componentOf? := by
  obtain ⟨hleading, hruns⟩ := leading_runs_withSlash_append hne s.toList
  rw [components, toList_join hs, hleading, hruns, List.filterMap_append, ← List.append_assoc,
    components]

/-- A name is a run of its own, and leaves one component. -/
private theorem filterMap_runs_of_isName {name : String} (hname : GuestPath.IsName name) :
    (Text.runs isSlash name.toList).filterMap componentOf? = [.name name] := by
  have hchars : ∀ c ∈ name.toList, isSlash c = false := by
    intro c hc
    simpa [isSlash] using (hname.not_separator c hc).2
  have hne : name.toList ≠ [] := fun heq => hname.ne_empty (String.toList_inj.mp heq)
  have hhere : name.toList ≠ ['.'] := fun heq => hname.ne_here (String.toList_inj.mp heq)
  have habove : name.toList ≠ ['.', '.'] := fun heq => hname.ne_above (String.toList_inj.mp heq)
  have hcomponent : componentOf? name.toList = some (.name name) := by
    rw [componentOf?, if_neg hhere, if_neg habove, String.ofList_toList]
  rw [Text.runs_of_not_separator hne hchars]
  simp [hcomponent]

/-- A name starts with no component of its own. -/
private theorem leading_of_isName {name : String} (hname : GuestPath.IsName name) :
    leading name.toList = [] := by
  unfold leading
  split
  · rename_i rest heq
    exact absurd rfl (hname.not_separator '/' (heq ▸ List.mem_cons_self)).2
  · rename_i heq
    exact absurd (String.toList_inj.mp heq) hname.ne_here
  · rename_i rest heq
    have hslash : '/' ∈ name.toList := heq ▸ List.mem_cons_of_mem _ List.mem_cons_self
    exact absurd rfl (hname.not_separator '/' hslash).2
  · rfl

/-- **A name is one more component** of the path that it is joined to. -/
theorem components_join (directory : HostPath) {name : String} (hname : GuestPath.IsName name) :
    (directory.join name).components = directory.components ++ [.name name] := by
  have hhead := head?_of_isName hname
  by_cases hempty : directory.text.toList = []
  · -- the path is the name alone
    rw [components, toList_join hhead, components, hempty]
    exact congrArg₂ (· ++ ·) (leading_of_isName hname) (filterMap_runs_of_isName hname)
  · rw [components_join_of_relative hempty hhead, filterMap_runs_of_isName hname]

end HostPath

/-! ## Section 3: Resolving -/

/-- The host's names for the names of a guest, one for each, that differ in case at most. -/
def SpelledAs (spelled names : List String) : Prop :=
  List.Forall₂ (fun s n => Text.sameIgnoringCase s n = true) spelled names

namespace Host

variable {host : Host} {directory inner : HostPath}

theorem matchingDirectory?_eq_some {listing : List Entry} {name : String} {e : Entry}
    (h : matchingDirectory? listing name = some e) :
    e ∈ listing ∧ e.isDirectory = true ∧ Text.sameIgnoringCase e.name name = true := by
  unfold matchingDirectory? at h
  have hfits := List.find?_some h
  exact ⟨List.mem_of_find?_eq_some h, Bool.and_eq_true_iff.mp hfits⟩

/-- **The step of a name**: it leads one level down, by the host's spelling of the name, unless
    there is a colon in it. -/
theorem enter_eq_some {name : String} (h : host.enter directory name = some inner) :
    ':' ∉ name.toList ∧
      ∃ spelled, Text.sameIgnoringCase spelled name = true ∧ inner = directory.join spelled := by
  unfold enter at h
  split at h
  · exact nomatch h
  · rename_i hcolon
    refine ⟨by simpa using hcolon, ?_⟩
    split at h
    · obtain rfl := Option.some.inj h
      exact ⟨name, Text.sameIgnoringCase_refl name, rfl⟩
    · -- not there as it was given, so the listing is searched for it
      split at h
      · exact nomatch h
      · obtain ⟨e, he, rfl⟩ := Option.map_eq_some_iff.mp h
        exact ⟨e.name, (matchingDirectory?_eq_some he).2.2, rfl⟩

/-- Names lead along the host's spelling of each. -/
theorem descend_eq_some {names : List String} (h : host.descend directory names = some inner) :
    (∀ n ∈ names, ':' ∉ n.toList) ∧
      ∃ spelled, SpelledAs spelled names ∧ inner = directory.along spelled := by
  induction names generalizing directory with
  | nil =>
    obtain rfl : directory = inner := Option.some.inj h
    exact ⟨List.forall_mem_nil _, [], List.Forall₂.nil, rfl⟩
  | cons name rest ih =>
    unfold descend at h
    split at h
    · exact nomatch h
    · rename_i next henter
      obtain ⟨hcolon, s, hs, rfl⟩ := enter_eq_some henter
      obtain ⟨hcolons, spelled, hspelled, rfl⟩ := ih h
      refine ⟨List.forall_mem_cons.mpr ⟨hcolon, hcolons⟩, s :: spelled, ?_, rfl⟩
      exact List.Forall₂.cons hs hspelled

/-- **Where resolving leads**: to the base directory followed by one host name for each name. -/
theorem resolve_eq_some {base : HostPath} {names : List String}
    (h : host.resolve base names = some directory) :
    (∀ n ∈ names, ':' ∉ n.toList) ∧
      ∃ spelled, SpelledAs spelled names ∧ directory = base.along spelled := by
  unfold resolve at h
  split at h
  · exact descend_eq_some h
  · exact nomatch h

/-- Names lead on from where the names before them lead. -/
theorem descend_append (host : Host) (directory : HostPath) (names more : List String) :
    host.descend directory (names ++ more) =
      (host.descend directory names).bind fun inner => host.descend inner more := by
  induction names generalizing directory with
  | nil => rfl
  | cons first rest ih =>
    rw [List.cons_append, descend, descend]
    cases host.enter directory first with
    | none => rfl
    | some inner => exact ih inner

theorem descend_singleton (host : Host) (directory : HostPath) (name : String) :
    host.descend directory [name] = host.enter directory name := by
  unfold descend
  cases host.enter directory name <;> rfl

/-- One more name is one more step. -/
theorem descend_concat (host : Host) (directory : HostPath) (names : List String) (name : String) :
    host.descend directory (names ++ [name]) =
      (host.descend directory names).bind fun inner => host.enter inner name := by
  simp only [descend_append, descend_singleton]

theorem resolve_concat (host : Host) (base : HostPath) (names : List String) (name : String) :
    host.resolve base (names ++ [name]) =
      (host.resolve base names).bind fun inner => host.enter inner name := by
  unfold resolve
  split
  · exact host.descend_concat base names name
  · rfl

/-- **A listed directory can be entered** by its name, whatever the case, unless there is a colon in
    it. -/
theorem exists_enter_of_mem {listing : List Entry} {name : String} {e : Entry}
    (hlist : host.list directory = .ok listing) (he : e ∈ listing) (hdirectory : e.isDirectory)
    (hsame : Text.sameIgnoringCase e.name name = true) (hcolon : ':' ∉ name.toList) :
    ∃ spelled, Text.sameIgnoringCase spelled name = true ∧
      host.enter directory name = some (directory.join spelled) := by
  have hnotColon : name.toList.contains ':' = false := by simpa using hcolon
  unfold enter
  rw [hnotColon, if_neg Bool.false_ne_true]
  split
  · exact ⟨name, Text.sameIgnoringCase_refl name, rfl⟩
  · -- the listing has at least this entry, and perhaps one before it
    have hfound : (matchingDirectory? listing name).isSome := by
      rw [matchingDirectory?, List.find?_isSome]
      exact ⟨e, he, Bool.and_eq_true_iff.mpr ⟨hdirectory, hsame⟩⟩
    obtain ⟨f, hf⟩ := Option.isSome_iff_exists.mp hfound
    rw [hlist]
    exact ⟨f.name, (matchingDirectory?_eq_some hf).2.2, congrArg (Option.map _) hf⟩

end Host

end HostDrive

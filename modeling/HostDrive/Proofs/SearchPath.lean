import HostDrive.Proofs.GuestPath

/-!
# Search Texts and Directory Paths

A search text is cut behind its last separator, a directory path at every separator. Both agree on
where they lead: what stands before the last separator names the directory to be searched, however
it is spelled, and what stands behind it is one more piece of the path.

## Main statements

- `IsCut`: a text cut at its last separator
- `IsCut.components`: the names of a path are those of its front part, followed along the last piece
- `IsCut.searchPath`: what a search text asks for, in terms of the same two parts
-/

namespace HostDrive

namespace GuestPath

/-! ## Section 1: Cut texts -/

/-- **A text cut at its last separator** into a front part and a last piece. -/
structure IsCut (text front : String) (c : Char) (last : String) : Prop where
  eq : text.toList = front.toList ++ c :: last.toList
  separator : isSeparator c = true
  not_separator : ∀ d ∈ last.toList, isSeparator d = false

/-- Either slash cuts a directory text from a name. -/
theorem exists_isCut {front separator last : String}
    (hseparator : separator = "\\" ∨ separator = "/")
    (hlast : ∀ d ∈ last.toList, d ≠ '\\' ∧ d ≠ '/') :
    ∃ c, IsCut (front ++ separator ++ last) front c last := by
  have hpiece : ∀ d ∈ last.toList, isSeparator d = false := by
    intro d hd
    simpa [isSeparator] using hlast d hd
  rcases hseparator with rfl | rfl
  · exact ⟨'\\', by simp, rfl, hpiece⟩
  · exact ⟨'/', by simp, rfl, hpiece⟩

/-! ## Section 2: Drive designators -/

/-- A drive designator ends before the first separator, so no cut touches it. -/
theorem withoutDrive_append_cons {c : Char} (hc : isSeparator c = true) (s t : List Char) :
    withoutDrive (s ++ c :: t) = withoutDrive s ++ c :: t := by
  by_cases hdrive : ∃ letter rest, s = letter :: ':' :: rest ∧ letter.isAlpha = true
  · obtain ⟨letter, rest, rfl, hletter⟩ := hdrive
    rw [withoutDrive_of_drive rest hletter]
    exact withoutDrive_of_drive (rest ++ c :: t) hletter
  · have hnot : ∀ letter rest, s = letter :: ':' :: rest → letter.isAlpha = false := by
      intro letter rest hs
      simpa using fun hletter => hdrive ⟨letter, rest, hs, hletter⟩
    rw [withoutDrive_of_not_drive hnot, withoutDrive_of_not_drive]
    intro letter rest heq
    -- a letter and a colon in front would have to come from the front part
    match s with
    | [] =>
      obtain ⟨rfl, -⟩ := List.cons.inj heq
      have hslash : c = '\\' ∨ c = '/' := by simpa [isSeparator] using hc
      rcases hslash with rfl | rfl <;> decide
    | [d] =>
      obtain ⟨-, htail⟩ := List.cons.inj heq
      obtain ⟨rfl, -⟩ := List.cons.inj htail
      exact absurd hc (by decide)
    | d :: e :: s =>
      obtain ⟨rfl, htail⟩ := List.cons.inj heq
      obtain ⟨rfl, -⟩ := List.cons.inj htail
      exact hnot d s rfl

/-! ## Section 3: Both readings of a cut text -/

namespace IsCut

variable {text front last : String} {c : Char}

/-- **A path leads along its front part**, and then along its last piece. -/
theorem components (h : IsCut text front c last) :
    GuestPath.components text =
      (follow (GuestPath.components front).reverse last.toList).reverse := by
  have hpieces := Text.pieces_append_cons h.separator (withoutDrive front.toList) last.toList
  rw [Text.pieces_of_not_separator h.not_separator] at hpieces
  rw [GuestPath.components, h.eq, withoutDrive_append_cons h.separator, hpieces, List.foldl_append,
    GuestPath.components, List.reverse_reverse]
  rfl

/-- A separator at the end of a path changes nothing. -/
theorem components_of_empty (h : IsCut text front c "") :
    GuestPath.components text = GuestPath.components front := by
  rw [h.components, follow, if_pos (.inl rfl), List.reverse_reverse]

/-- A name at the end of a path leads one level further down. -/
theorem components_of_name (h : IsCut text front c last) (hname : IsName last) :
    GuestPath.components text = GuestPath.components front ++ [last] := by
  rw [h.components, follow_of_isName hname, List.reverse_cons, List.reverse_reverse]

/-- The last separator of a text is the one in front of its last piece. -/
theorem cutSearch (h : IsCut text front c last) :
    GuestPath.cutSearch text.toList = (front.toList ++ [c], last.toList) := by
  have hlast : ∀ s : List Char, (∀ d ∈ s, isSeparator d = false) →
      Text.cutLast isSeparator s = ([], s) := by
    intro s hs
    induction s with
    | nil => rfl
    | cons d s ih =>
      have hd := hs d List.mem_cons_self
      simp [Text.cutLast, ih fun e he => hs e (List.mem_cons_of_mem _ he), hd]
  have hcut : Text.cutLast isSeparator text.toList = (front.toList ++ [c], last.toList) := by
    rw [h.eq]
    induction front.toList with
    | nil => simp [Text.cutLast, hlast _ h.not_separator, h.separator]
    | cons d s ih => simp [Text.cutLast, ih]
  have hne : (front.toList ++ [c]).isEmpty = false := by simp
  unfold GuestPath.cutSearch
  simp only [hcut, hne, Bool.false_eq_true, if_false]

/-- **What a search text asks for**: its last piece is the pattern, and its front part names the
    directory, whatever separator stands behind it. -/
theorem searchPath (h : IsCut text front c last) (hhere : last ≠ ".") (habove : last ≠ "..") :
    GuestPath.components (GuestPath.searchPath text).directory = GuestPath.components front ∧
      (GuestPath.searchPath text).pattern = if last = "" then matchAll else last := by
  have hfront : GuestPath.components (String.ofList (front.toList ++ [c])) =
      GuestPath.components front := by
    apply components_of_empty (c := c)
    exact ⟨by simp, h.separator, by simp⟩
  have hdots : ¬ (last.toList = ['.'] ∨ last.toList = ['.', '.']) := by
    rintro (heq | heq)
    · exact hhere (String.toList_inj.mp heq)
    · exact habove (String.toList_inj.mp heq)
  rw [GuestPath.searchPath, h.cutSearch]
  by_cases hempty : last = ""
  · subst hempty
    exact ⟨hfront, rfl⟩
  · have hne : last.toList ≠ [] := fun heq => hempty (String.toList_inj.mp heq)
    simp only [hne, hdots, if_false, hfront, hempty, String.ofList_toList, and_self]

/-- A last piece of dots is part of the path, and everything there is asked for. -/
theorem searchPath_of_dots (h : IsCut text front c last) (hdots : last = "." ∨ last = "..") :
    GuestPath.searchPath text = ⟨text, matchAll⟩ := by
  have hne : last.toList ≠ [] := by rcases hdots with rfl | rfl <;> simp
  have hdots' : last.toList = ['.'] ∨ last.toList = ['.', '.'] := by
    rcases hdots with rfl | rfl <;> simp
  rw [GuestPath.searchPath, h.cutSearch]
  simp only [hne, hdots', if_false, if_true]

end IsCut

end GuestPath

end HostDrive

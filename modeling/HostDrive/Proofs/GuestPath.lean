import HostDrive.GuestPath
import HostDrive.Proofs.ShortName

/-!
# Names in Guest Paths

Whatever text a guest gives as a path, the names that it comes down to are ordinary ones: each leads
one level down and nowhere else. Drive designators, runs of dots and mixed separators leave no trace
in them, and spelling them out again takes no more room than the text had.

## Architecture

- `Text.pieces` cuts a text at its separators: `forall_mem_pieces` says what is in a piece,
  `room_pieces` how long the pieces are together.
- `GuestPath.IsName` is the property of a name; `IsName.of_sameIgnoringCase` carries it over to a
  host's spelling of the name.
- `follow_cases` is the step along one piece. From it, by induction over the pieces,
  `isName_of_mem_components` and `length_spelling_components`.
- `components_spelling`: names that are spelled out are read back.
-/

namespace HostDrive

/-! ## Section 1: Pieces of a text -/

namespace Text

variable {isSeparator : Char → Bool}

/-- There is always a first piece. -/
private theorem exists_pieces_eq_cons (isSeparator : Char → Bool) (s : List Char) :
    ∃ p ps, pieces isSeparator s = p :: ps := by
  cases s with
  | nil => exact ⟨[], [], rfl⟩
  | cons c rest =>
    unfold pieces
    split
    · exact ⟨_, _, rfl⟩
    · split <;> exact ⟨_, _, rfl⟩

/-- A separator ends a piece, any other character belongs to the piece before the next one. -/
private theorem pieces_cons {c : Char} {rest p : List Char} {ps : List (List Char)}
    (hrest : pieces isSeparator rest = p :: ps) :
    pieces isSeparator (c :: rest) = if isSeparator c then [] :: p :: ps else (c :: p) :: ps := by
  simp only [pieces, hrest]

/-- A separator cuts a text in two, and the pieces of the one part come before those of the
    other. -/
theorem pieces_append_cons {c : Char} (hc : isSeparator c = true) (s t : List Char) :
    pieces isSeparator (s ++ c :: t) = pieces isSeparator s ++ pieces isSeparator t := by
  induction s with
  | nil =>
    obtain ⟨p, ps, ht⟩ := exists_pieces_eq_cons isSeparator t
    rw [List.nil_append, pieces_cons ht, if_pos hc, ht]
    rfl
  | cons d s ih =>
    obtain ⟨p, ps, hs⟩ := exists_pieces_eq_cons isSeparator s
    have hrest : pieces isSeparator (s ++ c :: t) = p :: (ps ++ pieces isSeparator t) := by
      rw [ih, hs]
      rfl
    rw [List.cons_append, pieces_cons hrest, pieces_cons hs]
    split <;> rfl

/-- A text without separators is one piece. -/
theorem pieces_of_not_separator {s : List Char} (h : ∀ c ∈ s, isSeparator c = false) :
    pieces isSeparator s = [s] := by
  induction s with
  | nil => rfl
  | cons c s ih =>
    have hs := ih fun d hd => h d (List.mem_cons_of_mem _ hd)
    rw [pieces_cons hs, h c List.mem_cons_self, if_neg Bool.false_ne_true]

/-- A piece holds characters of the text, and no separator. -/
theorem forall_mem_pieces {s p : List Char} (hp : p ∈ pieces isSeparator s) :
    ∀ c ∈ p, isSeparator c = false ∧ c ∈ s := by
  induction s generalizing p with
  | nil =>
    obtain rfl : p = [] := by simpa [pieces] using hp
    exact fun c hc => nomatch hc
  | cons d rest ih =>
    obtain ⟨q, qs, hrest⟩ := exists_pieces_eq_cons isSeparator rest
    rw [hrest] at ih
    rw [pieces_cons hrest] at hp
    -- only the first piece is new, and it may have `d` in front
    have hlater : p ∈ q :: qs → ∀ c ∈ p, isSeparator c = false ∧ c ∈ d :: rest :=
      fun hmem c hc => ⟨(ih hmem c hc).1, List.mem_cons_of_mem _ (ih hmem c hc).2⟩
    by_cases hd : isSeparator d = true
    · rw [if_pos hd] at hp
      rcases List.mem_cons.mp hp with rfl | hmem
      · exact fun c hc => nomatch hc
      · exact hlater hmem
    · rw [if_neg hd] at hp
      rcases List.mem_cons.mp hp with rfl | hmem
      · intro c hc
        rcases List.mem_cons.mp hc with rfl | hc
        · exact ⟨by simpa using hd, List.mem_cons_self⟩
        · obtain ⟨hsep, hin⟩ := ih List.mem_cons_self c hc
          exact ⟨hsep, List.mem_cons_of_mem _ hin⟩
      · exact hlater (List.mem_cons_of_mem _ hmem)

/-- How much room texts take, each with a separator behind it. -/
def room : List String → Nat
  | [] => 0
  | t :: rest => t.length + 1 + room rest

theorem room_append (ts us : List String) : room (ts ++ us) = room ts + room us := by
  induction ts with
  | nil => exact (Nat.zero_add _).symm
  | cons t ts ih =>
    rw [List.cons_append, room, room, ih]
    omega

theorem room_reverse (ts : List String) : room ts.reverse = room ts := by
  induction ts with
  | nil => rfl
  | cons t ts ih =>
    rw [List.reverse_cons, room_append, ih, room, room, room]
    omega

/-- Pieces with one separator between each two are as long as the text. -/
theorem room_pieces (isSeparator : Char → Bool) (s : List Char) :
    room ((pieces isSeparator s).map String.ofList) = s.length + 1 := by
  induction s with
  | nil => rfl
  | cons c rest ih =>
    obtain ⟨p, ps, hrest⟩ := exists_pieces_eq_cons isSeparator rest
    rw [hrest] at ih
    rw [pieces_cons hrest]
    split
    · simp only [List.map_cons, room, String.length_ofList, List.length_cons,
        List.length_nil] at ih ⊢
      omega
    · simp only [List.map_cons, room, String.length_ofList, List.length_cons] at ih ⊢
      omega

/-! ## Section 2: Case -/

/-- Case mapping leads to no character but a letter. -/
theorem toLower_eq_iff {c d : Char} (hd : d.isAlpha = false) : c.toLower = d ↔ c = d := by
  obtain ⟨hnotUpper, hnotLower⟩ : d.isUpper = false ∧ d.isLower = false := by
    unfold Char.isAlpha at hd
    exact Bool.or_eq_false_iff.mp hd
  unfold Char.toLower
  by_cases hc : c.val ≥ 'A'.val ∧ c.val ≤ 'Z'.val
  · -- an upper-case letter becomes a lower-case one, and `d` is neither
    rw [dif_pos hc]
    constructor
    · rintro rfl
      unfold Char.isLower at hnotLower
      simp only [ge_iff_le, UInt32.le_iff_toNat_le, UInt32.toNat_add, Char.reduceVal,
        UInt32.reduceSub, UInt32.reduceToNat, Bool.and_eq_false_iff,
        decide_eq_false_iff_not] at hc hnotLower
      omega
    · rintro rfl
      unfold Char.isUpper at hnotUpper
      exact absurd hc (of_decide_eq_false hnotUpper)
  · rw [dif_neg hc]

/-- Texts that agree but for case hold the same characters other than letters. -/
theorem mem_of_sameIgnoringCase {s t : String} (h : sameIgnoringCase s t = true) {c : Char}
    (hc : c.isAlpha = false) (hmem : c ∈ s.toList) : c ∈ t.toList := by
  have hmaps : s.toList.map Char.toLower = t.toList.map Char.toLower := by
    simpa [sameIgnoringCase] using h
  have hlower : c ∈ t.toList.map Char.toLower := by
    rw [← hmaps, ← (toLower_eq_iff hc).mpr rfl]
    exact List.mem_map_of_mem hmem
  obtain ⟨d, hd, heq⟩ := List.mem_map.mp hlower
  rw [← (toLower_eq_iff hc).mp heq]
  exact hd

/-- A text without letters agrees with no other. -/
theorem eq_of_sameIgnoringCase {s t : String} (h : sameIgnoringCase s t = true)
    (ht : ∀ c ∈ t.toList, c.isAlpha = false) : s = t := by
  have hmaps : s.toList.map Char.toLower = t.toList.map Char.toLower := by
    simpa [sameIgnoringCase] using h
  apply String.toList_inj.mp
  generalize s.toList = cs at hmaps
  generalize t.toList = ds at hmaps ht
  -- both texts at once, led by the one that has no letters
  induction ds generalizing cs with
  | nil => simpa using hmaps
  | cons d ds ih =>
    match cs with
    | [] => exact absurd hmaps (by simp)
    | c :: cs =>
      have hd := ht d List.mem_cons_self
      obtain ⟨hhead, htail⟩ := List.cons.inj hmaps
      rw [(toLower_eq_iff hd).mpr rfl, toLower_eq_iff hd] at hhead
      rw [hhead, ih cs htail fun c hc => ht c (List.mem_cons_of_mem _ hc)]

theorem sameIgnoringCase_refl (s : String) : sameIgnoringCase s s = true := by
  simp [sameIgnoringCase]

theorem sameIgnoringCase_symm {s t : String} (h : sameIgnoringCase s t = true) :
    sameIgnoringCase t s = true := by
  simp only [sameIgnoringCase, beq_iff_eq] at h ⊢
  exact h.symm

end Text

/-! ## Section 3: Names -/

namespace GuestPath

open Text (room)

/-- **A name**: it stands for a member of a directory, and not for the directory itself, for the one
    above, or for a path of several names. -/
structure IsName (name : String) : Prop where
  ne_empty : name ≠ ""
  ne_here : name ≠ "."
  ne_above : name ≠ ".."
  not_separator : ∀ c ∈ name.toList, c ≠ '\\' ∧ c ≠ '/'

/-- A name with no colon in it, so that no part of it looks like a drive designator. -/
structure IsPlainName (name : String) : Prop extends IsName name where
  ne_colon : ∀ c ∈ name.toList, c ≠ ':'

/-- A host's spelling of a name, which may differ in case, is a name. -/
theorem IsName.of_sameIgnoringCase {spelled name : String} (h : IsName name)
    (hsame : Text.sameIgnoringCase spelled name = true) : IsName spelled := by
  have hsymm := Text.sameIgnoringCase_symm hsame
  -- dots and separators have no case, so the name would have them too
  refine ⟨?empty, ?here, ?above, ?separator⟩
  case empty =>
    rintro rfl
    exact h.ne_empty (Text.eq_of_sameIgnoringCase hsymm (by simp))
  case here =>
    rintro rfl
    exact h.ne_here (Text.eq_of_sameIgnoringCase hsymm (by simp))
  case above =>
    rintro rfl
    exact h.ne_above (Text.eq_of_sameIgnoringCase hsymm (by simp))
  case separator =>
    intro c hc
    constructor
    · rintro rfl
      exact (h.not_separator _ (Text.mem_of_sameIgnoringCase hsame (by decide) hc)).1 rfl
    · rintro rfl
      exact (h.not_separator _ (Text.mem_of_sameIgnoringCase hsame (by decide) hc)).2 rfl

theorem IsPlainName.of_sameIgnoringCase {spelled name : String} (h : IsPlainName name)
    (hsame : Text.sameIgnoringCase spelled name = true) : IsPlainName spelled := by
  refine ⟨h.toIsName.of_sameIgnoringCase hsame, ?_⟩
  rintro c hc rfl
  exact h.ne_colon _ (Text.mem_of_sameIgnoringCase hsame (by decide) hc) rfl

/-! ## Section 4: Following a path -/

/-- **The step along a piece**: stay, go up, or go down by a name. -/
theorem follow_cases (names : List String) (piece : List Char) :
    follow names piece = names ∨ follow names piece = names.tail ∨
    (piece ≠ [] ∧ piece ≠ ['.'] ∧ piece ≠ ['.', '.'] ∧
      follow names piece = String.ofList piece :: names) := by
  unfold follow
  split
  · exact .inl rfl
  · rename_i hstay
    obtain ⟨hempty, hhere⟩ := not_or.mp hstay
    split
    · exact .inr (.inl rfl)
    · rename_i habove
      exact .inr (.inr ⟨hempty, hhere, habove, rfl⟩)

/-- A name leads down. -/
theorem follow_of_isName {name : String} (h : IsName name) (names : List String) :
    follow names name.toList = name :: names := by
  have hstay : ¬ (name.toList = [] ∨ name.toList = ['.']) := by
    rintro (hempty | hhere)
    · exact h.ne_empty (String.toList_inj.mp hempty)
    · exact h.ne_here (String.toList_inj.mp hhere)
  have habove : name.toList ≠ ['.', '.'] := fun heq => h.ne_above (String.toList_inj.mp heq)
  rw [follow, if_neg hstay, if_neg habove, String.ofList_toList]

/-- Names lead down one after the other, and stand in reverse. -/
theorem foldl_follow_of_isName {names : List String} (h : ∀ n ∈ names, IsName n)
    (above : List String) :
    (names.map String.toList).foldl follow above = names.reverse ++ above := by
  induction names generalizing above with
  | nil => rfl
  | cons n rest ih =>
    obtain ⟨hn, hrest⟩ := List.forall_mem_cons.mp h
    rw [List.map_cons, List.foldl_cons, follow_of_isName hn, ih hrest, List.reverse_cons,
      List.append_assoc]
    rfl

/-- Every name that a path comes down to is one of its pieces, or was there before. -/
theorem mem_foldl_follow {names : List String} {pieces : List (List Char)} {name : String}
    (h : name ∈ pieces.foldl follow names) :
    name ∈ names ∨ ∃ p ∈ pieces, p ≠ [] ∧ p ≠ ['.'] ∧ p ≠ ['.', '.'] ∧ name = String.ofList p := by
  induction pieces generalizing names with
  | nil => exact .inl h
  | cons piece rest ih =>
    rcases ih h with hbefore | ⟨p, hp, hname⟩
    · obtain hstay | hup | ⟨hempty, hhere, habove, hdown⟩ := follow_cases names piece
      · rw [hstay] at hbefore
        exact .inl hbefore
      · rw [hup] at hbefore
        exact .inl (List.mem_of_mem_tail hbefore)
      · rw [hdown] at hbefore
        rcases List.mem_cons.mp hbefore with rfl | hbefore
        · exact .inr ⟨piece, List.mem_cons_self, hempty, hhere, habove, rfl⟩
        · exact .inl hbefore
    · exact .inr ⟨p, List.mem_cons_of_mem _ hp, hname⟩

/-- Following pieces needs no more room than the pieces have. -/
theorem room_foldl_follow_le (names : List String) (pieces : List (List Char)) :
    room (pieces.foldl follow names) ≤ room names + room (pieces.map String.ofList) := by
  induction pieces generalizing names with
  | nil => exact Nat.le_refl _
  | cons piece rest ih =>
    have hstep : room (follow names piece) ≤ room names + (piece.length + 1) := by
      obtain hstay | hup | ⟨-, -, -, hdown⟩ := follow_cases names piece
      · rw [hstay]
        exact Nat.le_add_right _ _
      · rw [hup]
        cases names with
        | nil => exact Nat.zero_le _
        | cons n names =>
          simp only [room, List.tail_cons]
          omega
      · rw [hdown]
        simp only [room, String.length_ofList]
        omega
    have hrest := ih (follow names piece)
    simp only [List.foldl_cons, List.map_cons, room, String.length_ofList] at hrest ⊢
    omega

theorem withoutDrive_suffix (path : List Char) : withoutDrive path <:+ path := by
  unfold withoutDrive
  split
  · split
    · exact ⟨[_, ':'], rfl⟩
    · exact List.suffix_refl _
  · exact List.suffix_refl _

theorem withoutDrive_of_drive {letter : Char} (rest : List Char) (h : letter.isAlpha = true) :
    withoutDrive (letter :: ':' :: rest) = rest := if_pos h

theorem withoutDrive_of_not_drive {path : List Char}
    (h : ∀ letter rest, path = letter :: ':' :: rest → letter.isAlpha = false) :
    withoutDrive path = path := by
  unfold withoutDrive
  split
  · rename_i letter rest
    rw [h letter rest rfl, if_neg Bool.false_ne_true]
  · rfl

/-- **What a path comes down to is names**, made of characters of the path. -/
theorem isName_of_mem_components {path name : String} (h : name ∈ components path) :
    IsName name ∧ ∀ c ∈ name.toList, c ∈ path.toList := by
  -- at the start there are no names, so each one was a piece
  obtain hnil | ⟨p, hp, hempty, hhere, habove, rfl⟩ := mem_foldl_follow (List.mem_reverse.mp h)
  · exact nomatch hnil
  · have hchars := Text.forall_mem_pieces hp
    have hne : ∀ cs : List Char, p ≠ cs → String.ofList p ≠ String.ofList cs :=
      fun cs hpcs heq => hpcs (by simpa using congrArg String.toList heq)
    refine ⟨⟨hne [] hempty, hne _ hhere, hne _ habove, ?separator⟩, ?chars⟩
    case separator =>
      intro c hc
      rw [String.toList_ofList] at hc
      simpa [isSeparator] using (hchars c hc).1
    case chars =>
      intro c hc
      rw [String.toList_ofList] at hc
      exact (withoutDrive_suffix _).subset (hchars c hc).2

/-! ## Section 5: Spelling names out -/

/-- A spelling is a character shorter than the room of its names. -/
theorem length_spelling (names : List String) :
    (spelling names).length = room names - 1 := by
  unfold spelling
  induction names with
  | nil => rfl
  | cons n rest ih =>
    cases rest with
    | nil => simp [room]
    | cons m rest =>
      have hseparator : "\\".length = 1 := rfl
      rw [String.intercalate_cons_cons, String.length_append, String.length_append, ih, hseparator]
      simp only [room]
      omega

/-- **A path needs no more room once it is spelled out.** -/
theorem length_spelling_components (path : String) :
    (spelling (components path)).length ≤ path.length := by
  have hreverse : room (components path) =
      room ((Text.pieces isSeparator (withoutDrive path.toList)).foldl follow []) :=
    Text.room_reverse _
  have hroom := room_foldl_follow_le [] (Text.pieces isSeparator (withoutDrive path.toList))
  have hnone : room [] = 0 := rfl
  have hdrive := (withoutDrive_suffix path.toList).length_le
  rw [Text.room_pieces, hnone] at hroom
  rw [String.length_toList] at hdrive
  rw [length_spelling, hreverse]
  omega

/-- A spelling holds the characters of its names, and backslashes. -/
theorem mem_spelling {names : List String} {c : Char} (h : c ∈ (spelling names).toList) :
    c = '\\' ∨ ∃ n ∈ names, c ∈ n.toList := by
  unfold spelling at h
  induction names with
  | nil => exact nomatch h
  | cons n rest ih =>
    cases rest with
    | nil =>
      rw [String.intercalate_singleton] at h
      exact .inr ⟨n, List.mem_cons_self, h⟩
    | cons m rest =>
      rw [String.intercalate_cons_cons, String.toList_append, String.toList_append,
        List.mem_append, List.mem_append] at h
      rcases h with (hname | hseparator) | hrest
      · exact .inr ⟨n, List.mem_cons_self, hname⟩
      · exact .inl (by simpa using hseparator)
      · rcases ih hrest with hc | ⟨k, hk, hc⟩
        · exact .inl hc
        · exact .inr ⟨k, List.mem_cons_of_mem _ hk, hc⟩

/-- The pieces of a spelling are its names: backslashes cut it, and nothing else does. -/
theorem pieces_spelling {names : List String} (hne : names ≠ []) (h : ∀ n ∈ names, IsName n) :
    Text.pieces isSeparator (spelling names).toList = names.map String.toList := by
  unfold spelling
  induction names with
  | nil => exact absurd rfl hne
  | cons n rest ih =>
    obtain ⟨hn, hrest⟩ := List.forall_mem_cons.mp h
    have hpiece : Text.pieces isSeparator n.toList = [n.toList] := by
      refine Text.pieces_of_not_separator fun c hc => ?_
      simpa [isSeparator] using hn.not_separator c hc
    -- the last name has no backslash behind it
    cases rest with
    | nil => rw [String.intercalate_singleton, hpiece, List.map_singleton]
    | cons m rest =>
      have hcut : (n ++ "\\" ++ "\\".intercalate (m :: rest)).toList =
          n.toList ++ '\\' :: ("\\".intercalate (m :: rest)).toList := by simp
      rw [String.intercalate_cons_cons, hcut, Text.pieces_append_cons rfl, hpiece,
        ih (List.cons_ne_nil m rest) hrest]
      rfl

/-- **Spelling out and reading are inverse.** A spelling of plain names comes down to these names;
    without a colon no part of it is taken for a drive designator. -/
theorem components_spelling {names : List String} (h : ∀ n ∈ names, IsPlainName n) :
    components (spelling names) = names := by
  -- a colon in a spelling would come from a name
  have hdrive : withoutDrive (spelling names).toList = (spelling names).toList := by
    apply withoutDrive_of_not_drive
    intro letter rest heq
    have hcolon : ':' ∈ (spelling names).toList := by simp [heq]
    rcases mem_spelling hcolon with hslash | ⟨n, hn, hc⟩
    · exact absurd hslash (by decide)
    · exact absurd rfl ((h n hn).ne_colon ':' hc)
  have hnames : ∀ n ∈ names, IsName n := fun n hn => (h n hn).toIsName
  by_cases hne : names = []
  · subst hne
    rfl
  · rw [components, hdrive, pieces_spelling hne hnames, foldl_follow_of_isName hnames,
      List.append_nil, List.reverse_reverse]

end GuestPath

end HostDrive

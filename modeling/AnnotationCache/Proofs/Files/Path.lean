/-
  AnnotationCache.Proofs.Files.Path
  ─────────────────────────────────
  **THE NAMES IN A PATH.**

  A path that is made from that of a folder and a name has the names of the
  folder, and then that one.  However many slashes stand at the end of the
  folder's path, they make no difference to its names, except that they ask for
  a folder.

  Main statements:
    * `names_join`        — the names in the path of an item of a folder;
    * `names_withoutEnd`  — the names in a path without the slashes at its end.
-/
import AnnotationCache.Files.Disk

namespace AnnotationCache.Files

namespace Path

/-! ## §1. Pieces. -/

theorem split_slash (rest : List Char) : split ('/' :: rest) = [] :: split rest :=
  if_pos rfl

theorem split_ne_nil (text : List Char) : split text ≠ [] := by
  cases text with
  | nil => exact List.cons_ne_nil _ _
  | cons c rest =>
      rw [split]
      split
      · exact List.cons_ne_nil _ _
      · split <;> exact List.cons_ne_nil _ _

/-- There is always a first piece, and a character goes in front of it. -/
theorem split_cons {c : Char} (hc : c ≠ '/') (rest : List Char) :
    ∃ piece pieces, split rest = piece :: pieces ∧ split (c :: rest) = (c :: piece) :: pieces := by
  obtain ⟨piece, pieces, hrest⟩ := List.exists_cons_of_ne_nil (split_ne_nil rest)
  refine ⟨piece, pieces, hrest, ?_⟩
  rw [split, if_neg hc, hrest]

theorem split_append_slash (front rest : List Char) :
    split (front ++ '/' :: rest) = split front ++ split rest := by
  induction front with
  | nil => exact split_slash rest
  | cons c front ih =>
      by_cases hc : c = '/'
      · subst hc
        rw [List.cons_append, split_slash, split_slash, ih]
        rfl
      · obtain ⟨piece, pieces, hfront, hsplit⟩ := split_cons hc front
        obtain ⟨piece', pieces', hboth, hsplit'⟩ := split_cons hc (front ++ '/' :: rest)
        rw [ih, hfront, List.cons_append] at hboth
        obtain ⟨rfl, rfl⟩ := List.cons.inj hboth
        rw [List.cons_append, hsplit', hsplit]
        rfl

theorem split_of_not_mem {name : List Char} (h : '/' ∉ name) : split name = [name] := by
  induction name with
  | nil => rfl
  | cons c name ih =>
      obtain ⟨hc, hname⟩ := not_or.1 (mt List.mem_cons.2 h)
      obtain ⟨piece, pieces, hsplit, hcons⟩ := split_cons (Ne.symm hc) name
      rw [ih hname] at hsplit
      obtain ⟨rfl, rfl⟩ := List.cons.inj hsplit
      exact hcons

/-- A text that does not end in a slash has something in its last piece. -/
theorem getLast?_split {front : List Char} {c : Char} (hc : c ≠ '/') :
    (split (front ++ [c])).getLast? ≠ some [] := by
  induction front with
  | nil =>
      rw [List.nil_append, split_of_not_mem (by simpa using Ne.symm hc)]
      exact fun h => by cases h
  | cons d front ih =>
      by_cases hd : d = '/'
      · subst hd
        obtain ⟨piece, pieces, hsplit⟩ := List.exists_cons_of_ne_nil (split_ne_nil (front ++ [c]))
        rw [List.cons_append, split_slash, hsplit, List.getLast?_cons_cons, ← hsplit]
        exact ih
      · obtain ⟨piece, pieces, hrest, hsplit⟩ := split_cons hd (front ++ [c])
        rw [List.cons_append, hsplit]
        rw [hrest] at ih
        cases pieces with
        | nil => exact fun h => by cases h
        | cons second pieces =>
            rw [List.getLast?_cons_cons] at ih ⊢
            exact ih

/-- Slashes have nothing between them. -/
theorem mem_split_slashes {slashes : List Char} (h : ∀ c ∈ slashes, c = '/') :
    ∀ piece ∈ split slashes, piece = [] := by
  induction slashes with
  | nil => exact fun piece hpiece => List.mem_singleton.1 hpiece
  | cons c slashes ih =>
      obtain ⟨rfl, hrest⟩ := List.forall_mem_cons.1 h
      rw [split_slash]
      exact List.forall_mem_cons.2 ⟨rfl, ih hrest⟩

end Path

namespace Disk

/-! ## §2. The names in a path. -/

/-- The names in a path, but not the one that a slash at the end stands for. -/
def plainNames (path : String) : List String :=
  (Path.pieces path).filter (· ≠ "")

/-- A slash at the end asks for a folder. -/
theorem names_eq (path : String) :
    names path = plainNames path ∨ names path = plainNames path ++ ["."] := by
  unfold names plainNames
  dsimp only
  split
  · exact .inr rfl
  · exact .inl (List.append_nil _)

theorem names_of_getLast? {path : String} (h : (Path.split path.toList).getLast? ≠ some []) :
    names path = plainNames path := by
  unfold names plainNames
  dsimp only
  rw [if_neg, List.append_nil]
  intro hlast
  apply h
  unfold Path.pieces at hlast
  rw [List.getLast?_map] at hlast
  obtain ⟨piece, hpiece, hempty⟩ := Option.map_eq_some_iff.1 hlast
  rw [hpiece, String.ofList_eq_empty_iff.1 hempty]

/-- Slashes at the end of a path add no names. -/
theorem plainNames_append_slashes (path : String) {slashes : List Char}
    (h : ∀ c ∈ slashes, c = '/') : plainNames (path ++ String.ofList slashes) = plainNames path := by
  cases slashes with
  | nil => simp
  | cons c slashes =>
      obtain ⟨rfl, hrest⟩ := List.forall_mem_cons.1 h
      unfold plainNames Path.pieces
      rw [String.toList_append, String.toList_ofList, Path.split_append_slash, List.map_append,
        List.filter_append]
      have hnone : ((Path.split slashes).map String.ofList).filter (· ≠ "") = [] := by
        rw [List.filter_eq_nil_iff]
        intro name hname
        obtain ⟨piece, hpiece, rfl⟩ := List.mem_map.1 hname
        rw [Path.mem_split_slashes hrest piece hpiece]
        decide
      rw [hnone, List.append_nil]

/-! ## §3. Items of a folder. -/

/-- **A name that an item of a folder may have.** -/
structure PlainName (name : String) : Prop where
  nonempty : name ≠ ""
  slash : '/' ∉ name.toList
  nul : '\x00' ∉ name.toList
  point : name ≠ "."
  points : name ≠ ".."
  short : name.utf8ByteSize ≤ 255

variable {folder name : String}

theorem pieces_eq (hname : PlainName name) : Path.pieces name = [name] := by
  unfold Path.pieces
  rw [Path.split_of_not_mem hname.slash]
  simp

/-- Seen as a path, such a name is that of a file. -/
theorem fileName?_eq (hname : PlainName name) : Path.fileName? name = some name := by
  have hsteps : Path.steps name = [⟨name, "" ++ name⟩] := by
    unfold Path.steps
    rw [pieces_eq hname]
    simp [Path.stepsAfter, hname.nonempty]
  unfold Path.fileName?
  rw [hsteps]
  simp [hname.point, hname.points]

/-- It is the only name in that path. -/
theorem names_plainName (hname : PlainName name) : names name = [name] := by
  unfold names
  rw [pieces_eq hname]
  simp [hname.nonempty]

/-- The path does not start at the root. -/
theorem isAbsolute_plainName (hname : PlainName name) : Path.isAbsolute name = false := by
  unfold Path.isAbsolute
  cases hchars : name.toList with
  | nil => rfl
  | cons c rest =>
      have hc : c ≠ '/' := fun heq => hname.slash (hchars ▸ heq ▸ List.mem_cons_self)
      simpa using hc

/-- What follows the last point of a name is its extension. -/
theorem extension?_eq (hname : PlainName name) {front extension : List Char}
    (hsplit : name.toList = front ++ '.' :: extension) (hfront : front ≠ [])
    (hpoint : '.' ∉ extension) : Path.extension? name = some (String.ofList extension) := by
  have hafter : (name.toList.reverse.takeWhile (· ≠ '.')).reverse = extension := by
    have hnone : ∀ c ∈ extension.reverse, decide (c ≠ '.') = true := fun c hc =>
      decide_eq_true fun heq => hpoint (heq ▸ List.mem_reverse.1 hc)
    rw [hsplit, List.reverse_append, List.reverse_cons, List.append_assoc,
      List.takeWhile_append_of_pos hnone, List.singleton_append,
      List.takeWhile_cons_of_neg (by decide), List.append_nil, List.reverse_reverse]
  have hbefore : ¬ (name.toList.take (name.toList.length - extension.length)).length ≤ 1 := by
    have hlength := congrArg List.length hsplit
    rw [List.length_append, List.length_cons] at hlength
    have hpos := List.length_pos_iff.2 hfront
    rw [List.length_take]
    omega
  unfold Path.extension?
  rw [fileName?_eq hname]
  simp only [Option.bind_eq_bind, Option.bind_some, hafter, if_neg hbefore]

/-- The path of an item is that of the folder, at most one slash, and the name. -/
theorem join_eq (hname : PlainName name) (hfolder : folder ≠ "") :
    (∃ above, folder = above ++ "/" ∧ Path.join folder name = above ++ "/" ++ name)
      ∨ Path.join folder name = folder ++ "/" ++ name := by
  have hrelative := isAbsolute_plainName hname
  have hnonempty : folder.toList ≠ [] := mt String.toList_eq_nil_iff.1 hfolder
  unfold Path.join
  rw [if_neg (by rw [hrelative]; exact Bool.false_ne_true)]
  rcases List.eq_nil_or_concat folder.toList with hnil | ⟨above, c, hchars⟩
  · exact absurd hnil hnonempty
  · rw [List.concat_eq_append] at hchars
    rw [hchars, List.getLast?_append]
    by_cases hc : c = '/'
    · left
      subst hc
      have hsplit : folder = String.ofList above ++ "/" := by
        apply String.toList_inj.1
        rw [hchars, String.toList_append, String.toList_ofList]
        rfl
      exact ⟨String.ofList above, hsplit, congrArg (· ++ name) hsplit⟩
    · right
      split
      next heq => simp at heq
      next heq => exact absurd (by simpa using heq) hc
      next => rfl

/-- So it starts with that of the folder. -/
theorem join_eq_append (hname : PlainName name) (hfolder : folder ≠ "") :
    ∃ rest, Path.join folder name = folder ++ rest := by
  rcases join_eq hname hfolder with ⟨above, rfl, hjoin⟩ | hjoin
  · exact ⟨name, hjoin⟩
  · exact ⟨"/" ++ name, by rw [hjoin, String.append_assoc]⟩

/-- **The names in the path of an item** are those of the folder and its own. -/
theorem names_join (hname : PlainName name) (hfolder : folder ≠ "") :
    names (Path.join folder name) = plainNames folder ++ [name] := by
  have hpieces : ∀ above : String,
      Path.pieces (above ++ "/" ++ name) = Path.pieces above ++ [name] := by
    intro above
    unfold Path.pieces
    have hchars : (above ++ "/" ++ name).toList = above.toList ++ '/' :: name.toList := by simp
    rw [hchars, Path.split_append_slash, Path.split_of_not_mem hname.slash, List.map_append]
    simp
  have hnames : ∀ above : String,
      names (above ++ "/" ++ name) = plainNames above ++ [name] := by
    intro above
    unfold names plainNames
    rw [hpieces above]
    simp [hname.nonempty]
  rcases join_eq hname hfolder with ⟨above, rfl, hjoin⟩ | hjoin
  · have hslash : plainNames (above ++ "/") = plainNames above :=
      @plainNames_append_slashes above ['/'] fun c hc => List.mem_singleton.1 hc
    rw [hjoin, hnames above, hslash]
  · rw [hjoin, hnames folder]

theorem isAbsolute_append {path : String} (h : path ≠ "") (rest : String) :
    Path.isAbsolute (path ++ rest) = Path.isAbsolute path := by
  unfold Path.isAbsolute
  rw [String.toList_append]
  cases hchars : path.toList with
  | nil => exact absurd (String.toList_eq_nil_iff.1 hchars) h
  | cons c chars => rfl

theorem isAbsolute_join (hname : PlainName name) (hfolder : folder ≠ "") :
    Path.isAbsolute (Path.join folder name) = Path.isAbsolute folder := by
  rcases join_eq hname hfolder with ⟨above, rfl, hjoin⟩ | hjoin
  · rw [hjoin, isAbsolute_append hfolder]
  · rw [hjoin, String.append_assoc, isAbsolute_append hfolder]

/-- The path of an item does not end in a slash. -/
theorem getLast?_join (hname : PlainName name) (hfolder : folder ≠ "") :
    (Path.join folder name).toList.getLast? ≠ some '/' := by
  have hlast : ∀ above : String, (above ++ name).toList.getLast? ≠ some '/' := by
    intro above hlast
    rw [String.toList_append, List.getLast?_append] at hlast
    cases hchars : name.toList.getLast? with
    | none => exact hname.nonempty (String.toList_eq_nil_iff.1 (List.getLast?_eq_none_iff.1 hchars))
    | some c =>
        rw [hchars] at hlast
        exact hname.slash (List.mem_of_getLast? (hchars.trans hlast))
  rcases join_eq hname hfolder with ⟨above, -, hjoin⟩ | hjoin
  · rw [hjoin]
    exact hlast (above ++ "/")
  · rw [hjoin]
    exact hlast (folder ++ "/")

/-- The path of an item has the characters of the folder's path, a slash and those
of the name. -/
theorem mem_toList_join (hname : PlainName name) (hfolder : folder ≠ "") {c : Char}
    (h : c ∈ (Path.join folder name).toList) : c ∈ folder.toList ∨ c = '/' ∨ c ∈ name.toList := by
  rcases join_eq hname hfolder with ⟨above, rfl, hjoin⟩ | hjoin
  · rw [hjoin, String.toList_append, List.mem_append] at h
    rcases h with h | h
    · exact .inl h
    · exact .inr (.inr h)
  · rw [hjoin, String.toList_append, String.toList_append, List.mem_append, List.mem_append] at h
    rcases h with (h | h) | h
    · exact .inl h
    · exact .inr (.inl (List.mem_singleton.1 h))
    · exact .inr (.inr h)

/-! ## §4. Slashes at the end. -/

theorem withoutEnd_of_slashes {path : String}
    (h : path.toList.reverse.dropWhile (· = '/') = []) :
    withoutEnd path = if Path.isAbsolute path then "/" else "" := by
  unfold withoutEnd
  rw [h]
  rfl

theorem withoutEnd_of_kept {path : String} {c : Char} {kept : List Char}
    (h : path.toList.reverse.dropWhile (· = '/') = c :: kept) :
    withoutEnd path = String.ofList (kept.reverse ++ [c]) := by
  unfold withoutEnd
  rw [h, List.reverse_cons]
  split
  next hnil => simp at hnil
  next => rfl

/-- Of slashes alone one stays. -/
theorem withoutEnd_slashes {rest : List Char} (hrest : ∀ c ∈ rest, c = '/') :
    withoutEnd (String.ofList ('/' :: rest)) = "/" := by
  have hchars : (String.ofList ('/' :: rest)).toList = '/' :: rest := String.toList_ofList
  have habsolute : Path.isAbsolute (String.ofList ('/' :: rest)) = true := by
    unfold Path.isAbsolute
    rw [hchars]
    rfl
  have hnone : (String.ofList ('/' :: rest)).toList.reverse.dropWhile (· = '/') = [] := by
    rw [hchars, ← List.append_nil ('/' :: rest).reverse, List.dropWhile_append_of_pos]
    · rfl
    · intro c hc
      rcases List.mem_cons.1 (List.mem_reverse.1 hc) with rfl | hc
      · rfl
      · exact decide_eq_true (hrest c hc)
  rw [withoutEnd_of_slashes hnone, if_pos habsolute]

/-- What is taken from the end of a path are slashes; of the root's path one stays. -/
theorem withoutEnd_eq {path : String} (h : path ≠ "") :
    ∃ slashes : List Char, (∀ c ∈ slashes, c = '/')
      ∧ path = withoutEnd path ++ String.ofList slashes
      ∧ (withoutEnd path = "/"
        ∨ ∃ front c, c ≠ '/' ∧ (withoutEnd path).toList = front ++ [c]) := by
  have hcut := List.takeWhile_append_dropWhile (p := (· = '/')) (l := path.toList.reverse)
  have hslashes : ∀ c ∈ path.toList.reverse.takeWhile (· = '/'), c = '/' := fun c hc =>
    of_decide_eq_true (List.all_eq_true.1 List.all_takeWhile c hc)
  have hlast := List.head?_dropWhile_not (fun c => decide (c = '/')) path.toList.reverse
  cases hchars : path.toList.reverse.dropWhile (· = '/') with
  | nil =>
      rw [hchars, List.append_nil] at hcut
      have hall : ∀ c ∈ path.toList, c = '/' := by
        intro c hc
        apply hslashes
        rw [hcut]
        exact List.mem_reverse.2 hc
      cases htext : path.toList with
      | nil => exact absurd (String.toList_eq_nil_iff.1 htext) h
      | cons c rest =>
          rw [htext] at hall
          obtain ⟨rfl, hrest⟩ := List.forall_mem_cons.1 hall
          obtain rfl : path = String.ofList ('/' :: rest) := by
            rw [← htext, String.ofList_toList]
          refine ⟨rest, hrest, ?_, .inl (withoutEnd_slashes hrest)⟩
          rw [withoutEnd_slashes hrest]
          apply String.toList_inj.1
          simp
  | cons c kept =>
      rw [hchars] at hcut hlast
      have hc : c ≠ '/' := of_decide_eq_false hlast
      -- The characters were looked at from the end, so what is kept is turned around.
      rw [withoutEnd_of_kept hchars]
      refine ⟨_, fun d hd => hslashes d (List.mem_reverse.1 hd), ?_,
        .inr ⟨kept.reverse, c, hc, String.toList_ofList⟩⟩
      apply String.toList_inj.1
      have hboth := congrArg List.reverse hcut
      rw [List.reverse_append, List.reverse_reverse, List.reverse_cons] at hboth
      rw [String.toList_append, String.toList_ofList, String.toList_ofList]
      exact hboth.symm

/-- **The names in a path without the slashes at its end**: nothing asks for a
folder then, unless it is the root. -/
theorem names_withoutEnd {path : String} (h : path ≠ "") :
    withoutEnd path = "/" ∨ names (withoutEnd path) = plainNames path := by
  obtain ⟨slashes, hslashes, hpath, hroot | ⟨front, c, hc, hchars⟩⟩ := withoutEnd_eq h
  · exact .inl hroot
  · right
    have hplain : plainNames path = plainNames (withoutEnd path) :=
      (congrArg plainNames hpath).trans (plainNames_append_slashes _ hslashes)
    rw [hplain]
    apply names_of_getLast?
    rw [hchars]
    exact Path.getLast?_split hc

theorem withoutEnd_ne_empty {path : String} (h : path ≠ "") : withoutEnd path ≠ "" := by
  obtain ⟨-, -, -, hroot | ⟨front, c, -, hchars⟩⟩ := withoutEnd_eq h
  · rw [hroot]
    decide
  · intro hempty
    rw [hempty] at hchars
    simp at hchars

theorem isAbsolute_withoutEnd {path : String} (h : path ≠ "") :
    Path.isAbsolute (withoutEnd path) = Path.isAbsolute path := by
  obtain ⟨slashes, -, hpath, -⟩ := withoutEnd_eq h
  conv => rhs; rw [hpath]
  exact (isAbsolute_append (withoutEnd_ne_empty h) _).symm

/-- All that is missing are slashes. -/
theorem mem_toList_withoutEnd {path : String} (h : path ≠ "") {c : Char}
    (hc : c ∈ path.toList) : c ∈ (withoutEnd path).toList ∨ c = '/' := by
  obtain ⟨slashes, hslashes, hpath, -⟩ := withoutEnd_eq h
  rw [hpath, String.toList_append, String.toList_ofList, List.mem_append] at hc
  exact hc.imp_right (hslashes c)

/-- A plain name has no slash at its end. -/
theorem withoutEnd_plainName {name : String} (hname : PlainName name) : withoutEnd name = name := by
  obtain ⟨slashes, hslashes, hpath, -⟩ := withoutEnd_eq hname.nonempty
  cases slashes with
  | nil =>
      conv => rhs; rw [hpath]
      simp
  | cons c slashes =>
      have hmem : '/' ∈ name.toList := by
        obtain rfl : c = '/' := hslashes c List.mem_cons_self
        rw [hpath, String.toList_append, String.toList_ofList]
        exact List.mem_append_right _ List.mem_cons_self
      exact absurd hmem hname.slash

theorem withoutEnd_prefix {path : String} (h : path ≠ "") :
    ∃ rest, path = withoutEnd path ++ rest := by
  obtain ⟨slashes, -, hpath, -⟩ := withoutEnd_eq h
  exact ⟨_, hpath⟩

end Disk

end AnnotationCache.Files

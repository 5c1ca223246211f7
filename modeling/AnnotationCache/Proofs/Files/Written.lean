/-
  AnnotationCache.Proofs.Files.Written
  ────────────────────────────────────
  **WHAT WAS WRITTEN IS THERE.**

  A file that was written at a path is found at that path again, and can be
  written there again, as writing it has kept all folders and links.  A folder
  that was made is one that its path leads to, whether it was there before or
  is new.

  Main statements:
    * `Takes.readText_put`   — a text that was written is what is read;
    * `Takes.put`            — where a file was written one may be written again;
    * `leads_of_makeFolders` — the path of a folder that was made leads to it;
    * `grows_of_makeFolders` — making folders changes nothing that was there;
    * `Grows.find_eq`        — a file is found as it was where all that was there is.
-/
import AnnotationCache.Proofs.Files.Folder

namespace AnnotationCache.Files.Disk

variable {d made : Disk} {path folder : String} {loc : Location} {item : Item}

/-! ## §1. Files. -/

theorem Free.ne_nil (h : d.Free loc) : loc ≠ [] := by
  rintro rfl
  exact h.not_folder ⟨0, rfl⟩

/-- A path that leads somewhere can be followed. -/
theorem followed_of_located {f : Bool} (h : d.locate path f = .ok loc) : Followed path := by
  apply followed_of_locate _ (.inl ⟨loc, h⟩)
  rintro rfl
  cases h

/-- **A path that leads to where no link is leads there still** once other folders
and links were kept. -/
theorem Keeps.locate_eq {d' : Disk} (h : d.Keeps d') (hthere : d'.target? loc = none)
    (hlocate : d.locate path true = .ok loc) : d'.locate path true = .ok loc := by
  have hfollowed := followed_of_located hlocate
  have hstart : d'.startAt path = d.startAt path := by
    unfold startAt
    rw [h.current]
  rw [hfollowed.locate_eq] at hlocate ⊢
  rw [hstart]
  exact h.walk_eq hthere maxLinks _ _ hlocate

/-- **Can a file be written at a path?**  The path leads to a place where a file or
nothing is. -/
structure Takes (d : Disk) (path : String) (loc : Location) : Prop where
  writable : d.writable path = .ok loc
  free : d.Free loc

/-- What it takes for a file to be written. -/
theorem writable_ok (h : d.writable path = .ok loc) :
    path.toList.getLast? ≠ some '/' ∧ d.locate path true = .ok loc := by
  unfold writable at h
  by_cases hslash : path.toList.getLast? = some '/'
  · rw [if_pos hslash] at h
    cases h
  · rw [if_neg hslash] at h
    refine ⟨hslash, ?_⟩
    cases hlocate : d.locate path true with
    | error e =>
        rw [hlocate] at h
        cases h
    | ok there =>
        rw [hlocate] at h
        dsimp only [bind, Except.bind] at h
        split at h
        next => cases h
        next => exact congrArg Except.ok (Except.ok.inj h)
        next =>
          split at h
          next => exact congrArg Except.ok (Except.ok.inj h)
          next => cases h

namespace Takes

variable (h : d.Takes path loc) (content : Content) (modified : Int)

include h

/-- A file that is written keeps folders and links. -/
theorem keeps : d.Keeps (d.put loc (.file content modified)) :=
  h.free.keeps_put h.free.ne_nil _

theorem item?_put_self :
    (d.put loc (.file content modified)).item? loc = some (.file content modified) :=
  (item?_put h.free.ne_nil loc).trans (if_pos rfl)

/-- Its path leads to where it was written. -/
theorem locate_put : (d.put loc (.file content modified)).locate path true = .ok loc :=
  (h.keeps content modified).locate_eq
    (Free.target?_eq_none (.inr ⟨content, modified, h.item?_put_self content modified⟩))
    (writable_ok h.writable).2

/-- **What is read at the path is the text that was written.** -/
theorem readText_put (text : String) :
    (d.put loc (.file (.text text) modified)).readText path = .ok text := by
  unfold readText find
  rw [h.locate_put]
  dsimp only [bind, Except.bind]
  rw [h.item?_put_self]
  rfl

/-- **A file may be written there again.** -/
theorem put : (d.put loc (.file content modified)).Takes path loc where
  writable := by
    unfold Disk.writable
    rw [if_neg (writable_ok h.writable).1, h.locate_put]
    dsimp only [bind, Except.bind]
    rw [h.item?_put_self]
    rfl
  free := .inr ⟨content, modified, h.item?_put_self content modified⟩

theorem writeContent_eq : d.writeContent path content = .ok (d.put loc (.file content d.now)) := by
  unfold writeContent
  rw [h.writable]
  rfl

end Takes

/-! ## §2. Folders. -/

/-- What it takes for a folder to be made. -/
theorem makeFolder_ok (h : d.makeFolder folder = .ok made) :
    ∃ loc, d.locate (withoutEnd folder) false = .ok loc ∧ d.item? loc = none
      ∧ made = d.put loc (.folder d.now) := by
  unfold makeFolder at h
  cases hlocate : d.locate (withoutEnd folder) false with
  | error e =>
      rw [hlocate] at h
      cases h
  | ok loc =>
      rw [hlocate] at h
      cases hitem : d.item? loc with
      | some item =>
          simp only [bind, Except.bind, hitem] at h
          cases h
      | none =>
          simp only [bind, Except.bind, hitem] at h
          exact ⟨loc, rfl, hitem, (Except.ok.inj h).symm⟩

/-- A folder that its names lead to is one that its path leads to, slashes at the
end included. -/
theorem leads_of_walk (hfollowed : Followed folder) (hfolder : d.IsFolder loc)
    (h : d.walk true maxLinks (d.trail (d.startAt folder)) (plainNames folder) = .ok loc) :
    d.Leads folder loc := by
  have hnonempty := hfollowed.nonempty
  refine ⟨hnonempty, ?_, hfolder⟩
  rw [hfollowed.locate_eq]
  rcases names_eq folder with hnames | hnames
  · rw [hnames]
    exact h
  · rw [hnames]
    rcases d.walk_append true maxLinks (d.startAt folder) (plainNames folder)
        (List.cons_ne_nil "." []) with ⟨e, hfront, -⟩ | ⟨there, fewer, hfront, hboth⟩
    · cases hfront.symm.trans h
    · obtain rfl : there = loc := Except.ok.inj (hfront.symm.trans h)
      rw [hboth, walk_moved (move_point hfolder) rfl, walk_nil]

/-- **The path of a new folder leads to it**, unless the path is too long to be
followed. -/
theorem leads_of_makeFolder (hfollowed : Followed folder) (h : d.makeFolder folder = .ok made) :
    ∃ loc, made.Leads folder loc := by
  obtain ⟨loc, hlocate, hnone, rfl⟩ := makeFolder_ok h
  have hfree : d.Free loc := .inl hnone
  have hnonempty := hfollowed.nonempty
  have hnames : names (withoutEnd folder) = plainNames folder := by
    rcases names_withoutEnd hnonempty with hroot | hnames
    · cases (makeFolder_of_root hroot).symm.trans h
    · exact hnames
  have hkeeps := hfree.keeps_put hfree.ne_nil (.folder d.now)
  have hfolder : (d.put loc (.folder d.now)).IsFolder loc :=
    ⟨d.now, (item?_put hfree.ne_nil loc).trans (if_pos rfl)⟩
  have hspared := (followed_withoutEnd hfollowed).locate_eq d false
  rw [hlocate, hnames, startAt_withoutEnd hnonempty] at hspared
  -- Nothing was there, so no link was spared.
  have hwalk : d.walk true maxLinks (d.trail (d.startAt folder)) (plainNames folder) = .ok loc := by
    rcases d.walk_of_unfollowed maxLinks (d.startAt folder) (plainNames folder)
      with hsame | ⟨there, target, hthere, hlink⟩
    · exact hsame.symm.trans hspared.symm
    · obtain rfl : there = loc := Except.ok.inj (hthere.symm.trans hspared.symm)
      cases hnone.symm.trans hlink
  exact ⟨loc, leads_of_walk hfollowed hfolder
    (hkeeps.walk_eq hfolder.target?_eq_none maxLinks _ _ hwalk)⟩

/-- **What making the first of some folders can do**, if it succeeds: where those above
it were made, if they were asked for, it is new, or it is there. -/
theorem makeChain_ok {above : List String} {left : Disk} (hfolder : folder ≠ "")
    (h : d.makeChain (folder :: above) = (.ok made, left)) :
    left = made ∧ ∃ before, (before = d ∨ ∃ rest, d.makeChain above = (.ok before, rest))
      ∧ (before.makeFolder folder = .ok made ∨ (before = made ∧ made.kind folder = some .folder)) := by
  have hsettled : ∀ (failure : FileError) (before : Disk),
      (if before.kind folder = some .folder then ((.ok before, before) : Except FileError Disk × Disk)
        else (.error failure, before)) = (.ok made, left) →
      left = made ∧ before = made ∧ made.kind folder = some .folder := by
    intro failure before hif
    split at hif
    next hkind =>
      cases hif
      exact ⟨rfl, rfl, hkind⟩
    next => cases hif
  unfold makeChain at h
  rw [if_neg (by simpa using hfolder)] at h
  split at h
  next made' hmake =>
    cases h
    exact ⟨rfl, d, .inl rfl, .inl hmake⟩
  next hmake =>
    -- The folders above it are asked for.
    split at h
    next before rest habove =>
      split at h
      next made' hmake' =>
        cases h
        exact ⟨rfl, before, .inr ⟨rest, habove⟩, .inl hmake'⟩
      next failure _ =>
        obtain ⟨hleft, hthere, hkind⟩ := hsettled failure before h
        exact ⟨hleft, before, .inr ⟨rest, habove⟩, .inr ⟨hthere, hkind⟩⟩
    next => cases h
  next failure _ _ =>
    obtain ⟨hleft, hthere, hkind⟩ := hsettled failure d h
    exact ⟨hleft, d, .inl rfl, .inr ⟨hthere, hkind⟩⟩

/-- What is left after a folder was made is what making it and those above it gave. -/
theorem makeFolders_ok (h : d.makeFolders folder = (.ok ⟨⟩, made)) :
    ∃ left, d.makeChain (Path.ancestors folder) = (.ok made, left) := by
  unfold makeFolders at h
  split at h
  next made' left hchain =>
    cases h
    exact ⟨left, hchain⟩
  next => cases h

/-- **The path of a folder that was made leads to it.** -/
theorem leads_of_makeFolders (hfollowed : Followed folder)
    (h : d.makeFolders folder = (.ok ⟨⟩, made)) : ∃ loc, made.Leads folder loc := by
  obtain ⟨above, hancestors⟩ := ancestors_cons folder
  obtain ⟨left, hchain⟩ := makeFolders_ok h
  rw [hancestors] at hchain
  obtain ⟨-, before, -, hnew | ⟨rfl, hkind⟩⟩ := makeChain_ok hfollowed.nonempty hchain
  · exact leads_of_makeFolder hfollowed hnew
  · exact leads_of_kind hfollowed.nonempty hkind

/-- A file can be written in a folder that is there, under a name that a file or nothing
has. -/
theorem Leads.takes {name : String} (h : d.Leads folder loc) (hname : PlainName name)
    (hshort : (Path.join folder name).utf8ByteSize < 4096) (hfree : d.Free (loc ++ [name])) :
    d.Takes (Path.join folder name) (loc ++ [name]) :=
  ⟨h.writable_eq hname hshort hfree, hfree⟩

/-- **A folder in which a file was written need not be made again**, the current one
included, which has the empty path. -/
theorem Takes.makeFolders_put {name : String} (hname : PlainName name)
    (h : made.Takes (Path.join folder name) loc) (hmake : d.makeFolders folder = (.ok ⟨⟩, made))
    (content : Content) (modified : Int) :
    (made.put loc (.file content modified)).makeFolders folder
      = (.ok ⟨⟩, made.put loc (.file content modified)) := by
  by_cases hfolder : folder = ""
  · subst hfolder
    rfl
  · have hfollowed := followed_of_join hfolder hname (followed_of_located (writable_ok h.writable).2)
    obtain ⟨there, hleads⟩ := leads_of_makeFolders hfollowed hmake
    exact (hleads.keeps (h.keeps content modified)).makeFolders_eq

/-! ## §3. What was there before. -/

/-- **Does a second disk have all that a first one has?** -/
structure Grows (d d' : Disk) : Prop where
  current : d'.current = d.current
  kept : ∀ loc item, d.item? loc = some item → d'.item? loc = some item

theorem Grows.refl (d : Disk) : d.Grows d :=
  ⟨rfl, fun _ _ h => h⟩

theorem Grows.trans {d' d'' : Disk} (h : d.Grows d') (h' : d'.Grows d'') : d.Grows d'' :=
  ⟨h'.current.trans h.current, fun loc item hitem => h'.kept loc item (h.kept loc item hitem)⟩

theorem grows_of_makeFolder (h : d.makeFolder folder = .ok made) : d.Grows made := by
  obtain ⟨loc, -, hnone, rfl⟩ := makeFolder_ok h
  refine ⟨rfl, fun other item hitem => ?_⟩
  have hfree : d.Free loc := .inl hnone
  have hne : other ≠ loc := by
    rintro rfl
    cases hnone.symm.trans hitem
  exact ((item?_put hfree.ne_nil other).trans (if_neg hne)).trans hitem

theorem grows_of_makeChain {paths : List String} {left : Disk}
    (h : d.makeChain paths = (.ok made, left)) : d.Grows made := by
  induction paths generalizing made left with
  | nil => cases h
  | cons folder above ih =>
      by_cases hfolder : folder = ""
      · subst hfolder
        cases h
        exact Grows.refl d
      · obtain ⟨-, before, hbefore, hlast⟩ := makeChain_ok hfolder h
        have hgrows : d.Grows before := by
          rcases hbefore with rfl | ⟨rest, habove⟩
          · exact Grows.refl before
          · exact ih habove
        rcases hlast with hnew | ⟨rfl, -⟩
        · exact hgrows.trans (grows_of_makeFolder hnew)
        · exact hgrows

/-- **Making folders changes nothing that was there.** -/
theorem grows_of_makeFolders (h : d.makeFolders folder = (.ok ⟨⟩, made)) : d.Grows made := by
  obtain ⟨left, hchain⟩ := makeFolders_ok h
  exact grows_of_makeChain hchain

/-- What has all that was there has all folders and links. -/
theorem Grows.keeps {d' : Disk} (h : d.Grows d') : d.Keeps d' where
  current := h.current
  folder loc hfolder := by
    obtain ⟨modified, hitem⟩ := hfolder
    exact ⟨modified, h.kept loc _ hitem⟩
  link loc target hlink := h.kept loc _ hlink

/-! ## §4. Files that stay. -/

/-- The file that a path leads to, if it leads to one. -/
theorem find_of_kind (h : d.kind path = some .file) :
    ∃ loc content modified, d.find path true = .ok (loc, .file content modified) := by
  unfold kind at h
  cases hfind : d.find path true with
  | error e =>
      rw [hfind] at h
      cases h
  | ok found =>
      obtain ⟨loc, item⟩ := found
      rw [hfind] at h
      cases item with
      | file content modified => exact ⟨loc, content, modified, rfl⟩
      | folder modified => cases h
      | link target => cases h

/-- **A file that stays in its place is what its path leads to**, where folders and links
are kept. -/
theorem Keeps.find_file {d' : Disk} {content : Content} {modified : Int} (h : d.Keeps d')
    (hfind : d.find path true = .ok (loc, .file content modified))
    (hitem : d'.item? loc = some (.file content modified)) :
    d'.find path true = .ok (loc, .file content modified) := by
  obtain ⟨hlocate, -⟩ := find_ok hfind
  have hlocate' : d'.locate path true = .ok loc :=
    h.locate_eq (Free.target?_eq_none (.inr ⟨content, modified, hitem⟩)) hlocate
  unfold find
  rw [hlocate']
  dsimp only [bind, Except.bind]
  rw [hitem]
  rfl

/-- **A file that was there is found as it was.** -/
theorem Grows.find_eq {d' : Disk} (h : d.Grows d') (hfile : d.kind path = some .file) :
    d'.find path true = d.find path true := by
  obtain ⟨loc, content, modified, hfind⟩ := find_of_kind hfile
  obtain ⟨-, hitem⟩ := find_ok hfind
  rw [hfind]
  exact h.keeps.find_file hfind (h.kept loc _ hitem)

section Found

variable {d' : Disk} (h : d'.find path true = d.find path true)

include h

/-- What is found alike is of one kind, -/
theorem kind_congr : d'.kind path = d.kind path := by
  unfold kind
  rw [h]

/-- has one text, -/
theorem readText_congr : d'.readText path = d.readText path := by
  unfold readText
  rw [h]

/-- and one time. -/
theorem modified_congr : d'.modified path = d.modified path := by
  unfold modified
  rw [h]

end Found

end AnnotationCache.Files.Disk

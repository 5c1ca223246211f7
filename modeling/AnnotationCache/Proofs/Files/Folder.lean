/-
  AnnotationCache.Proofs.Files.Folder
  ───────────────────────────────────
  **THE FILES OF ONE FOLDER.**

  As long as a path leads to a folder, an item of that folder is reached by the
  path of the folder and the name of the item, and what is asked of it is told
  by the item at its place.  Writing and removing files keeps all folders and
  links, so the path goes on leading there.

  Main statements:
    * `Leads.locate_join` — where the path of an item leads;
    * `Leads.keeps`       — a path goes on leading to a folder;
    * `listing_put`, `listing_drop` — what a folder lists after a change;
    * `item?_dropAll`     — what is there after some of its items were dropped;
    * `mem_listing_iff`   — what a folder lists is what is in it;
    * `leads_or_missing`  — before a folder is made, it is there, or nothing can be
      read in it (`Missing.readText_join`).
-/
import AnnotationCache.Proofs.Files.Path
import AnnotationCache.Proofs.Files.Walk

namespace AnnotationCache.Files

/-! ## §1. Changes of one item. -/

namespace Tree

variable {α : Type}

theorem update_append (change : Tree α → Tree α) (loc rest : Location) (t : Tree α) :
    t.update change (loc ++ rest) = t.update (fun part => part.update change rest) loc := by
  induction loc generalizing t with
  | nil => rfl
  | cons name loc ih => rw [List.cons_append, update, update, ih]

/-- A change of an item is a change of one branch of the folder. -/
theorem part_update_concat (change : Tree α → Tree α) (loc : Location) (name : String) (t : Tree α) :
    (t.update change (loc ++ [name])).part loc
      = (t.part loc).setBranch name (change ((t.part loc).branch name)) := by
  rw [update_append, part_update]
  rfl

end Tree

namespace Disk

variable {d : Disk} {loc : Location} {name : String} {item : Item}

theorem item?_put (h : loc ≠ []) (other : Location) :
    (d.put loc item).item? other = if other = loc then some item else d.item? other := by
  unfold item? put
  by_cases hroot : other = []
  · rw [if_pos hroot, if_pos hroot, if_neg (hroot ▸ Ne.symm h)]
  · rw [if_neg hroot, if_neg hroot, Tree.get?_put]

theorem item?_drop (h : loc ≠ []) (other : Location) :
    (d.drop loc).item? other = if other = loc then none else d.item? other := by
  unfold item? drop
  by_cases hroot : other = []
  · rw [if_pos hroot, if_pos hroot, if_neg (hroot ▸ Ne.symm h)]
  · rw [if_neg hroot, if_neg hroot, Tree.get?_drop]

/-- Is there a file at a place, or nothing? -/
def Free (d : Disk) (loc : Location) : Prop :=
  d.item? loc = none ∨ ∃ content modified, d.item? loc = some (.file content modified)

theorem Free.not_folder (h : d.Free loc) : ¬ d.IsFolder loc := by
  rintro ⟨modified, hfolder⟩
  rcases h with hnone | ⟨content, time, hfile⟩
  · rw [hnone] at hfolder
    cases hfolder
  · rw [hfile] at hfolder
    cases hfolder

theorem Free.target?_eq_none (h : d.Free loc) : d.target? loc = none := by
  unfold target?
  rcases h with hnone | ⟨content, time, hfile⟩
  · rw [hnone]
  · rw [hfile]

/-- **A change where there is no folder and no link keeps them all.** -/
theorem Free.keeps {d' : Disk} (h : d.Free loc) (hcurrent : d'.current = d.current)
    (hothers : ∀ other, other ≠ loc → d'.item? other = d.item? other) : d.Keeps d' where
  current := hcurrent
  folder other hfolder := by
    obtain ⟨modified, hitem⟩ := hfolder
    have hne : other ≠ loc := fun heq => h.not_folder (heq ▸ ⟨modified, hitem⟩)
    exact ⟨modified, (hothers other hne).trans hitem⟩
  link other target hlink := by
    have hne : other ≠ loc := by
      rintro rfl
      have hnone := h.target?_eq_none
      rw [target?_eq_some.2 hlink] at hnone
      cases hnone
    exact (hothers other hne).trans hlink

theorem Free.keeps_put (h : d.Free loc) (hloc : loc ≠ []) (item : Item) :
    d.Keeps (d.put loc item) :=
  h.keeps rfl fun other hne => (item?_put hloc other).trans (if_neg hne)

theorem Free.keeps_drop (h : d.Free loc) (hloc : loc ≠ []) : d.Keeps (d.drop loc) :=
  h.keeps rfl fun other hne => (item?_drop hloc other).trans (if_neg hne)

/-! ## §2. What a folder lists. -/

/-- The items of the folder at a location, with their kinds. -/
def listing (d : Disk) (loc : Location) : List (String × ItemKind) :=
  (d.items.part loc).branches.filterMap fun (name, part) =>
    part.value.map fun item => (name, item.kind)

theorem mem_listing (h : d.item? (loc ++ [name]) = some item) :
    (name, item.kind) ∈ d.listing loc := by
  unfold item? Tree.get? at h
  rw [if_neg (by simp), Tree.part_append] at h
  have hbranch : ((d.items.part loc).branch name).value = some item := h
  unfold Tree.branch at hbranch
  cases hlookup : (d.items.part loc).branches.lookup name with
  | none =>
      rw [hlookup] at hbranch
      cases hbranch
  | some part =>
      rw [hlookup] at hbranch
      have hvalue : part.value = some item := hbranch
      obtain ⟨front, rest, hbranches, -⟩ := List.lookup_eq_some_iff.1 hlookup
      apply List.mem_filterMap.2
      refine ⟨(name, part), ?_, ?_⟩
      · rw [hbranches]
        exact List.mem_append_right front List.mem_cons_self
      · dsimp only
        rw [hvalue]
        rfl

/-- Taking out branches of a name takes out the items of that name. -/
theorem filterMap_branches (branches : List (String × Tree Item)) (name : String) :
    (branches.filter fun b => b.1 ≠ name).filterMap
        (fun (name, part) => part.value.map fun item => (name, item.kind))
      = (branches.filterMap fun (name, part) => part.value.map fun item => (name, item.kind)).filter
          fun p => p.1 ≠ name := by
  induction branches with
  | nil => rfl
  | cons b branches ih =>
      obtain ⟨other, part⟩ := b
      by_cases hname : other = name
      · cases hvalue : part.value <;> simp [hname, hvalue] at ih ⊢ <;> exact ih
      · cases hvalue : part.value <;> simp [hname, hvalue] at ih ⊢ <;> exact ih

/-- **An item that is put in a folder is listed there**, and what had its name is not. -/
theorem listing_put (d : Disk) (loc : Location) (name : String) (item : Item) :
    (d.put (loc ++ [name]) item).listing loc
      = (name, item.kind) :: (d.listing loc).filter fun p => p.1 ≠ name := by
  unfold listing put Tree.put
  rw [Tree.part_update_concat, ← filterMap_branches]
  rfl

/-- **An item that is dropped is listed no more.** -/
theorem listing_drop (d : Disk) (loc : Location) (name : String) :
    (d.drop (loc ++ [name])).listing loc = (d.listing loc).filter fun p => p.1 ≠ name := by
  unfold listing drop Tree.drop
  rw [Tree.part_update_concat, ← filterMap_branches]
  rfl

/-- The disk without the items of some names in a folder. -/
def dropAll (d : Disk) (loc : Location) (names : List String) : Disk :=
  names.foldl (fun d name => d.drop (loc ++ [name])) d

/-- **Dropping some items of a folder takes these away and no other.** -/
theorem item?_dropAll (d : Disk) (loc : Location) (names : List String) (other : Location) :
    (d.dropAll loc names).item? other
      = if ∃ name ∈ names, other = loc ++ [name] then none else d.item? other := by
  induction names generalizing d with
  | nil => simp [dropAll]
  | cons name names ih =>
      show ((d.drop (loc ++ [name])).dropAll loc names).item? other = _
      rw [ih, item?_drop (by simp)]
      by_cases hfirst : other = loc ++ [name]
      · simp [hfirst]
      · simp [hfirst]

theorem current_dropAll (d : Disk) (loc : Location) (names : List String) :
    (d.dropAll loc names).current = d.current := by
  induction names generalizing d with
  | nil => rfl
  | cons name names ih => exact ih (d.drop (loc ++ [name]))

/-- Items that are dropped are listed no more, and all others are. -/
theorem listing_dropAll (d : Disk) (loc : Location) (names : List String) :
    (d.dropAll loc names).listing loc = (d.listing loc).filter fun p => p.1 ∉ names := by
  induction names generalizing d with
  | nil =>
      have hall : (d.listing loc).filter (fun p => p.1 ∉ ([] : List String)) = d.listing loc :=
        List.filter_eq_self.2 fun p _ => decide_eq_true List.not_mem_nil
      exact hall.symm
  | cons name names ih =>
      show ((d.drop (loc ++ [name])).dropAll loc names).listing loc = _
      rw [ih, listing_drop, List.filter_filter]
      refine List.filter_congr fun p _ => ?_
      simp [Bool.and_comm]

/-- Have the items of the folder at a location different names? -/
def NamedOnce (d : Disk) (loc : Location) : Prop :=
  ((d.items.part loc).branches.map Prod.fst).Nodup

instance (d : Disk) (loc : Location) : Decidable (d.NamedOnce loc) :=
  inferInstanceAs (Decidable ((d.items.part loc).branches.map Prod.fst).Nodup)

/-- What is found below a name that is used once. -/
theorem lookup_of_mem {branches : List (String × Tree Item)} {part : Tree Item}
    (hnodup : (branches.map Prod.fst).Nodup) (h : (name, part) ∈ branches) :
    branches.lookup name = some part := by
  induction branches with
  | nil => cases h
  | cons b branches ih =>
      obtain ⟨other, first⟩ := b
      obtain ⟨hnew, hrest⟩ := List.nodup_cons.1 hnodup
      rcases List.mem_cons.1 h with hfirst | hmem
      · cases hfirst
        exact List.lookup_cons_self
      · have hne : name ≠ other := by
          rintro rfl
          exact hnew (List.mem_map.2 ⟨(name, part), hmem, rfl⟩)
        rw [List.lookup_cons, beq_false_of_ne hne]
        exact ih hrest hmem

/-- **What a folder lists is what is in it.** -/
theorem mem_listing_iff (h : d.NamedOnce loc) {p : String × ItemKind} :
    p ∈ d.listing loc ↔ ∃ item, d.item? (loc ++ [p.1]) = some item ∧ item.kind = p.2 := by
  obtain ⟨name, kind⟩ := p
  constructor
  · intro hmem
    obtain ⟨⟨other, part⟩, hbranch, hpart⟩ := List.mem_filterMap.1 hmem
    obtain ⟨item, hvalue, hsame⟩ := Option.map_eq_some_iff.1 hpart
    cases hsame
    refine ⟨item, ?_, rfl⟩
    unfold item? Tree.get?
    rw [if_neg (by simp), Tree.part_append]
    show ((d.items.part loc).branch name).value = some item
    unfold Tree.branch
    rw [lookup_of_mem h hbranch]
    exact hvalue
  · rintro ⟨item, hitem, rfl⟩
    exact mem_listing hitem

/-- Then no name is listed twice. -/
theorem NamedOnce.nodup_listing (h : d.NamedOnce loc) : ((d.listing loc).map Prod.fst).Nodup := by
  refine List.Nodup.sublist ?_ h
  unfold listing
  rw [List.map_filterMap]
  induction (d.items.part loc).branches with
  | nil => exact List.Sublist.refl _
  | cons b branches ih =>
      obtain ⟨name, part⟩ := b
      cases hvalue : part.value with
      | none => simpa [hvalue] using ih.cons name
      | some item => simpa [hvalue] using ih.cons_cons name

/-! ## §3. Paths to a folder. -/

/-- Where a path starts. -/
def startAt (d : Disk) (path : String) : Location :=
  if Path.isAbsolute path then [] else d.current

theorem start_eq (d : Disk) (path : String) : d.start path = d.trail (d.startAt path) := by
  unfold start startAt
  split <;> rfl

/-- **What a path must be like to be followed at all.** -/
structure Followed (path : String) : Prop where
  nonempty : path ≠ ""
  nul : '\x00' ∉ path.toList
  short : path.utf8ByteSize < 4096

theorem Followed.locate_eq {path : String} (h : Followed path) (d : Disk) (f : Bool) :
    d.locate path f = d.walk f maxLinks (d.trail (d.startAt path)) (names path) := by
  unfold locate
  rw [if_neg (by simpa using h.nonempty), if_neg (by simpa using h.nul),
    if_neg (Nat.not_le.2 h.short), start_eq]

/-- A path that leads somewhere, or nowhere, was followed. -/
theorem followed_of_locate {path : String} {f : Bool} (hpath : path ≠ "")
    (h : (∃ loc, d.locate path f = .ok loc) ∨ d.locate path f = .error .notFound) :
    Followed path := by
  -- A path that is not followed is refused with an error of its own.
  have hnul : '\x00' ∉ path.toList := by
    intro hmem
    have hinvalid : d.locate path f = .error .invalidPath := by
      unfold locate
      rw [if_neg (by simpa using hpath), if_pos (by simpa using hmem)]
    rcases h with ⟨loc, h⟩ | h <;> cases hinvalid.symm.trans h
  refine ⟨hpath, hnul, Nat.lt_of_not_le fun hlong => ?_⟩
  have htoolong : d.locate path f = .error .nameTooLong := by
    unfold locate
    rw [if_neg (by simpa using hpath), if_neg (by simpa using hnul), if_pos hlong]
  rcases h with ⟨loc, h⟩ | h <;> cases htoolong.symm.trans h

/-- The path of an item can be followed if that of the folder can, and is short. -/
theorem followed_join {folder : String} (hfolder : folder ≠ "") (hnul : '\x00' ∉ folder.toList)
    (hname : PlainName name) (hshort : (Path.join folder name).utf8ByteSize < 4096) :
    Followed (Path.join folder name) where
  nonempty := by
    intro hempty
    rcases join_eq hname hfolder with ⟨above, -, hjoin⟩ | hjoin <;> simp [hjoin] at hempty
  nul := by
    intro hmem
    rcases mem_toList_join hname hfolder hmem with hmem | hmem | hmem
    · exact hnul hmem
    · cases hmem
    · exact hname.nul hmem
  short := hshort

/-- The path of a folder can be followed if that of an item can. -/
theorem followed_of_join {folder : String} (hfolder : folder ≠ "") (hname : PlainName name)
    (h : Followed (Path.join folder name)) : Followed folder := by
  obtain ⟨rest, hjoin⟩ := join_eq_append hname hfolder
  refine ⟨hfolder, fun hmem => ?_, ?_⟩
  · apply h.nul
    rw [hjoin, String.toList_append]
    exact List.mem_append_left _ hmem
  · have hshort := h.short
    rw [hjoin, String.utf8ByteSize_append] at hshort
    omega

theorem startAt_join {folder : String} (hfolder : folder ≠ "") (hname : PlainName name) (d : Disk) :
    d.startAt (Path.join folder name) = d.startAt folder := by
  unfold startAt
  rw [isAbsolute_join hname hfolder]

/-- **Does a path lead to the folder at a location?** -/
structure Leads (d : Disk) (folder : String) (loc : Location) : Prop where
  nonempty : folder ≠ ""
  located : d.locate folder true = .ok loc
  isFolder : d.IsFolder loc

namespace Leads

variable {d' : Disk} {folder : String} (h : d.Leads folder loc)

include h

theorem followed : Followed folder :=
  followed_of_locate h.nonempty (.inl ⟨loc, h.located⟩)

/-- **A path goes on leading to a folder** where folders and links are kept. -/
theorem keeps (hkeeps : d.Keeps d') : d'.Leads folder loc where
  nonempty := h.nonempty
  isFolder := hkeeps.folder loc h.isFolder
  located := by
    have hwalk := h.located
    rw [h.followed.locate_eq] at hwalk ⊢
    have hstart : d'.startAt folder = d.startAt folder := by
      unfold startAt
      rw [hkeeps.current]
    rw [hstart]
    exact hkeeps.walk_eq (hkeeps.folder loc h.isFolder).target?_eq_none maxLinks _ _ hwalk

/-- The names in the path lead to the folder even where none asks for one. -/
theorem walk_plainNames :
    d.walk true maxLinks (d.trail (d.startAt folder)) (plainNames folder) = .ok loc := by
  have hwalk := h.located
  rw [h.followed.locate_eq] at hwalk
  rcases names_eq folder with hnames | hnames
  · rw [← hnames]
    exact hwalk
  · -- A path that ends in a slash has a last name ".", which asks for a folder.
    rw [hnames] at hwalk
    rcases d.walk_append true maxLinks (d.startAt folder) (plainNames folder)
        (List.cons_ne_nil "." []) with ⟨e, -, hboth⟩ | ⟨there, fewer, hfront, hboth⟩
    · cases hboth.symm.trans hwalk
    · rw [hboth] at hwalk
      cases hmove : d.move there "." with
      | error e =>
          rw [walk_blocked hmove] at hwalk
          cases hwalk
      | ok next =>
          obtain ⟨hfolder, -⟩ := move_ok hmove
          rw [walk_moved (move_point hfolder) rfl, walk_nil] at hwalk
          rw [hfront, Except.ok.inj hwalk]

/-! ## §4. Paths to its items. -/

variable (hname : PlainName name) (hshort : (Path.join folder name).utf8ByteSize < 4096)

include hname hshort

/-- **The path of an item leads to its place in the folder**, unless a link is
there. -/
theorem locate_join (f : Bool) (hlink : d.target? (loc ++ [name]) = none) :
    d.locate (Path.join folder name) f = .ok (loc ++ [name]) := by
  rw [(followed_join h.nonempty h.followed.nul hname hshort).locate_eq,
    names_join hname h.nonempty, startAt_join h.nonempty hname]
  rcases d.walk_append f maxLinks (d.startAt folder) (plainNames folder)
      (List.cons_ne_nil name []) with ⟨e, hfront, -⟩ | ⟨there, fewer, hfront, hboth⟩
  · cases hfront.symm.trans h.walk_plainNames
  · obtain rfl : there = loc := Except.ok.inj (hfront.symm.trans h.walk_plainNames)
    have hmet : d.met? there name = none := by
      unfold met?
      split
      · rfl
      · exact hlink
    rw [hboth, walk_moved (move_name h.isFolder hname.point hname.points hname.short) hmet,
      walk_nil]

theorem find_join (f : Bool) (hlink : d.target? (loc ++ [name]) = none) :
    d.find (Path.join folder name) f
      = match d.item? (loc ++ [name]) with
        | some item => .ok (loc ++ [name], item)
        | none => .error .notFound := by
  unfold find
  rw [h.locate_join hname hshort f hlink]
  rfl

/-- Nothing can be read where nothing is. -/
theorem readText_none (hitem : d.item? (loc ++ [name]) = none) :
    d.readText (Path.join folder name) = .error .notFound := by
  have hlink : d.target? (loc ++ [name]) = none := Free.target?_eq_none (.inl hitem)
  unfold readText
  rw [h.find_join hname hshort true hlink, hitem]
  rfl

/-- The text of a file is what is read. -/
theorem readText_file {text : String} {modified : Int}
    (hitem : d.item? (loc ++ [name]) = some (.file (.text text) modified)) :
    d.readText (Path.join folder name) = .ok text := by
  have hlink : d.target? (loc ++ [name]) = none := Free.target?_eq_none (.inr ⟨_, _, hitem⟩)
  unfold readText
  rw [h.find_join hname hshort true hlink, hitem]
  rfl

/-- A file may be written where nothing or a file is. -/
theorem writable_eq (hfree : d.Free (loc ++ [name])) :
    d.writable (Path.join folder name) = .ok (loc ++ [name]) := by
  obtain ⟨modified, hfolder⟩ := h.isFolder
  unfold writable
  rw [if_neg (getLast?_join hname h.nonempty), h.locate_join hname hshort true
    hfree.target?_eq_none]
  dsimp only [bind, Except.bind]
  rcases hfree with hnone | ⟨content, time, hfile⟩
  · rw [hnone, List.dropLast_concat, hfolder]
    rfl
  · rw [hfile]
    rfl

/-- **A file is written in its place.** -/
theorem writeContent_eq (hfree : d.Free (loc ++ [name])) (content : Content) :
    d.writeContent (Path.join folder name) content
      = .ok (d.put (loc ++ [name]) (.file content d.now)) := by
  unfold writeContent
  rw [h.writable_eq hname hshort hfree]
  rfl

/-- **A file is removed from its place.** -/
theorem remove_eq {content : Content} {modified : Int}
    (hitem : d.item? (loc ++ [name]) = some (.file content modified)) :
    d.remove (Path.join folder name) = .ok (d.drop (loc ++ [name])) := by
  have hlink : d.target? (loc ++ [name]) = none := Free.target?_eq_none (.inr ⟨_, _, hitem⟩)
  unfold remove
  rw [h.find_join hname hshort false hlink, hitem]
  rfl

end Leads

/-! ## §5. The folder itself. -/

namespace Leads

variable {folder : String} (h : d.Leads folder loc)

include h

theorem find_folder : ∃ modified, d.find folder true = .ok (loc, .folder modified) := by
  obtain ⟨modified, hitem⟩ := h.isFolder
  refine ⟨modified, ?_⟩
  unfold find
  rw [h.located]
  dsimp only [bind, Except.bind]
  rw [hitem]
  rfl

theorem kind_eq : d.kind folder = some .folder := by
  obtain ⟨modified, hfind⟩ := h.find_folder
  unfold kind
  rw [hfind]
  rfl

theorem list_eq : d.list folder = .ok (d.listing loc) := by
  obtain ⟨modified, hfind⟩ := h.find_folder
  unfold list
  rw [hfind]
  rfl

end Leads

/-- What is found at a path is the item that the path leads to. -/
theorem find_ok {path : String} {f : Bool} (h : d.find path f = .ok (loc, item)) :
    d.locate path f = .ok loc ∧ d.item? loc = some item := by
  unfold find at h
  cases hlocate : d.locate path f with
  | error e =>
      rw [hlocate] at h
      cases h
  | ok there =>
      rw [hlocate] at h
      cases hitem : d.item? there with
      | none =>
          simp only [bind, Except.bind, hitem] at h
          cases h
      | some found =>
          simp only [bind, Except.bind, hitem] at h
          cases h
          exact ⟨rfl, hitem⟩

/-- A folder that can be listed is one that its path leads to. -/
theorem leads_of_list {folder : String} (hfolder : folder ≠ "")
    {items : List (String × ItemKind)} (h : d.list folder = .ok items) :
    ∃ loc, d.Leads folder loc ∧ d.listing loc = items := by
  unfold list at h
  cases hfind : d.find folder true with
  | error e =>
      rw [hfind] at h
      cases h
  | ok found =>
      obtain ⟨loc, item⟩ := found
      obtain ⟨hlocated, hitem⟩ := find_ok hfind
      rw [hfind] at h
      cases item with
      | file content modified => cases h
      | link target => cases h
      | folder modified => exact ⟨loc, ⟨hfolder, hlocated, modified, hitem⟩, Except.ok.inj h⟩

/-! ## §6. Making the folder. -/

/-- A path of a folder without the slashes at its end can be followed as well. -/
theorem followed_withoutEnd {path : String} (h : Followed path) : Followed (withoutEnd path) := by
  obtain ⟨rest, hpath⟩ := withoutEnd_prefix h.nonempty
  refine ⟨withoutEnd_ne_empty h.nonempty, ?_, ?_⟩
  · intro hmem
    apply h.nul
    rw [hpath, String.toList_append]
    exact List.mem_append_left _ hmem
  · have hsize := congrArg String.utf8ByteSize hpath
    rw [String.utf8ByteSize_append] at hsize
    have hshort := h.short
    omega

theorem startAt_withoutEnd {path : String} (h : path ≠ "") (d : Disk) :
    d.startAt (withoutEnd path) = d.startAt path := by
  unfold startAt
  rw [isAbsolute_withoutEnd h]

/-- A folder is not made where something is. -/
theorem makeFolder_of_item {path : String} (hlocate : d.locate (withoutEnd path) false = .ok loc)
    (hitem : d.item? loc = some item) : d.makeFolder path = .error .alreadyExists := by
  unfold makeFolder
  rw [hlocate]
  simp only [bind, Except.bind, hitem]
  rfl

/-- The root is there. -/
theorem makeFolder_of_root {path : String} (h : withoutEnd path = "/") :
    d.makeFolder path = .error .alreadyExists := by
  have hfollowed : Followed "/" := ⟨by decide, by decide, by decide⟩
  have hroot : d.IsFolder [] := ⟨0, rfl⟩
  have hlocate : d.locate (withoutEnd path) false = .ok [] := by
    rw [h, hfollowed.locate_eq]
    show d.walk false maxLinks (d.trail []) ["."] = .ok []
    rw [walk_moved (move_point hroot) rfl, walk_nil]
  exact makeFolder_of_item hlocate rfl

/-- A folder that is there is not made again. -/
theorem Leads.makeFolder_eq {folder : String} (h : d.Leads folder loc) :
    d.makeFolder folder = .error .alreadyExists := by
  rcases names_withoutEnd h.nonempty with hroot | hnames
  · exact makeFolder_of_root hroot
  · have hlocate := (followed_withoutEnd h.followed).locate_eq d false
    rw [hnames, startAt_withoutEnd h.nonempty] at hlocate
    rcases d.walk_of_unfollowed maxLinks (d.startAt folder) (plainNames folder)
      with hsame | ⟨there, target, hspared, hlink⟩
    · obtain ⟨modified, hitem⟩ := h.isFolder
      exact makeFolder_of_item (hlocate.trans (hsame.trans h.walk_plainNames)) hitem
    · exact makeFolder_of_item (hlocate.trans hspared) hlink

theorem ancestors_cons (path : String) : ∃ above, Path.ancestors path = path :: above := by
  unfold Path.ancestors
  split
  · exact ⟨[], rfl⟩
  · exact ⟨_, rfl⟩

/-- **Making a folder that is there changes nothing.** -/
theorem Leads.makeFolders_eq {folder : String} (h : d.Leads folder loc) :
    d.makeFolders folder = (.ok ⟨⟩, d) := by
  obtain ⟨above, hancestors⟩ := ancestors_cons folder
  have hchain : d.makeChain (folder :: above) = (.ok d, d) := by
    unfold makeChain
    rw [if_neg (by simpa using h.nonempty), h.makeFolder_eq]
    exact if_pos h.kind_eq
  unfold makeFolders
  rw [hancestors, hchain]

/-- **Is nothing at a path**, or no way there? -/
def Missing (d : Disk) (path : String) : Prop :=
  (∃ loc, d.locate path false = .ok loc ∧ d.item? loc = none) ∨ d.locate path false = .error .notFound

/-- A folder is made where nothing is, and asks for those above it where there is
no way. -/
theorem missing_of_makeFolder {path : String}
    (h : (∃ d', d.makeFolder path = .ok d') ∨ d.makeFolder path = .error .notFound) :
    d.Missing (withoutEnd path) := by
  cases hlocate : d.locate (withoutEnd path) false with
  | error e =>
      have hfailed : d.makeFolder path = .error e := by
        unfold makeFolder
        rw [hlocate]
        rfl
      rcases h with ⟨d', h⟩ | h
      · cases hfailed.symm.trans h
      · cases hfailed.symm.trans h
        exact .inr hlocate
  | ok loc =>
      cases hitem : d.item? loc with
      | none => exact .inl ⟨loc, hlocate, hitem⟩
      | some item =>
          have hexists := makeFolder_of_item hlocate hitem
          rcases h with ⟨d', h⟩ | h <;> cases hexists.symm.trans h

/-- **Nothing can be read in a folder that is missing.** -/
theorem Missing.readText_join {folder : String} (h : d.Missing (withoutEnd folder))
    (hfolder : folder ≠ "") (hroot : withoutEnd folder ≠ "/") (hname : PlainName name)
    (hshort : (Path.join folder name).utf8ByteSize < 4096) :
    d.readText (Path.join folder name) = .error .notFound := by
  have hnames := (names_withoutEnd hfolder).resolve_left hroot
  have hfollowed : Followed (withoutEnd folder) :=
    followed_of_locate (withoutEnd_ne_empty hfolder)
      (h.imp_left fun ⟨loc, hlocate, _⟩ => ⟨loc, hlocate⟩)
  have hnul : '\x00' ∉ folder.toList := by
    intro hmem
    rcases mem_toList_withoutEnd hfolder hmem with hmem | hmem
    · exact hfollowed.nul hmem
    · cases hmem
  have hlocate := (followed_join hfolder hnul hname hshort).locate_eq d true
  rw [names_join hname hfolder, startAt_join hfolder hname] at hlocate
  have hspared := hfollowed.locate_eq d false
  rw [hnames, startAt_withoutEnd hfolder] at hspared
  have hnowhere : d.locate (Path.join folder name) true = .error .notFound := by
    rw [hlocate]
    -- What is missing is no link, so to follow it makes no difference.
    rcases d.walk_of_unfollowed maxLinks (d.startAt folder) (plainNames folder)
      with hsame | ⟨there, target, hthere, hlink⟩
    · rw [hsame] at hspared
      rcases d.walk_append true maxLinks (d.startAt folder) (plainNames folder)
          (List.cons_ne_nil name []) with ⟨e, hfront, hboth⟩ | ⟨there, fewer, hfront, hboth⟩
      · rcases h with ⟨loc, h, -⟩ | h
        · cases h.symm.trans (hspared.trans hfront)
        · cases h.symm.trans (hspared.trans hfront)
          exact hboth
      · rcases h with ⟨loc, h, hnone⟩ | h
        · obtain rfl : loc = there := Except.ok.inj (h.symm.trans (hspared.trans hfront))
          rw [hboth, walk_blocked (move_of_item?_eq_none hnone)]
        · cases h.symm.trans (hspared.trans hfront)
    · rcases h with ⟨loc, h, hnone⟩ | h
      · obtain rfl : loc = there := Except.ok.inj (h.symm.trans (hspared.trans hthere))
        cases hnone.symm.trans hlink
      · cases h.symm.trans (hspared.trans hthere)
  unfold readText find
  rw [hnowhere]
  rfl

theorem leads_of_kind {folder : String} (hfolder : folder ≠ "") (h : d.kind folder = some .folder) :
    ∃ loc, d.Leads folder loc := by
  unfold kind at h
  cases hfind : d.find folder true with
  | error e =>
      rw [hfind] at h
      cases h
  | ok found =>
      obtain ⟨loc, item⟩ := found
      obtain ⟨hlocated, hitem⟩ := find_ok hfind
      rw [hfind] at h
      cases item with
      | file content modified => cases h
      | link target => cases h
      | folder modified => exact ⟨loc, hfolder, hlocated, modified, hitem⟩

/-- **Before a folder is made it is there, or nothing in it can be read.** -/
theorem leads_or_missing {folder : String} (hfolder : folder ≠ "") {made : Disk}
    (h : d.makeFolders folder = (.ok ⟨⟩, made)) :
    (∃ loc, d.Leads folder loc) ∨ (d.kind folder ≠ some .folder ∧ d.Missing (withoutEnd folder)
      ∧ withoutEnd folder ≠ "/") := by
  by_cases hkind : d.kind folder = some .folder
  · exact .inl (leads_of_kind hfolder hkind)
  · right
    obtain ⟨above, hancestors⟩ := ancestors_cons folder
    have hmake : (∃ d', d.makeFolder folder = .ok d') ∨ d.makeFolder folder = .error .notFound := by
      cases hfirst : d.makeFolder folder with
      | ok d' => exact .inl ⟨d', rfl⟩
      | error e =>
          by_cases he : e = .notFound
          · exact .inr (he ▸ rfl)
          · -- Any other failure is one for good, as no folder is there.
            have hchain : d.makeChain (folder :: above) = (.error e, d) := by
              unfold makeChain
              rw [if_neg (by simpa using hfolder), hfirst]
              cases e <;> first | exact absurd rfl he | exact if_neg hkind
            unfold makeFolders at h
            rw [hancestors, hchain] at h
            cases h
    refine ⟨hkind, missing_of_makeFolder hmake, ?_⟩
    intro hroot
    have hexists := makeFolder_of_root (d := d) hroot
    rcases hmake with ⟨d', hmake⟩ | hmake <;> cases hexists.symm.trans hmake

/-! ## §7. A new folder in the current one. -/

section New

variable (hname : PlainName name) (hcurrent : d.IsFolder d.current)

theorem listing_put_self (d : Disk) (loc : Location) (item : Item) :
    (d.put loc item).listing loc = d.listing loc := by
  unfold listing put Tree.put
  rw [Tree.part_update]
  rfl

include hname hcurrent

/-- A name leads to its place in the current folder. -/
theorem locate_plainName (f : Bool) (hlink : d.target? (d.current ++ [name]) = none) :
    d.locate name f = .ok (d.current ++ [name]) := by
  have hfollowed : Followed name :=
    ⟨hname.nonempty, hname.nul, Nat.lt_of_le_of_lt hname.short (by decide)⟩
  have hstart : d.startAt name = d.current := by
    unfold startAt
    rw [isAbsolute_plainName hname]
    rfl
  have hmet : d.met? d.current name = none := by
    unfold met?
    split
    · rfl
    · exact hlink
  rw [hfollowed.locate_eq, hstart, names_plainName hname,
    walk_moved (move_name hcurrent hname.point hname.points hname.short) hmet, walk_nil]

/-- **A folder is made where nothing is.** -/
theorem makeFolders_plainName (hnone : d.item? (d.current ++ [name]) = none) :
    d.makeFolders name = (.ok ⟨⟩, d.put (d.current ++ [name]) (.folder d.now)) := by
  have hlink : d.target? (d.current ++ [name]) = none := Free.target?_eq_none (.inl hnone)
  have hmake : d.makeFolder name = .ok (d.put (d.current ++ [name]) (.folder d.now)) := by
    unfold makeFolder
    rw [withoutEnd_plainName hname, locate_plainName hname hcurrent false hlink]
    simp only [bind, Except.bind, hnone]
    rfl
  obtain ⟨above, hancestors⟩ := ancestors_cons name
  unfold makeFolders makeChain
  rw [hancestors]
  dsimp only
  rw [if_neg (by simpa using hname.nonempty), hmake]

/-- The path leads to the new folder. -/
theorem leads_put_folder (hnone : d.item? (d.current ++ [name]) = none) (modified : Int) :
    (d.put (d.current ++ [name]) (.folder modified)).Leads name (d.current ++ [name]) := by
  have hkeeps : d.Keeps (d.put (d.current ++ [name]) (.folder modified)) :=
    Free.keeps_put (.inl hnone) (by simp) _
  have hitem : (d.put (d.current ++ [name]) (.folder modified)).item? (d.current ++ [name])
      = some (.folder modified) :=
    (item?_put (by simp) _).trans (if_pos rfl)
  have hlink : (d.put (d.current ++ [name]) (.folder modified)).target? (d.current ++ [name])
      = none := by
    unfold target?
    rw [hitem]
  refine ⟨hname.nonempty, ?_, modified, hitem⟩
  have hthere : (d.put (d.current ++ [name]) (.folder modified)).IsFolder
      (d.put (d.current ++ [name]) (.folder modified)).current :=
    hkeeps.folder _ hcurrent
  exact locate_plainName hname hthere true hlink

end New

end Disk

end AnnotationCache.Files

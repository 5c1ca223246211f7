/-
  AnnotationCache.Proofs.Store.Folder
  ───────────────────────────────────
  **A FOLDER OF ENTRIES IS A MAP OF TEXTS.**

  A cache on disk has one file for each digest.  So what its folder holds can be
  told as a map from the names of entry files to texts, and each request as what
  it does to that map.  Two things can stand in the way of this.  The folder may
  not be there yet, and then nothing can be read in it and the first write makes
  it.  And the folder may have other items in it, which must not pass for
  entries.

  Main statements:
    * `plainName_entryName`  — the name of an entry is one that files may have;
    * `Removable.run_clear`  — what clearing does to any folder;
    * `Ready.holds`          — a folder without entries holds the empty map;
    * `Holds.get_eq`, `Holds.set_eq`, `Holds.clear_eq` — the requests, as look-up,
      insertion and emptying.
-/
import AnnotationCache.Proofs.Files.Folder
import AnnotationCache.Proofs.Requests
import AnnotationCache.Store.Folder

namespace AnnotationCache

open AnnotationCache.Files (Disk Item ItemKind Location)
open AnnotationCache.Files.Disk (PlainName)

/-! ## §1. Names of entries. -/

namespace Digest.Sha256

theorem length_flatMap_hexDigits (words : List UInt32) :
    (words.flatMap hexDigits).length = 8 * words.length := by
  induction words with
  | nil => rfl
  | cons w words ih =>
      rw [List.flatMap_cons, List.length_append, ih, List.length_cons]
      show 8 + 8 * words.length = _
      omega

/-- A digest has sixty-four digits. -/
theorem length_toList_hex (text : String) : (hex text).toList.length = 64 := by
  unfold hex
  rw [String.toList_ofList, length_flatMap_hexDigits]
  rfl

/-- They are hexadecimal digits. -/
theorem mem_toList_hex {text : String} {c : Char} (h : c ∈ (hex text).toList) :
    ∃ n < 16, c = Nat.digitChar n := by
  unfold hex at h
  rw [String.toList_ofList] at h
  obtain ⟨w, -, hc⟩ := List.mem_flatMap.1 h
  obtain ⟨shift, -, rfl⟩ := List.mem_map.1 hc
  exact ⟨_, Nat.mod_lt _ (by decide), rfl⟩

end Digest.Sha256

/-- Text of characters of one byte each has as many bytes as characters. -/
theorem utf8ByteSize_ofList {chars : List Char} (h : ∀ c ∈ chars, c.utf8Size = 1) :
    (String.ofList chars).utf8ByteSize = chars.length := by
  induction chars with
  | nil => rfl
  | cons c chars ih =>
      obtain ⟨hc, hchars⟩ := List.forall_mem_cons.1 h
      rw [String.ofList_cons, String.utf8ByteSize_append, String.utf8ByteSize_singleton, hc,
        ih hchars, List.length_cons, Nat.add_comm]

namespace FolderCache

/-- The characters of hexadecimal digits. -/
theorem digitChar_plain : ∀ n < 16, Nat.digitChar n ≠ '/' ∧ Nat.digitChar n ≠ '\x00'
    ∧ Nat.digitChar n ≠ '.' ∧ (Nat.digitChar n).utf8Size = 1 := by
  decide

theorem toList_entryName (key : String) :
    (entryName key).toList = (Digest.Sha256.hex key).toList ++ ['.', 'j', 's', 'o', 'n'] := by
  unfold entryName
  rw [String.toList_append, String.toList_append, List.append_assoc]
  rfl

/-- What is in the name of an entry: digits, a point, letters. -/
theorem mem_entryName {key : String} {c : Char} (h : c ∈ (entryName key).toList) :
    c ≠ '/' ∧ c ≠ '\x00' ∧ c.utf8Size = 1 := by
  rw [toList_entryName, List.mem_append] at h
  rcases h with h | h
  · obtain ⟨n, hn, rfl⟩ := Digest.Sha256.mem_toList_hex h
    obtain ⟨hslash, hnul, -, hsize⟩ := digitChar_plain n hn
    exact ⟨hslash, hnul, hsize⟩
  · have hall : ['.', 'j', 's', 'o', 'n'].all
        (fun c => decide (c ≠ '/' ∧ c ≠ '\x00' ∧ c.utf8Size = 1)) = true := rfl
    exact of_decide_eq_true (List.all_eq_true.1 hall c h)

theorem length_entryName (key : String) : (entryName key).toList.length = 69 := by
  rw [toList_entryName, List.length_append, Digest.Sha256.length_toList_hex]
  rfl

theorem utf8ByteSize_entryName (key : String) : (entryName key).utf8ByteSize = 69 := by
  have hchars : ∀ c ∈ (entryName key).toList, c.utf8Size = 1 := fun c hc => (mem_entryName hc).2.2
  have hsize := utf8ByteSize_ofList hchars
  rw [String.ofList_toList, length_entryName] at hsize
  exact hsize

/-- **The name of an entry is one that a file may have.** -/
theorem plainName_entryName (key : String) : PlainName (entryName key) where
  nonempty := by
    intro hempty
    have hlength := length_entryName key
    rw [hempty] at hlength
    cases hlength
  slash hmem := (mem_entryName hmem).1 rfl
  nul hmem := (mem_entryName hmem).2.1 rfl
  point := by
    intro heq
    have hlength := length_entryName key
    rw [heq] at hlength
    cases hlength
  points := by
    intro heq
    have hlength := length_entryName key
    rw [heq] at hlength
    cases hlength
  short := by
    rw [utf8ByteSize_entryName]
    decide

/-- Entries are told by their names as digests are. -/
theorem entryName_inj {key key' : String} (h : entryName key = entryName key') :
    Digest.Sha256.hex key = Digest.Sha256.hex key' := by
  have hchars := congrArg String.toList h
  rw [toList_entryName, toList_entryName] at hchars
  exact String.toList_inj.1 (List.append_cancel_right hchars)

/-- The name of an entry has the extension of entries. -/
theorem extension?_entryName (key : String) :
    Files.Path.extension? (entryName key) = some entryExtension := by
  have hfront : (Digest.Sha256.hex key).toList ≠ [] := by
    intro hempty
    have hlength := Digest.Sha256.length_toList_hex key
    rw [hempty] at hlength
    cases hlength
  exact Files.Disk.extension?_eq (plainName_entryName key) (toList_entryName key) hfront (by decide)

/-! ## §2. A folder that is there. -/

section Changes

variable {d d' : Disk}

/-- A change of the disk that succeeds. -/
theorem run_update {change : Disk → Except Files.FileError Disk} (h : change d = .ok d') :
    (Disk.update change).run.run d = (.ok ⟨⟩, d') := by
  simp only [Disk.update, ExceptT.run_mk, StateT.run, h]

theorem run_write {path text : String} (h : d.writeContent path (.text text) = .ok d') :
    (Disk.files.write path text).run.run d = (.ok ⟨⟩, d') :=
  run_update h

theorem run_remove {path : String} (h : d.remove path = .ok d') :
    (Disk.files.remove path).run.run d = (.ok ⟨⟩, d') :=
  run_update h

end Changes

theorem isEntry_iff {p : String × ItemKind} :
    isEntry p = true ↔ p.2 = .file ∧ Files.Path.extension? p.1 = some entryExtension := by
  obtain ⟨name, kind⟩ := p
  unfold isEntry
  cases kind <;> simp

section Requests

variable {cache : FolderCache} {d d' : Disk} {key : String}

/-- Getting is reading the entry of the key, if it has one. -/
theorem run_get_of_text {text : String} (h : d.readText (cache.entryPath key) = .ok text) :
    (cache.get Disk.files key).run.run d
      = (match Entry.parse text with
          | .error problem => .error (.malformedEntry key problem.message)
          | .ok entry => .ok (if entry.key = key then some entry.value else none), d) := by
  have hread : (liftM (Disk.files.readText (cache.entryPath key)).run :
      ExceptT Error (StateM Disk) (Except Files.FileError String)).run.run d = (.ok (.ok text), d) := by
    rw [← h]
    rfl
  rw [FolderCache.get, run_bind_ok hread]
  dsimp only
  cases Entry.parse text with
  | error problem => rfl
  | ok entry => rfl

theorem run_get_of_notFound (h : d.readText (cache.entryPath key) = .error .notFound) :
    (cache.get Disk.files key).run.run d = (.ok none, d) := by
  have hread : (liftM (Disk.files.readText (cache.entryPath key)).run :
      ExceptT Error (StateM Disk) (Except Files.FileError String)).run.run d
        = (.ok (.error .notFound), d) := by
    rw [← h]
    rfl
  rw [FolderCache.get, run_bind_ok hread]
  rfl

/-- Setting is making the folder and writing the entry. -/
theorem run_set_of_write {before : Disk} {value : CacheValue}
    (hmake : before.makeFolders cache.folder = (.ok ⟨⟩, d))
    (hwrite : d.writeContent (cache.entryPath key) (.text (Entry.text ⟨key, value⟩)) = .ok d') :
    (cache.set Disk.files key value).run.run before = (.ok true, d') := by
  have hfolder : (Disk.files.makeFolders cache.folder).run.run before = (.ok ⟨⟩, d) := hmake
  rw [FolderCache.set, run_bind_ok (run_adapt_ok _ hfolder)]
  rw [run_bind_ok (run_adapt_ok _ (run_write hwrite))]
  rfl

end Requests

/-- The names of the files in a folder that pass for entries. -/
def passing (d : Disk) (loc : Location) : List String :=
  ((d.listing loc).filter isEntry).map Prod.fst

section Clearing

variable {cache : FolderCache} {d : Disk} {loc : Location}

/-- Some of the files in a folder, in the way that they can be removed. -/
structure Removable (cache : FolderCache) (d : Disk) (loc : Location) (names : List String) :
    Prop where
  once : names.Nodup
  plain : ∀ name ∈ names, PlainName name
  short : ∀ name ∈ names, (Files.Path.join cache.folder name).utf8ByteSize < 4096
  isFile : ∀ name ∈ names, ∃ content modified, d.item? (loc ++ [name]) = some (.file content modified)

/-- **Removing some files of a folder one after the other drops these.** -/
theorem Removable.run_removeEach {names : List String} (h : Removable cache d loc names)
    (hleads : d.Leads cache.folder loc) :
    (removeEach Disk.files (names.map (Files.Path.join cache.folder))).run.run d
      = (.ok ⟨⟩, d.dropAll loc names) := by
  -- Each file is there until its turn comes, as no name comes twice.
  induction names generalizing d with
  | nil => rfl
  | cons name names ih =>
      obtain ⟨hnot, hrest⟩ := List.nodup_cons.1 h.once
      obtain ⟨hplain, hplains⟩ := List.forall_mem_cons.1 h.plain
      obtain ⟨hshort, hshorts⟩ := List.forall_mem_cons.1 h.short
      obtain ⟨⟨content, modified, hitem⟩, hitems⟩ := List.forall_mem_cons.1 h.isFile
      have hremove := hleads.remove_eq hplain hshort hitem
      have hfirst : ((Disk.files.remove (Files.Path.join cache.folder name)).adapt
          (inaccessible (Files.Path.join cache.folder name))).run.run d
            = (.ok ⟨⟩, d.drop (loc ++ [name])) :=
        run_adapt_ok _ (run_remove hremove)
      have hleft : Removable cache (d.drop (loc ++ [name])) loc names := by
        refine ⟨hrest, hplains, hshorts, fun other hother => ?_⟩
        rw [Files.Disk.item?_drop (by simp), if_neg]
        · exact hitems other hother
        · intro heq
          have hsame : other = name := by simpa using heq
          exact hnot (hsame ▸ hother)
      have hfree : d.Free (loc ++ [name]) := .inr ⟨content, modified, hitem⟩
      rw [List.map_cons, removeEach, run_bind_ok hfirst]
      exact ih hleft (hleads.keeps (hfree.keeps_drop (by simp)))

/-- **Clearing a folder that is there drops what passes for entries**, and tells the
number of these files. -/
theorem Removable.run_clear (h : Removable cache d loc (passing d loc))
    (hleads : d.Leads cache.folder loc) :
    (cache.clear Disk.files).run.run d
      = (.ok (passing d loc).length, d.dropAll loc (passing d loc)) := by
  have hkind : (liftM (Disk.files.kind cache.folder) :
      ExceptT Error (StateM Disk) (Option ItemKind)).run.run d = (.ok (some .folder), d) := by
    show ((.ok (d.kind cache.folder) : Except Error (Option ItemKind)), d) = _
    rw [hleads.kind_eq]
  have hlist : ((Disk.files.list cache.folder).adapt (inaccessible cache.folder)).run.run d
      = (.ok (d.listing loc), d) := by
    apply run_adapt_ok
    show (d.list cache.folder, d) = _
    rw [hleads.list_eq]
  have hpaths : ((d.listing loc).filter isEntry).map (fun p => Files.Path.join cache.folder p.1)
      = (passing d loc).map (Files.Path.join cache.folder) := by
    unfold passing
    rw [List.map_map]
    rfl
  rw [FolderCache.clear, run_bind_ok hkind]
  show ((Disk.files.list cache.folder).adapt (inaccessible cache.folder) >>= _).run.run d = _
  rw [run_bind_ok hlist]
  dsimp only
  rw [hpaths, run_bind_ok (h.run_removeEach hleads), List.length_map]
  rfl

/-- Clearing a folder that is not there does nothing. -/
theorem run_clear_of_kind (h : d.kind cache.folder ≠ some .folder) :
    (cache.clear Disk.files).run.run d = (.ok 0, d) := by
  have hkind : (liftM (Disk.files.kind cache.folder) :
      ExceptT Error (StateM Disk) (Option ItemKind)).run.run d
        = (.ok (d.kind cache.folder), d) := rfl
  rw [FolderCache.clear, run_bind_ok hkind]
  cases hfound : d.kind cache.folder with
  | none => rfl
  | some kind =>
      rw [hfound] at h
      cases kind with
      | folder => exact absurd rfl h
      | file => rfl
      | link => rfl
      | special => rfl

end Clearing

/-- **The folder of a cache is there and holds texts**, each in the file of its
name; nothing else in it passes for an entry. -/
structure Made (cache : FolderCache) (d : Disk) (loc : Location) (texts : Dict String) : Prop where
  leads : d.Leads cache.folder loc
  short : ∀ key, (cache.entryPath key).utf8ByteSize < 4096
  named : ∀ name text, texts.get? name = some text → ∃ key, name = entryName key
  kept : ∀ name text, texts.get? name = some text →
    ∃ modified, d.item? (loc ++ [name]) = some (.file (.text text) modified)
  listed : ∀ p ∈ d.listing loc, Files.Path.extension? p.1 = some entryExtension →
    ∃ text, texts.get? p.1 = some text
  once : (((d.listing loc).filter isEntry).map Prod.fst).Nodup

namespace Made

variable {cache : FolderCache} {d : Disk} {loc : Location} {texts : Dict String}
  (h : cache.Made d loc texts)

include h

/-- Where there is no text there is no item. -/
theorem item?_eq_none {key : String} (hnone : texts.get? (entryName key) = none) :
    d.item? (loc ++ [entryName key]) = none := by
  cases hitem : d.item? (loc ++ [entryName key]) with
  | none => rfl
  | some item =>
      obtain ⟨text, htext⟩ := h.listed _ (Files.Disk.mem_listing hitem) (extension?_entryName key)
      cases hnone.symm.trans htext

/-- An entry can be written. -/
theorem free (key : String) : d.Free (loc ++ [entryName key]) := by
  cases htext : texts.get? (entryName key) with
  | none => exact .inl (h.item?_eq_none htext)
  | some text =>
      obtain ⟨modified, hitem⟩ := h.kept _ text htext
      exact .inr ⟨_, _, hitem⟩

/-- **What is read of an entry is its text**, if it has one. -/
theorem readText_eq (key : String) :
    d.readText (cache.entryPath key)
      = match texts.get? (entryName key) with
        | some text => .ok text
        | none => .error .notFound := by
  cases htext : texts.get? (entryName key) with
  | none =>
      exact h.leads.readText_none (plainName_entryName key) (h.short key) (h.item?_eq_none htext)
  | some text =>
      obtain ⟨modified, hitem⟩ := h.kept _ text htext
      exact h.leads.readText_file (plainName_entryName key) (h.short key) hitem

/-- **Writing an entry puts its text in the map.** -/
theorem put (key text : String) :
    cache.Made (d.put (loc ++ [entryName key]) (.file (.text text) d.now)) loc
      (texts.insert (entryName key) text) where
  leads := h.leads.keeps ((h.free key).keeps_put (by simp) _)
  short := h.short
  named name text' := by
    rw [Dict.get?_insert]
    split
    next heq => exact fun _ => ⟨key, heq⟩
    next => exact h.named name text'
  kept name text' := by
    rw [Dict.get?_insert, Files.Disk.item?_put (by simp)]
    by_cases heq : name = entryName key
    · subst heq
      rw [if_pos rfl, if_pos rfl]
      intro hsome
      exact ⟨d.now, by rw [Option.some.inj hsome]⟩
    · rw [if_neg heq, if_neg (by simpa using heq)]
      exact h.kept name text'
  listed p hp hextension := by
    -- The folder lists the entry that was written and what it has listed before.
    rw [Files.Disk.listing_put] at hp
    rw [Dict.get?_insert]
    split
    next => exact ⟨text, rfl⟩
    next hne =>
      rcases List.mem_cons.1 hp with rfl | hp
      · exact absurd rfl hne
      · exact h.listed p (List.mem_filter.1 hp).1 hextension
  once := by
    have hentry : isEntry (entryName key, ItemKind.file) = true :=
      isEntry_iff.2 ⟨rfl, extension?_entryName key⟩
    rw [Files.Disk.listing_put]
    show (List.map Prod.fst (List.filter isEntry ((entryName key, ItemKind.file) :: _))).Nodup
    rw [List.filter_cons_of_pos hentry, List.map_cons, List.nodup_cons]
    constructor
    · -- An item of that name is not listed beside the new one.
      intro hmem
      obtain ⟨p, hp, hname⟩ := List.mem_map.1 hmem
      have hne := (List.mem_filter.1 (List.mem_filter.1 hp).1).2
      simp [hname] at hne
    · exact h.once.sublist ((List.filter_sublist.filter isEntry).map Prod.fst)

/-- **Removing an entry takes its text out of the map.** -/
theorem drop {name text : String} (htext : texts.get? name = some text) :
    cache.Made (d.drop (loc ++ [name])) loc (texts.erase name) where
  leads := by
    obtain ⟨key, rfl⟩ := h.named name text htext
    exact h.leads.keeps ((h.free key).keeps_drop (by simp))
  short := h.short
  named name' text' := by
    rw [Dict.get?_erase]
    split
    next => exact fun hnone => by cases hnone
    next => exact h.named name' text'
  kept name' text' := by
    rw [Dict.get?_erase, Files.Disk.item?_drop (by simp)]
    by_cases heq : name' = name
    · rw [if_pos heq]
      exact fun hnone => by cases hnone
    · rw [if_neg heq, if_neg (by simpa using heq)]
      exact h.kept name' text'
  listed p hp hextension := by
    rw [Files.Disk.listing_drop] at hp
    obtain ⟨hmem, hne⟩ := List.mem_filter.1 hp
    rw [Dict.get?_erase, if_neg (of_decide_eq_true hne)]
    exact h.listed p hmem hextension
  once := by
    rw [Files.Disk.listing_drop]
    exact h.once.sublist ((List.filter_sublist.filter isEntry).map Prod.fst)

/-- **Dropping some entries takes them out of the map.** -/
theorem dropAll {names : List String} (hnodup : names.Nodup)
    (hnames : ∀ name ∈ names, ∃ text, texts.get? name = some text) :
    ∃ texts', cache.Made (d.dropAll loc names) loc texts'
      ∧ ∀ name, texts'.get? name = if name ∈ names then none else texts.get? name := by
  -- Each name is in the map until its turn comes, as no name comes twice.
  induction names generalizing d texts with
  | nil => exact ⟨texts, h, fun name => by simp⟩
  | cons name names ih =>
      obtain ⟨hnot, hrest⟩ := List.nodup_cons.1 hnodup
      obtain ⟨⟨text, htext⟩, hothers⟩ := List.forall_mem_cons.1 hnames
      have hothers' : ∀ other ∈ names, ∃ text, (texts.erase name).get? other = some text := by
        intro other hother
        rw [Dict.get?_erase, if_neg fun (heq : other = name) => hnot (heq ▸ hother)]
        exact hothers other hother
      obtain ⟨texts', hmade, hlookups⟩ := ih (h.drop htext) hrest hothers'
      refine ⟨texts', hmade, fun other => ?_⟩
      rw [hlookups other, Dict.get?_erase]
      by_cases hother : other ∈ names
      · rw [if_pos hother, if_pos (List.mem_cons_of_mem name hother)]
      · by_cases heq : other = name
        · rw [if_neg hother, if_pos heq, if_pos (heq ▸ List.mem_cons_self)]
        · rw [if_neg hother, if_neg heq, if_neg fun hmem => (List.mem_cons.1 hmem).elim heq hother]

/-- The names of the entries that the folder lists are those of the map. -/
theorem mem_passing_iff (name : String) : name ∈ passing d loc ↔ name ∈ texts.keys := by
  rw [Dict.mem_keys_iff]
  constructor
  · intro hmem
    obtain ⟨p, hp, rfl⟩ := List.mem_map.1 hmem
    obtain ⟨hlisted, hentry⟩ := List.mem_filter.1 hp
    exact h.listed p hlisted (isEntry_iff.1 hentry).2
  · rintro ⟨text, htext⟩
    obtain ⟨key, rfl⟩ := h.named name text htext
    obtain ⟨modified, hitem⟩ := h.kept _ text htext
    have hentry : isEntry (entryName key, ItemKind.file) = true :=
      isEntry_iff.2 ⟨rfl, extension?_entryName key⟩
    exact List.mem_map.2 ⟨_, List.mem_filter.2 ⟨Files.Disk.mem_listing hitem, hentry⟩, rfl⟩

/-- There are as many entries in the folder as texts in the map. -/
theorem length_passing : (passing d loc).length = texts.size := by
  rw [← Dict.length_keys]
  exact ((List.perm_ext_iff_of_nodup h.once texts.nodup_keys).2 h.mem_passing_iff).length_eq

/-- What the map has under the name of an entry that the folder lists. -/
theorem get?_of_passing {name : String} (hname : name ∈ passing d loc) :
    ∃ text, texts.get? name = some text :=
  Dict.mem_keys_iff.1 ((h.mem_passing_iff name).1 hname)

/-- **Dropping all entries that the folder lists empties the map.** -/
theorem dropAll_passing : cache.Made (d.dropAll loc (passing d loc)) loc Dict.empty := by
  obtain ⟨texts', hmade, hlookups⟩ := h.dropAll h.once fun name hname => h.get?_of_passing hname
  have hempty : texts' = Dict.empty := by
    apply Dict.ext_get?
    intro name
    rw [hlookups name, Dict.get?_empty]
    split
    next => rfl
    next hnot =>
      cases htext : texts.get? name with
      | none => rfl
      | some text =>
          exact absurd ((h.mem_passing_iff name).2 (Dict.mem_keys_iff.2 ⟨text, htext⟩)) hnot
  rw [← hempty]
  exact hmade

/-- All entries can be removed. -/
theorem removable : Removable cache d loc (passing d loc) where
  once := h.once
  plain name hname := by
    obtain ⟨text, htext⟩ := h.get?_of_passing hname
    obtain ⟨key, rfl⟩ := h.named name text htext
    exact plainName_entryName key
  short name hname := by
    obtain ⟨text, htext⟩ := h.get?_of_passing hname
    obtain ⟨key, rfl⟩ := h.named name text htext
    exact h.short key
  isFile name hname := by
    obtain ⟨text, htext⟩ := h.get?_of_passing hname
    obtain ⟨modified, hitem⟩ := h.kept name text htext
    exact ⟨_, _, hitem⟩

/-! ## §3. Requests. -/

/-- Once the folder is made, setting puts the text of an entry in its file. -/
theorem run_set {before : Disk} (hmake : before.makeFolders cache.folder = (.ok ⟨⟩, d))
    (key : String) (value : CacheValue) :
    (cache.set Disk.files key value).run.run before
      = (.ok true,
          d.put (loc ++ [entryName key]) (.file (.text (Entry.text ⟨key, value⟩)) d.now)) := by
  exact run_set_of_write hmake
    (h.leads.writeContent_eq (plainName_entryName key) (h.short key) (h.free key) _)

/-- **Clearing the folder tells how many entries there were**, and drops them. -/
theorem run_clear :
    (cache.clear Disk.files).run.run d = (.ok texts.size, d.dropAll loc (passing d loc)) := by
  rw [← h.length_passing]
  exact h.removable.run_clear h.leads

end Made

/-! ## §4. A folder that is not there yet. -/

/-- **The folder of a cache is not there yet**; making it gives one without entries. -/
structure Unmade (cache : FolderCache) (d : Disk) : Prop where
  kind : d.kind cache.folder ≠ some .folder
  unread : ∀ key, d.readText (cache.entryPath key) = .error .notFound
  made : ∃ made loc, d.makeFolders cache.folder = (.ok ⟨⟩, made) ∧ cache.Made made loc Dict.empty

/-- **The folder of a cache holds texts**, or it is not there yet and holds none. -/
inductive Holds (cache : FolderCache) (d : Disk) : Dict String → Prop
  | made {loc : Location} {texts : Dict String} (h : cache.Made d loc texts) : Holds cache d texts
  | unmade (h : cache.Unmade d) : Holds cache d Dict.empty

/-- **Can the folder of a cache be made, if it is not there, and has it no entries
then?**  The paths of entries must not be too long for files. -/
structure Ready (cache : FolderCache) (d : Disk) : Prop where
  named : cache.folder ≠ ""
  short : ∀ key, (cache.entryPath key).utf8ByteSize < 4096
  made : ∃ made items, d.makeFolders cache.folder = (.ok ⟨⟩, made)
    ∧ made.list cache.folder = .ok items
    ∧ ∀ p ∈ items, Files.Path.extension? p.1 ≠ some entryExtension

/-- A folder that is there and has nothing with the extension of entries holds no texts. -/
theorem made_empty {cache : FolderCache} {made : Disk} {loc : Location}
    (hleads : made.Leads cache.folder loc)
    (hshort : ∀ key, (cache.entryPath key).utf8ByteSize < 4096)
    (hothers : ∀ p ∈ made.listing loc, Files.Path.extension? p.1 ≠ some entryExtension) :
    cache.Made made loc Dict.empty where
  leads := hleads
  short := hshort
  named name text hsome := by cases hsome
  kept name text hsome := by cases hsome
  listed p hp hextension := absurd hextension (hothers p hp)
  once := by
    have hnone : (made.listing loc).filter isEntry = [] := by
      rw [List.filter_eq_nil_iff]
      intro p hp hentry
      exact hothers p hp (isEntry_iff.1 hentry).2
    rw [hnone]
    exact List.nodup_nil

/-- **A folder that is ready holds the empty map.** -/
theorem Ready.holds {cache : FolderCache} {d : Disk} (h : cache.Ready d) :
    cache.Holds d Dict.empty := by
  obtain ⟨made, items, hmake, hlist, hitems⟩ := h.made
  obtain ⟨loc, hleads, hlisting⟩ := Files.Disk.leads_of_list h.named hlist
  have hmade : cache.Made made loc Dict.empty :=
    made_empty hleads h.short fun p hp => hitems p (hlisting ▸ hp)
  rcases Files.Disk.leads_or_missing h.named hmake with ⟨loc', hthere⟩ | ⟨hkind, hmissing, hroot⟩
  · have hsame : made = d := by
      rw [hthere.makeFolders_eq] at hmake
      exact (Prod.mk.inj hmake).2.symm
    exact .made (hsame ▸ hmade)
  · refine .unmade ⟨hkind, fun key => ?_, made, loc, hmake, hmade⟩
    exact hmissing.readText_join h.named hroot (plainName_entryName key) (h.short key)

/-- The path of an entry is short if that of the folder is. -/
theorem short_of_utf8ByteSize {cache : FolderCache} (hnamed : cache.folder ≠ "")
    (hfolder : cache.folder.utf8ByteSize < 4026) (key : String) :
    (cache.entryPath key).utf8ByteSize < 4096 := by
  have hentry := utf8ByteSize_entryName key
  have hslash : ("/" : String).utf8ByteSize = 1 := rfl
  unfold entryPath
  rcases Files.Disk.join_eq (plainName_entryName key) hnamed with ⟨above, habove, hjoin⟩ | hjoin
  · rw [hjoin, ← habove, String.utf8ByteSize_append]
    omega
  · rw [hjoin, String.utf8ByteSize_append, String.utf8ByteSize_append]
    omega

/-- **A new folder is ready**: one whose path is a name that nothing has yet in the
current folder. -/
theorem ready_of_plainName {cache : FolderCache} {d : Disk} (hname : PlainName cache.folder)
    (hcurrent : d.IsFolder d.current) (hnone : d.item? (d.current ++ [cache.folder]) = none)
    (hempty : d.listing (d.current ++ [cache.folder]) = []) : cache.Ready d where
  named := hname.nonempty
  short := short_of_utf8ByteSize hname.nonempty (Nat.lt_of_le_of_lt hname.short (by decide))
  made := by
    refine ⟨_, [], Files.Disk.makeFolders_plainName hname hcurrent hnone, ?_, fun p hp => by cases hp⟩
    rw [(Files.Disk.leads_put_folder hname hcurrent hnone d.now).list_eq,
      Files.Disk.listing_put_self, hempty]

namespace Holds

variable {cache : FolderCache} {d : Disk} {texts : Dict String} (h : cache.Holds d texts)

/-- What the texts of entries tell of a key. -/
def lookup (texts : Dict String) (key : String) : Except Error (Option CacheValue) :=
  match texts.get? (entryName key) with
  | none => .ok none
  | some text =>
      match Entry.parse text with
      | .error problem => .error (.malformedEntry key problem.message)
      | .ok entry => .ok (if entry.key = key then some entry.value else none)

include h

theorem readText_eq (key : String) :
    d.readText (cache.entryPath key)
      = match texts.get? (entryName key) with
        | some text => .ok text
        | none => .error .notFound := by
  cases h with
  | made h => exact h.readText_eq key
  | unmade h => exact h.unread key

/-- **Getting is looking up**, and changes nothing. -/
theorem get_eq (key : String) :
    (cache.get Disk.files key).run.run d = (lookup texts key, d) := by
  have hread := h.readText_eq key
  unfold lookup
  cases htext : texts.get? (entryName key) with
  | none =>
      rw [htext] at hread
      exact run_get_of_notFound hread
  | some text =>
      rw [htext] at hread
      exact run_get_of_text hread

/-- **Setting is inserting.** -/
theorem set_eq (key : String) (value : CacheValue) :
    ∃ d', (cache.set Disk.files key value).run.run d = (.ok true, d')
      ∧ cache.Holds d' (texts.insert (entryName key) (Entry.text ⟨key, value⟩)) := by
  cases h with
  | made h =>
      exact ⟨_, h.run_set h.leads.makeFolders_eq key value, .made (h.put key _)⟩
  | unmade h =>
      obtain ⟨made, loc, hmake, hempty⟩ := h.made
      exact ⟨_, hempty.run_set hmake key value, .made (hempty.put key _)⟩

/-- **Clearing is emptying**, and tells how many texts there were. -/
theorem clear_eq :
    ∃ d', (cache.clear Disk.files).run.run d = (.ok texts.size, d') ∧ cache.Holds d' Dict.empty := by
  cases h with
  | made h => exact ⟨_, h.run_clear, .made h.dropAll_passing⟩
  | unmade h => exact ⟨d, run_clear_of_kind h.kind, .unmade h⟩

end Holds

end FolderCache

end AnnotationCache

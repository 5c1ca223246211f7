/-
  AnnotationCache.Proofs.Store.Usable
  ───────────────────────────────────
  **FOLDERS THAT CACHES CAN USE.**

  A folder can be used for caches if it is not there yet and can be made, or if it
  is there and holds nothing but files.  Once it is cleared nothing in it passes for
  an entry, whatever the files were, and the files elsewhere are found as before.

  Main statements:
    * `Removable.keeps` — removing files keeps folders and links;
    * `Usable.clear`    — a usable folder that is cleared is shared by its caches,
      and files outside it are found as before.
-/
import AnnotationCache.Proofs.Store.Clearing
import AnnotationCache.Proofs.Store.History

namespace AnnotationCache

open AnnotationCache.Files (Disk Location)

/-- Does a path lead to no item of the folder at a location? -/
def Files.Disk.Outside (d : Disk) (loc : Location) (path : String) : Prop :=
  ∀ name, d.locate path true ≠ .ok (loc ++ [name])

namespace FolderCache

variable {cache : FolderCache} {caches : FolderCache → Prop} {d : Disk} {loc : Location}

/-- **Can caches use the folder at a location?**  It is not there, and then any of them
can make it; or it is there and holds nothing but files, and all of them lead to it. -/
inductive Usable (caches : FolderCache → Prop) (d : Disk) (loc : Location) : Prop
  | absent (missing : ∀ cache, caches cache → d.kind cache.folder = none)
      (share : Share caches d loc)
  | present (there : ∀ cache, caches cache → cache.Present d loc)
      (short : ∀ cache, caches cache → ∀ key, (cache.entryPath key).utf8ByteSize < 4096)
      (files : ∀ p ∈ d.listing loc, p.2 = .file)

/-- A folder that can be used is there, or nothing is. -/
theorem Usable.kind_eq (h : Usable caches d loc) (hcache : caches cache) :
    d.kind cache.folder = none ∨ d.kind cache.folder = some .folder := by
  cases h with
  | absent missing _ => exact .inl (missing cache hcache)
  | present there _ _ => exact .inr (there cache hcache).leads.kind_eq

/-! ## §1. Removing files. -/

/-- **Removing files keeps all folders and links.** -/
theorem Removable.keeps {names : List String} (h : Removable cache d loc names) :
    d.Keeps (d.dropAll loc names) where
  current := Files.Disk.current_dropAll d loc names
  folder place hfolder := by
    obtain ⟨modified, hitem⟩ := hfolder
    refine ⟨modified, ?_⟩
    rw [Files.Disk.item?_dropAll, if_neg]
    · exact hitem
    · rintro ⟨name, hname, rfl⟩
      obtain ⟨content, time, hfile⟩ := h.isFile name hname
      cases hfile.symm.trans hitem
  link place target hlink := by
    rw [Files.Disk.item?_dropAll, if_neg]
    · exact hlink
    · rintro ⟨name, hname, rfl⟩
      obtain ⟨content, time, hfile⟩ := h.isFile name hname
      cases hfile.symm.trans hlink

/-- A file outside the folder is found as before. -/
theorem Removable.find_eq {names : List String} {path : String} (h : Removable cache d loc names)
    (hfile : d.kind path = some .file) (houtside : d.Outside loc path) :
    (d.dropAll loc names).find path true = d.find path true := by
  obtain ⟨place, content, modified, hfind⟩ := Files.Disk.find_of_kind hfile
  obtain ⟨hlocate, hitem⟩ := Files.Disk.find_ok hfind
  rw [hfind]
  apply h.keeps.find_file hfind
  rw [Files.Disk.item?_dropAll, if_neg]
  · exact hitem
  · rintro ⟨name, -, rfl⟩
    exact houtside name hlocate

/-- Where a folder holds nothing but files, none is left that passes for an entry. -/
theorem extension?_dropAll_passing (hfiles : ∀ p ∈ d.listing loc, p.2 = .file) :
    ∀ p ∈ (d.dropAll loc (passing d loc)).listing loc,
      Files.Path.extension? p.1 ≠ some entryExtension := by
  intro p hp hextension
  rw [Files.Disk.listing_dropAll] at hp
  obtain ⟨hlisted, hleft⟩ := List.mem_filter.1 hp
  have hpassing : p.1 ∈ passing d loc :=
    List.mem_map.2 ⟨p, List.mem_filter.2 ⟨hlisted, isEntry_iff.2 ⟨hfiles p hlisted, hextension⟩⟩, rfl⟩
  exact of_decide_eq_true hleft hpassing

/-! ## §2. Clearing. -/

/-- **Clearing a folder that can be used** leaves one that its caches share, without
entries, and files outside it are found as before. -/
theorem Usable.clear (h : Usable caches d loc) (hcache : caches cache) :
    ∃ start count, (cache.clear Disk.files).run.run d = (.ok count, start)
      ∧ Share caches start loc
      ∧ ∀ path, d.kind path = some .file → d.Outside loc path →
          start.find path true = d.find path true := by
  cases h with
  | absent missing share =>
      have hkind : d.kind cache.folder ≠ some .folder := by
        rw [missing cache hcache]
        exact fun heq => by cases heq
      exact ⟨d, 0, run_clear_of_kind hkind, share, fun _ _ _ => rfl⟩
  | present there short files =>
      have hremovable : Removable cache d loc (passing d loc) := (there cache hcache).removable
      have hleads : ∀ other, caches other →
          (d.dropAll loc (passing d loc)).Leads other.folder loc :=
        fun other hother => (there other hother).leads.keeps hremovable.keeps
      refine ⟨_, _, hremovable.run_clear (there cache hcache).leads, ⟨?_, short, ?_⟩,
        fun path hfile houtside => hremovable.find_eq hfile houtside⟩
      · exact fun other hother => (hleads other hother).nonempty
      · intro other hother
        exact ⟨_, (hleads other hother).makeFolders_eq, hleads, extension?_dropAll_passing files⟩

end FolderCache

end AnnotationCache

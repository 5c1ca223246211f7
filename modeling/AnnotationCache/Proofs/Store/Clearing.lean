/-
  AnnotationCache.Proofs.Store.Clearing
  ─────────────────────────────────────
  **WHAT CLEARING REMOVES.**

  Clearing goes by the end of a name: each file of the folder that ends as
  entries do is removed, whoever wrote it.  Folders, links, files with other
  names and all that lies elsewhere stay.  So clearing removes entries only
  exactly where every file that ends so has the name of an entry, and in a
  folder with a manifest in it that is not the case.

  Main statements:
    * `FolderCache.mem_passing_iff_file` — the files that clearing takes for entries;
    * `FolderCache.clear_removes`        — clearing removes these and nothing else;
    * `FolderCache.clear_may_remove_others` — they need not be entries.
-/
import AnnotationCache.Proofs.Store.RoundTrip

namespace AnnotationCache.FolderCache

open AnnotationCache.Files (Disk Item ItemKind Location)
open AnnotationCache.Files.Disk (PlainName)

variable {cache : FolderCache} {d : Disk} {loc : Location}

/-- **The folder of a cache is there**, and what it lists has names that files may have,
each one once, with paths that are not too long. -/
structure Present (cache : FolderCache) (d : Disk) (loc : Location) : Prop where
  leads : d.Leads cache.folder loc
  once : d.NamedOnce loc
  plain : ∀ p ∈ d.listing loc, PlainName p.1
  short : ∀ p ∈ d.listing loc, (Files.Path.join cache.folder p.1).utf8ByteSize < 4096

/-- **What passes for an entry** is a file of the folder that ends as entries do. -/
theorem mem_passing_iff_file (honce : d.NamedOnce loc) {name : String} :
    name ∈ passing d loc
      ↔ (∃ content modified, d.item? (loc ++ [name]) = some (.file content modified))
        ∧ Files.Path.extension? name = some entryExtension := by
  unfold passing
  rw [List.mem_map]
  constructor
  · rintro ⟨p, hp, rfl⟩
    obtain ⟨hlisted, hentry⟩ := List.mem_filter.1 hp
    obtain ⟨hkind, hextension⟩ := isEntry_iff.1 hentry
    obtain ⟨item, hitem, hsame⟩ := (Files.Disk.mem_listing_iff honce).1 hlisted
    rw [hkind] at hsame
    cases item with
    | file content modified => exact ⟨⟨content, modified, hitem⟩, hextension⟩
    | folder modified => cases hsame
    | link target => cases hsame
  · rintro ⟨⟨content, modified, hitem⟩, hextension⟩
    exact ⟨(name, .file), List.mem_filter.2
      ⟨Files.Disk.mem_listing hitem, isEntry_iff.2 ⟨rfl, hextension⟩⟩, rfl⟩

/-- Each of these files can be removed. -/
theorem Present.removable (h : cache.Present d loc) : Removable cache d loc (passing d loc) where
  once := h.once.nodup_listing.sublist (List.filter_sublist.map Prod.fst)
  plain name hname := by
    obtain ⟨p, hp, rfl⟩ := List.mem_map.1 hname
    exact h.plain p (List.mem_filter.1 hp).1
  short name hname := by
    obtain ⟨p, hp, rfl⟩ := List.mem_map.1 hname
    exact h.short p (List.mem_filter.1 hp).1
  isFile name hname := ((mem_passing_iff_file h.once).1 hname).1

/-- **Clearing removes each file of the folder that ends as entries do**, tells their
number, and leaves all else as it is.  So what is removed was an entry exactly if
all files that end so are. -/
theorem clear_removes (h : cache.Present d loc) :
    ∃ (d' : Disk) (names : List String), (cache.clear Disk.files).run.run d = (.ok names.length, d')
      ∧ names.Nodup
      ∧ (∀ name, name ∈ names
          ↔ (∃ content modified, d.item? (loc ++ [name]) = some (.file content modified))
            ∧ Files.Path.extension? name = some entryExtension)
      ∧ (∀ place, d'.item? place
          = if ∃ name ∈ names, place = loc ++ [name] then none else d.item? place)
      ∧ ((∀ place, d'.item? place ≠ d.item? place → ∃ key, place = loc ++ [entryName key])
          ↔ ∀ name ∈ names, ∃ key, name = entryName key) := by
  have hafter := d.item?_dropAll loc (passing d loc)
  refine ⟨d.dropAll loc (passing d loc), passing d loc, h.removable.run_clear h.leads,
    h.removable.once, fun name => mem_passing_iff_file h.once, hafter, ?_⟩
  constructor
  · intro honly name hname
    obtain ⟨content, modified, hitem⟩ := h.removable.isFile name hname
    have hgone : (d.dropAll loc (passing d loc)).item? (loc ++ [name]) ≠ d.item? (loc ++ [name]) := by
      rw [hafter, if_pos ⟨name, hname, rfl⟩, hitem]
      exact Option.some_ne_none _ ∘ Eq.symm
    obtain ⟨key, hplace⟩ := honly _ hgone
    exact ⟨key, by simpa using hplace⟩
  · intro hentries place hchanged
    rw [hafter] at hchanged
    by_cases hremoved : ∃ name ∈ passing d loc, place = loc ++ [name]
    · obtain ⟨name, hname, rfl⟩ := hremoved
      obtain ⟨key, rfl⟩ := hentries name hname
      exact ⟨key, rfl⟩
    · exact absurd (if_neg hremoved) hchanged

/-! ## §1. A manifest beside the entries. -/

/-- A disk with a manifest in the folder of the cache. -/
def keptTypes : Disk :=
  shownFolder.put ["cache", "types.json"] (.file (.text "{}") 0)

theorem present_keptTypes : Present ⟨"cache"⟩ keptTypes ["cache"] where
  leads := by
    have hfree : shownFolder.Free ["cache", "types.json"] := .inl rfl
    exact leads_shownFolder.keeps (hfree.keeps_put (by simp) _)
  once := by decide
  plain p hp := by
    obtain rfl : p = ("types.json", .file) := List.mem_singleton.1 hp
    exact ⟨by decide, by decide, by decide, by decide, by decide, by decide⟩
  short p hp := by
    obtain rfl : p = ("types.json", .file) := List.mem_singleton.1 hp
    decide

theorem clear_removes_keptTypes :
    Present ⟨"cache"⟩ keptTypes ["cache"]
      ∧ ∃ (d' : Disk) (names : List String),
        (clear Disk.files ⟨"cache"⟩).run.run keptTypes = (.ok names.length, d')
          ∧ "types.json" ∈ names ∧ d'.item? ["cache", "types.json"] = none := by
  obtain ⟨d', names, hrun, -, hnames, hafter, -⟩ := clear_removes present_keptTypes
  have hmem : "types.json" ∈ names := (hnames "types.json").2 ⟨⟨.text "{}", 0, rfl⟩, by decide⟩
  exact ⟨present_keptTypes, d', names, hrun, hmem, (hafter _).trans (if_pos ⟨_, hmem, rfl⟩)⟩

/-- **The file that is removed need not be an entry**: the manifest is gone, whose name
is that of no entry. -/
theorem clear_may_remove_others :
    keptTypes.item? ["cache", "types.json"] = some (.file (.text "{}") 0)
      ∧ (∀ key, entryName key ≠ "types.json")
      ∧ ((clear Disk.files ⟨"cache"⟩).run.run keptTypes).1 = .ok 1
      ∧ ((clear Disk.files ⟨"cache"⟩).run.run keptTypes).2.item? ["cache", "types.json"] = none := by
  have hrun : (clear Disk.files ⟨"cache"⟩).run.run keptTypes
      = (.ok 1, keptTypes.dropAll ["cache"] ["types.json"]) :=
    present_keptTypes.removable.run_clear present_keptTypes.leads
  refine ⟨rfl, ?_, by rw [hrun], by rw [hrun]; rfl⟩
  intro key heq
  have hlength := length_entryName key
  rw [heq] at hlength
  exact absurd hlength (by decide)

end AnnotationCache.FolderCache

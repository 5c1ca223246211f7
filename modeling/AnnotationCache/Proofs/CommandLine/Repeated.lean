/-
  AnnotationCache.Proofs.CommandLine.Repeated
  ───────────────────────────────────────────
  **RUNS WITH AND WITHOUT A CACHE TELL THE SAME.**

  A run without a cache gives what the manifest declares of the target.  A run
  through a cache that it has cleared computes that and stores it, and as long as
  no file changes, every run after it finds it there or computes it again.

  What is in the folder before it is cleared does not matter, nor does how often the
  runs after that check or clear, nor when they are made.

  Main statements:
    * `Tells`, `tells_of_uncached` — what a run has to tell, and that one without a
      cache tells it;
    * `Start.run_through`          — so does one through a cache that holds nothing else,
      and leaves the cache as the next one needs it;
    * `Start.run_between`, `Start.outcomes_eq` — so does each run after that, and any
      number of them;
    * `cached_runs_agree`          — a run without a cache, a run that clears the cache,
      and any runs after it give one report.
-/
import AnnotationCache.Proofs.CommandLine.Run
import AnnotationCache.Proofs.Reading.Answered
import AnnotationCache.Proofs.Store.Key
import AnnotationCache.Proofs.Store.Usable

namespace AnnotationCache.CommandLine

open AnnotationCache.Files (Disk Location)
open AnnotationCache.Types (Descriptor Registry normalize)
open AnnotationCache.FolderCache (Rereads Share Usable)

variable {home userProfile : Option String} {o c : Options} {d d' : Disk} {manifest : Manifest}
  {registry : Registry} {list : List Annotation}

/-! ## §1. What there is to tell. -/

/-- **Is this what a run has to tell**, by the manifest that it is given? -/
structure Tells (o : Options) (d : Disk) (manifest : Manifest) (registry : Registry)
    (list : List Annotation) : Prop where
  file : d.kind o.manifest = some .file
  named : o.target.className.isEmpty = false
  loaded : (Manifest.load Disk.files o.manifest).run.run d = (.ok manifest, d)
  registered : manifest.registry = .ok registry
  read : (DeclaredReader.ofRegistry registry manifest.ignored).read o.target = .ok list

/-- The class of the target is the one that is asked about. -/
theorem Options.className_target (o : Options) : o.target.className = normalize o.className := by
  unfold Options.target
  rw [Target.className_normalized]
  cases o.method with
  | some m => rfl
  | none => cases o.property <;> rfl

/-- **A run without a cache tells it.** -/
theorem tells_of_uncached {report : String} (huncached : o.noCache = true)
    (h : (run (onDisk home userProfile) o).run.run d = (.ok report, d')) :
    ∃ manifest registry list, Tells o d manifest registry list ∧ report = reportOf o list := by
  obtain ⟨manifest, registry, list, hran, hreport⟩ := ran_of_run h
  obtain ⟨hfile, hnamed, -⟩ := Options.verdict_ok_iff.1 hran.checked
  have hread := hran.read
  rw [readTarget, if_pos huncached] at hread
  refine ⟨manifest, registry, list, ⟨hfile, ?_, hran.loaded, hran.registered, ?_⟩, hreport⟩
  · rw [o.className_target]
    exact hnamed
  · exact (run_readUncached_eq_ok.1 hread).1

/-- It is the same where the manifest is found as before. -/
theorem Tells.congr (h : Tells o d manifest registry list)
    (hfind : d'.find o.manifest true = d.find o.manifest true) :
    Tells o d' manifest registry list where
  file := (Files.Disk.kind_congr hfind).trans h.file
  named := h.named
  loaded := Manifest.run_load_congr hfind h.loaded
  registered := h.registered
  read := h.read

/-- **Does a run ask for what another asks for, through one of some caches?** -/
structure Options.Through (c o : Options) (home userProfile : Option String)
    (caches : FolderCache → Prop) : Prop where
  manifest : c.manifest = o.manifest
  target : c.target = o.target
  format : c.format = o.format
  cached : c.noCache = false
  folder : ∃ cache, caches cache ∧ c.folder (onDisk home userProfile) = .ok cache.folder

/-- Then it has the same to tell. -/
theorem Tells.through {caches : FolderCache → Prop} (h : Tells o d manifest registry list)
    (hc : c.Through o home userProfile caches) : Tells c d manifest registry list where
  file := hc.manifest ▸ h.file
  named := hc.target ▸ h.named
  loaded := hc.manifest ▸ h.loaded
  registered := h.registered
  read := hc.target ▸ h.read

theorem Options.Through.reportOf_eq {caches : FolderCache → Prop}
    (h : c.Through o home userProfile caches) (list : List Annotation) :
    reportOf c list = reportOf o list := by
  unfold reportOf
  rw [h.format, h.target]

/-- The folder that is checked is the one that is used. -/
theorem Options.eq_of_folder {folder used : String} (hchecked : c.cacheFolder = some folder)
    (hused : c.folder (onDisk home userProfile) = .ok used) : folder = used := by
  unfold Options.folder at hused
  rw [hchecked] at hused
  exact Except.ok.inj hused

/-! ## §2. One run after another. -/

/-- **How a disk stands between runs through a cache**: nothing was set but the result and
its time, and something was. -/
def Between (caches : FolderCache → Prop) (start : Disk) (loc : Location) (o : Options)
    (list : List Annotation) (types : List Descriptor) (d : Disk) : Prop :=
  ∃ history, Rereads caches start loc o.target list (latestTime (fileSeconds start) types) d history
    ∧ history ≠ []

/-- A run at some second. -/
structure Occasion where
  now : Int
  options : Options

/-- **What runs give, one after another.**  Each finds the disk as the one before it has
left it. -/
def outcomes (s : Surroundings (StateM Disk)) : Disk → List Occasion → List (Except Failure String)
  | _, [] => []
  | d, x :: later =>
      let (outcome, d) := (run s x.options).run.run { d with now := x.now }
      outcome :: outcomes s d later

section Through

variable {caches : FolderCache → Prop} {start : Disk} {loc : Location} {types : List Descriptor}
  {cache : FolderCache} {history : FolderCache.History}

/-- Clearing the cache, if that is asked for, leaves nothing else in it. -/
theorem Options.exists_clears {t : Target} {current : Int} (c : Options)
    (hshare : Share caches start loc) (hcache : caches cache)
    (h : Rereads caches start loc t list current d history) :
    ∃ cleared history', c.Clears cache d cleared
      ∧ Rereads caches start loc t list current cleared history' := by
  unfold Options.Clears
  cases c.clearCache with
  | true =>
      obtain ⟨cleared, count, hrun, hafter⟩ := h.clear hshare hcache
      exact ⟨cleared, [], ⟨count, hrun⟩, hafter⟩
  | false => exact ⟨d, history, rfl, h⟩

/-- **Where runs through a cache start**: the caches share a folder without entries, and
what there is to tell can be read and stored there. -/
structure Start (caches : FolderCache → Prop) (start : Disk) (loc : Location) (o : Options)
    (manifest : Manifest) (registry : Registry) (list : List Annotation)
    (types : List Descriptor) : Prop where
  share : Share caches start loc
  tells : Tells o start manifest registry list
  closure : registry.closure o.target.className = .ok types
  sourced : Sourced start types
  storable : (CacheValue.annotations list).Storable

variable (hstart : Start caches start loc o manifest registry list types)

include hstart

/-- **A run through a cache tells what there is to tell**, if nothing else is in the cache
once it is cleared, where that is asked for. -/
theorem Start.run_through {cleared : Disk} (htells : Tells o d manifest registry list)
    (hc : c.Through o home userProfile caches) (hcache : caches cache)
    (hfolder : c.folder (onDisk home userProfile) = .ok cache.folder)
    (hkind : d.kind cache.folder = none ∨ d.kind cache.folder = some .folder)
    (hcleared : c.Clears cache d cleared)
    (h : Rereads caches start loc o.target list (latestTime (fileSeconds start) types) cleared
      history) :
    ∃ d', (run (onDisk home userProfile) c).run.run d = (.ok (reportOf o list), d')
      ∧ Between caches start loc o list types d' := by
  obtain ⟨r, d', history', hread, hafter, hset⟩ := h.read hstart.share hcache hstart.closure
    hstart.sourced htells.read hstart.storable c.debug
  have htells' := htells.through hc
  -- If the folder is not there yet, the check lets it pass, and the read makes it.
  have hchecked : c.verdict d.kind = .ok ⟨⟩ := by
    refine Options.verdict_ok_iff.2 ⟨htells'.file, ?_, fun folder hnamed => ?_⟩
    · rw [← c.className_target]
      exact htells'.named
    · rw [Options.eq_of_folder hnamed hfolder]
      exact hkind
  rw [← hc.target] at hread
  have hran : Ran home userProfile c d d' manifest registry list :=
    { checked := hchecked
      loaded := htells'.loaded
      registered := htells'.registered
      read := by
        rw [readTarget, hc.cached, if_neg Bool.false_ne_true]
        exact run_readCached hfolder hcleared hread }
  refine ⟨d', ?_, history', hafter, hset⟩
  rw [hran.run_eq, hc.reportOf_eq list]

/-- **Between runs through a cache a run tells what there is to tell**, at any second. -/
theorem Start.run_between (h : Between caches start loc o list types d)
    (hc : c.Through o home userProfile caches) (now : Int) :
    ∃ d', (run (onDisk home userProfile) c).run.run { d with now := now }
        = (.ok (reportOf o list), d')
      ∧ Between caches start loc o list types d' := by
  obtain ⟨history, hrereads, hset⟩ := h
  obtain ⟨cache, hcache, hfolder⟩ := hc.folder
  have hlater := hrereads.later hset now
  obtain ⟨cleared, history', hcleared, hafter⟩ := c.exists_clears hstart.share hcache hlater
  -- The manifest was there at the start, so it is found as it was.
  have hfind := hlater.grows.find_eq hstart.tells.file
  exact hstart.run_through (hstart.tells.congr hfind) hc hcache hfolder
    (.inr (hlater.stands.kind_eq hset hcache)) hcleared hafter

/-- **So do any number of them.** -/
theorem Start.outcomes_eq {later : List Occasion}
    (hlater : ∀ x ∈ later, x.options.Through o home userProfile caches)
    (h : Between caches start loc o list types d) :
    outcomes (onDisk home userProfile) d later = later.map fun _ => .ok (reportOf o list) := by
  induction later generalizing d with
  | nil => rfl
  | cons x later ih =>
      obtain ⟨hx, hrest⟩ := List.forall_mem_cons.1 hlater
      obtain ⟨d', hrun, hafter⟩ := hstart.run_between h hx x.now
      unfold outcomes
      rw [hrun]
      dsimp only
      rw [ih hrest hafter, List.map_cons]

end Through

/-! ## §3. Runs that agree. -/

/-- Are the files that a run looks at no items of the folder at a location? -/
structure Apart (d : Disk) (loc : Location) (o : Options) (types : List Descriptor) : Prop where
  manifest : d.Outside loc o.manifest
  sources : ∀ t ∈ types, ∀ path, t.source = some path → d.Outside loc path

/-- What there is to tell can be stored, if its floats read back. -/
theorem Tells.storable (h : Tells o d manifest registry list)
    (hfloats : ∀ a ∈ list, Json.FloatsReadBackMembers a.values.entries) :
    (CacheValue.annotations list).Storable := by
  have hwithin := Manifest.within_of_read (r := .ofRegistry registry manifest.ignored)
    (Manifest.within_of_load h.loaded) h.registered h.read
  exact ⟨fun a ha => ⟨(hwithin a ha).canonical, hfloats a ha⟩, fun a ha => (hwithin a ha).depth⟩

/-- **Runs with and without a cache give one report.**  Let each type on which the class
depends be registered, with a file for its source or none; and let the folder of the
cache be missing, or hold nothing but files, with neither the manifest nor a source among
them.  If then a run without a cache gives a report, a run that clears the cache gives
that report too, and so does every run after it, whether it checks, clears or neither. -/
theorem cached_runs_agree {caches : FolderCache → Prop} {loc : Location}
    {types : List Descriptor} {report : String} {earlier : Int} {later : List Occasion}
    (huncached : o.noCache = true)
    (hreport : ((run (onDisk home userProfile) o).run.run { d with now := earlier }).1 = .ok report)
    (hload : ((Manifest.load Disk.files o.manifest).run.run d).1 = .ok manifest)
    (hregistry : manifest.registry = .ok registry)
    (hclosure : registry.closure o.target.className = .ok types) (hsourced : Sourced d types)
    (husable : Usable caches d loc) (hapart : Apart d loc o types)
    (hfloats : ∀ list, (DeclaredReader.ofRegistry registry manifest.ignored).read o.target
        = .ok list → ∀ a ∈ list, Json.FloatsReadBackMembers a.values.entries)
    (hc : c.Through o home userProfile caches) (hclears : c.clearCache = true)
    (hlater : ∀ x ∈ later, x.options.Through o home userProfile caches) :
    ∃ after, (run (onDisk home userProfile) c).run.run d = (.ok report, after)
      ∧ outcomes (onDisk home userProfile) after later = later.map fun _ => .ok report := by
  obtain ⟨manifest', registry', list, hbefore, rfl⟩ :=
    tells_of_uncached huncached (Prod.ext hreport rfl)
  -- The second makes no difference to what is found.
  have hgrows : ({ d with now := earlier } : Disk).Grows d := ⟨rfl, fun _ _ hitem => hitem⟩
  have htells : Tells o d manifest' registry' list :=
    hbefore.congr (hgrows.find_eq hbefore.file)
  obtain rfl : manifest' = manifest := by
    rw [htells.loaded] at hload
    exact Except.ok.inj hload
  obtain rfl : registry' = registry := Except.ok.inj (htells.registered.symm.trans hregistry)
  obtain ⟨cache, hcache, hfolder⟩ := hc.folder
  -- The runs after the first start from the disk that clearing leaves; the manifest and
  -- the sources are no part of the folder, so all of them are found there as before.
  obtain ⟨start, count, hclear, hshare, hsame⟩ := husable.clear hcache
  have hstart : Start caches start loc o manifest' registry' list types :=
    { share := hshare
      tells := htells.congr (hsame _ htells.file hapart.manifest)
      closure := hclosure
      sourced := hsourced.congr fun t ht path hsource =>
        hsame path (hsourced t ht path hsource).1 (hapart.sources t ht path hsource)
      storable := htells.storable (hfloats list htells.read) }
  have hcleared : c.Clears cache d start := by
    rw [Options.Clears, if_pos hclears]
    exact ⟨count, hclear⟩
  obtain ⟨after, hrun, hafter⟩ := hstart.run_through htells hc hcache hfolder
    (husable.kind_eq hcache) hcleared hshare.rereads
  exact ⟨after, hrun, hstart.outcomes_eq hlater hafter⟩

/-! ## §4. Runs on a folder with a leftover. -/

/-- A page with its source. -/
def page : Descriptor where
  name := "App\\Page"
  source := some "Page.php"
  annotations := Manifest.shownList

/-- A manifest of the page, as it is written. -/
def pageText : String :=
  (Json.obj [("types", .arr [.obj [("name", .str "App\\Page"), ("source", .str "Page.php"),
    ("annotations", .arr (Manifest.shownList.map Annotation.toJson))]])]).compact

theorem parse_pageText :
    Manifest.parse .json pageText "types.json" = .ok { types := [page] } := by
  have hread : Manifest.ofJson pageText = .ok { types := [page] } :=
    Json.decode_compact _ (Json.floatsReadBack_of_floatFree _ rfl)
  unfold Manifest.parse
  dsimp only
  rw [hread]
  rfl

/-- A disk with the manifest, the source, and a folder in which a file is left over. -/
def siteDisk : Disk :=
  ((FolderCache.shownFolder.put ["cache", "old.json"] (.file (.text "{}") 0)).put
    ["Page.php"] (.file (.text "<?php") 100)).put ["types.json"] (.file (.text pageText) 90)

/-- What is in the current folder of the disk is found by its name. -/
theorem find_siteDisk {name : String} {content : Files.Content} {modified : Int}
    (hname : Files.Disk.PlainName name)
    (hitem : siteDisk.item? [name] = some (.file content modified)) :
    siteDisk.find name true = .ok ([name], .file content modified) := by
  have hlocate : siteDisk.locate name true = .ok [name] :=
    Files.Disk.locate_plainName hname ⟨0, rfl⟩ true
      (Files.Disk.Free.target?_eq_none (.inr ⟨content, modified, hitem⟩))
  unfold Disk.find
  rw [hlocate]
  dsimp only [bind, Except.bind]
  rw [hitem]
  rfl

theorem find_manifest : siteDisk.find "types.json" true
    = .ok (["types.json"], .file (.text pageText) 90) :=
  find_siteDisk ⟨by decide, by decide, by decide, by decide, by decide, by decide⟩ rfl

theorem find_source : siteDisk.find "Page.php" true
    = .ok (["Page.php"], .file (.text "<?php") 100) :=
  find_siteDisk ⟨by decide, by decide, by decide, by decide, by decide, by decide⟩ rfl

/-- The folder is there, with the file that is left over. -/
theorem present_siteDisk : FolderCache.Present ⟨"cache"⟩ siteDisk ["cache"] where
  leads := by
    have hleads := FolderCache.leads_shownFolder
    have hold : FolderCache.shownFolder.Free ["cache", "old.json"] := .inl rfl
    replace hleads := hleads.keeps (hold.keeps_put (by decide) (.file (.text "{}") 0))
    have hsource : Disk.Free (FolderCache.shownFolder.put ["cache", "old.json"]
        (.file (.text "{}") 0)) ["Page.php"] := .inl rfl
    replace hleads := hleads.keeps (hsource.keeps_put (by decide) (.file (.text "<?php") 100))
    exact hleads.keeps (Files.Disk.Free.keeps_put (.inl rfl) (by decide) _)
  once := by decide
  plain p hp := by
    obtain rfl : p = ("old.json", .file) := List.mem_singleton.1 hp
    exact ⟨by decide, by decide, by decide, by decide, by decide, by decide⟩
  short p hp := by
    obtain rfl : p = ("old.json", .file) := List.mem_singleton.1 hp
    decide

/-- The source is beside the manifest. -/
theorem resolved_page :
    Manifest.resolved { types := [page] } "types.json" = { types := [page] } := by
  have hdirectory : Files.Path.directory? "types.json" = some "" := by decide
  have hjoin : Files.Path.join "" "Page.php" = "Page.php" := by decide
  have hsource : Manifest.resolveSource "" page = page := by
    unfold Manifest.resolveSource
    rw [show page.source = some "Page.php" from rfl, Option.map_some, hjoin]
    rfl
  unfold Manifest.resolved Manifest.resolveSources
  rw [hdirectory]
  dsimp only
  rw [List.map_cons, hsource]
  rfl

theorem load_siteDisk :
    (Manifest.load Disk.files "types.json").run.run siteDisk
      = (.ok { types := [page] }, siteDisk) := by
  have hformat : ManifestFormat.ofPath "types.json" = .ok .json := by decide
  have hkind : siteDisk.kind "types.json" = some .file := by
    unfold Disk.kind
    rw [find_manifest]
    rfl
  have htext : siteDisk.readText "types.json" = .ok pageText := by
    unfold Disk.readText
    rw [find_manifest]
    rfl
  rw [Manifest.run_load, hkind, htext, Manifest.fromFile_of_parse hformat parse_pageText,
    resolved_page]

theorem registry_page :
    ({ types := [page] } : Manifest).registry = .ok ⟨Dict.ofList [("App\\Page", page)]⟩ := rfl

/-- The options of the run without a cache. -/
def withoutCache : Options where
  manifest := "types.json"
  className := "App\\Page"
  noCache := true

/-- Those of a run through the folder. -/
def throughFolder : Options where
  manifest := "types.json"
  className := "\\App\\Page"
  cacheFolder := some "cache"

/-- The report of them all. -/
def pageReport : String :=
  reportOf withoutCache Manifest.shownList

theorem read_page : (DeclaredReader.ofRegistry ⟨Dict.ofList [("App\\Page", page)]⟩ []).read
    withoutCache.target = .ok Manifest.shownList := rfl

theorem run_withoutCache :
    (run (onDisk none none) withoutCache).run.run siteDisk = (.ok pageReport, siteDisk) := by
  have hran : Ran none none withoutCache siteDisk siteDisk { types := [page] }
      ⟨Dict.ofList [("App\\Page", page)]⟩ Manifest.shownList :=
    { checked := by
        refine Options.verdict_ok_iff.2 ⟨?_, by decide, fun _ hnamed => by cases hnamed⟩
        unfold Disk.kind
        rw [show withoutCache.manifest = "types.json" from rfl, find_manifest]
        rfl
      loaded := load_siteDisk
      registered := registry_page
      read := by
        rw [readTarget, if_pos (show withoutCache.noCache = true from rfl)]
        exact run_readUncached_eq_ok.2 ⟨read_page, rfl⟩ }
  exact hran.run_eq

theorem target_throughFolder : throughFolder.target = withoutCache.target := by decide

theorem through_throughFolder (clearing checking : Bool) :
    Options.Through { throughFolder with clearCache := clearing, debug := checking } withoutCache
      none none (· = ⟨"cache"⟩) where
  manifest := rfl
  target := target_throughFolder
  format := rfl
  cached := rfl
  folder := ⟨⟨"cache"⟩, rfl, rfl⟩

theorem sourced_siteDisk : Sourced siteDisk [page] := by
  intro d hd path hsource
  obtain rfl : d = page := List.mem_singleton.1 hd
  obtain rfl : "Page.php" = path := Option.some.inj hsource
  unfold Disk.kind Disk.modified
  rw [find_source]
  refine ⟨rfl, fun time htime => ?_⟩
  obtain rfl : 100 = time := Except.ok.inj htime
  decide

theorem usable_siteDisk : Usable (· = ⟨"cache"⟩) siteDisk ["cache"] := by
  refine .present ?_ ?_ ?_
  · rintro _ rfl
    exact present_siteDisk
  · rintro _ rfl key
    exact FolderCache.short_of_utf8ByteSize (by decide) (by decide) key
  · decide

/-- What is found in the current folder is not in the other. -/
theorem outside_of_find {name path : String} {item : Files.Item}
    (hfind : siteDisk.find path true = .ok ([name], item)) : siteDisk.Outside ["cache"] path := by
  intro other hlocate
  cases (Files.Disk.find_ok hfind).1.symm.trans hlocate

theorem cached_runs_agree_on_siteDisk :
    ((run (onDisk none none) withoutCache).run.run siteDisk).1 = .ok pageReport
      ∧ ((Manifest.load Disk.files "types.json").run.run siteDisk).1 = .ok { types := [page] }
      ∧ Usable (· = ⟨"cache"⟩) siteDisk ["cache"] ∧ Apart siteDisk ["cache"] withoutCache [page]
      ∧ Sourced siteDisk [page]
      ∧ ∃ after,
        (run (onDisk none none) { throughFolder with clearCache := true }).run.run siteDisk
            = (.ok pageReport, after)
          ∧ outcomes (onDisk none none) after
              [⟨50, { throughFolder with debug := true }⟩,
                ⟨40, { throughFolder with clearCache := true, debug := true }⟩]
            = [.ok pageReport, .ok pageReport] := by
  have hreport : ((run (onDisk none none) withoutCache).run.run siteDisk).1 = .ok pageReport := by
    rw [run_withoutCache]
  have hload : ((Manifest.load Disk.files "types.json").run.run siteDisk).1
      = .ok { types := [page] } := by
    rw [load_siteDisk]
  have hapart : Apart siteDisk ["cache"] withoutCache [page] := by
    refine ⟨outside_of_find find_manifest, fun d hd path hsource => ?_⟩
    obtain rfl : d = page := List.mem_singleton.1 hd
    obtain rfl : "Page.php" = path := Option.some.inj hsource
    exact outside_of_find find_source
  have hfloats : ∀ list, (DeclaredReader.ofRegistry ⟨Dict.ofList [("App\\Page", page)]⟩ []).read
      withoutCache.target = .ok list → ∀ a ∈ list, Json.FloatsReadBackMembers a.values.entries := by
    intro list hlist a ha
    obtain rfl : Manifest.shownList = list := Except.ok.inj (read_page.symm.trans hlist)
    rw [List.mem_singleton.1 ha]
    exact Json.floatsReadBackMembers_of_floatFree _ rfl
  have hlater : ∀ x ∈ [(⟨50, { throughFolder with debug := true }⟩ : Occasion),
      ⟨40, { throughFolder with clearCache := true, debug := true }⟩],
      x.options.Through withoutCache none none (· = ⟨"cache"⟩) := by
    simp only [List.forall_mem_cons]
    exact ⟨through_throughFolder false true, through_throughFolder true true, by simp⟩
  exact ⟨hreport, hload, usable_siteDisk, hapart, sourced_siteDisk,
    cached_runs_agree rfl hreport hload registry_page rfl sourced_siteDisk usable_siteDisk hapart
      hfloats (through_throughFolder true false) rfl hlater⟩

end AnnotationCache.CommandLine

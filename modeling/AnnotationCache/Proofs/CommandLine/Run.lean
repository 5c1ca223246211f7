/-
  AnnotationCache.Proofs.CommandLine.Run
  ──────────────────────────────────────
  **A RUN ON A DISK, STAGE BY STAGE.**

  A run checks its options, loads the manifest, registers its types, reads the
  target and renders what was read.  It gives a report exactly if every stage comes
  to something, and only the last one before the report can change the disk.

  Main statements:
    * `Options.verdict_ok_iff`   — what the check asks for;
    * `run_stages`               — a run, stage by stage;
    * `Ran.run_eq`, `ran_of_run` — a run that gives a report, by what its stages give;
    * `run_readCached`           — reading through the cache: clearing it, and one read.
-/
import AnnotationCache.CommandLine.Run
import AnnotationCache.Files.Disk
import AnnotationCache.Proofs.Manifest.Loading
import AnnotationCache.Proofs.Reading.Course
import AnnotationCache.Proofs.Requests

namespace AnnotationCache.CommandLine

open AnnotationCache.Files (Disk ItemKind)
open AnnotationCache.Types (Registry normalize)

/-- The surroundings of runs on a disk; notes are shown elsewhere. -/
def onDisk (home userProfile : Option String) : Surroundings (StateM Disk) where
  files := Disk.files
  home := home
  userProfile := userProfile
  note _ _ := pure ⟨⟩

variable {home userProfile : Option String} {o : Options} {d d' : Disk}

/-! ## §1. The check. -/

/-- **Whether the options can be met**, by what is at the paths in them. -/
def Options.verdict (o : Options) (kind : String → Option ItemKind) :
    Except Refusal PUnit.{1} :=
  match kind o.manifest with
  | none => .error (.noManifest o.manifest)
  | some .file =>
      if (normalize o.className).isEmpty then .error .noClassName
      else
        match o.cacheFolder with
        | none => .ok ⟨⟩
        | some folder =>
            match kind folder with
            | none | some .folder => .ok ⟨⟩
            | some _ => .error (.cacheIsNoFolder folder)
  | some _ => .error (.manifestIsNoFile o.manifest)

/-- **The check asks what is at these paths**, and changes nothing. -/
theorem Options.run_check (o : Options) (d : Disk) :
    (o.check Disk.files).run d = (o.verdict d.kind, d) := by
  have hkind : ∀ path, StateT.run (Disk.files.kind path) d = (d.kind path, d) := fun _ => rfl
  unfold check verdict
  rw [StateT.run_bind, hkind]
  cases d.kind o.manifest with
  | none => rfl
  | some kind =>
      cases kind with
      | folder => rfl
      | link => rfl
      | special => rfl
      | file =>
          dsimp only
          cases (normalize o.className).isEmpty with
          | true => rfl
          | false =>
              simp only [Bool.false_eq_true, if_false]
              cases o.cacheFolder with
              | none => rfl
              | some folder =>
                  dsimp only
                  show StateT.run (Disk.files.kind folder >>= _) d = _
                  rw [StateT.run_bind, hkind]
                  cases d.kind folder with
                  | none => rfl
                  | some kind => cases kind <;> rfl

/-- **What the check asks for**: a manifest that is a file, a class with a name, and a
cache folder that is a folder if it is there. -/
theorem Options.verdict_ok_iff {kind : String → Option ItemKind} :
    o.verdict kind = .ok ⟨⟩
      ↔ kind o.manifest = some .file ∧ (normalize o.className).isEmpty = false
        ∧ ∀ folder, o.cacheFolder = some folder →
            kind folder = none ∨ kind folder = some .folder := by
  unfold verdict
  cases kind o.manifest with
  | none => simp
  | some item =>
      cases item with
      | folder => simp
      | link => simp
      | special => simp
      | file =>
          cases (normalize o.className).isEmpty with
          | true => simp
          | false =>
              cases o.cacheFolder with
              | none => simp
              | some folder =>
                  cases hfolder : kind folder with
                  | none => simp [hfolder]
                  | some item => cases item <;> simp [hfolder]

/-! ## §2. The stages. -/

/-- Reads the target, through the cache unless that is left out. -/
def readTarget (home userProfile : Option String) (o : Options) (declared : DeclaredReader) :
    ExceptT Failure (StateM Disk) (List Annotation) :=
  if o.noCache then readUncached (onDisk home userProfile) o declared
  else readCached (onDisk home userProfile) o declared

/-- The report of a run. -/
def reportOf (o : Options) (list : List Annotation) : String :=
  Report.render o.format o.target list ++ "\n"

/-- **A run, stage by stage**: however the target is read, its report is made alike. -/
theorem run_stages (o : Options) : run (onDisk home userProfile) o = (do
    let checked ← ExceptT.lift (o.check Disk.files)
    MonadExcept.ofExcept (checked.mapError Failure.refused)
    let manifest ← (Manifest.load Disk.files o.manifest).adapt
      (Failure.manifestNotLoaded o.manifest)
    let registry ← MonadExcept.ofExcept (manifest.registry.mapError Failure.invalidManifest)
    (onDisk home userProfile).note .debug
      ("type registry ready with " ++ toString registry.size ++ " types")
    let list ← readTarget home userProfile o (.ofRegistry registry manifest.ignored)
    return reportOf o list) := by
  unfold run readTarget
  cases o.noCache <;> rfl

/-- **The stages of a run that gives a report**: what is loaded, what is registered, and
what is read. -/
structure Ran (home userProfile : Option String) (o : Options) (d d' : Disk) (manifest : Manifest)
    (registry : Registry) (list : List Annotation) : Prop where
  checked : o.verdict d.kind = .ok ⟨⟩
  loaded : (Manifest.load Disk.files o.manifest).run.run d = (.ok manifest, d)
  registered : manifest.registry = .ok registry
  read : (readTarget home userProfile o (.ofRegistry registry manifest.ignored)).run.run d
    = (.ok list, d')

variable {manifest : Manifest} {registry : Registry} {list : List Annotation}

/-- Taking a note changes nothing. -/
theorem run_note (level : Level) (text : String) (d : Disk) :
    (liftM ((onDisk home userProfile).note level text) :
      ExceptT Failure (StateM Disk) PUnit).run.run d = (.ok ⟨⟩, d) := rfl

/-- The first stage asks what the check asks for. -/
theorem run_checked (o : Options) (d : Disk) :
    (ExceptT.lift (o.check Disk.files) : ExceptT Failure (StateM Disk) _).run.run d
      = (.ok (o.verdict d.kind), d) :=
  run_lift (o.run_check d)

/-- **A run whose stages come to something gives a report.** -/
theorem Ran.run_eq (h : Ran home userProfile o d d' manifest registry list) :
    (run (onDisk home userProfile) o).run.run d = (.ok (reportOf o list), d') := by
  rw [run_stages, run_bind_ok (run_checked o d),
    run_bind_ok (run_ofExcept_eq_ok.2 ⟨h.checked, rfl⟩),
    run_bind_ok (run_adapt_ok _ h.loaded),
    run_bind_ok (run_ofExcept_eq_ok.2 ⟨h.registered, rfl⟩),
    run_bind_ok (run_note _ _ d), run_bind_ok h.read]
  rfl

/-- **A run that gives a report has come through all its stages.** -/
theorem ran_of_run {report : String}
    (h : (run (onDisk home userProfile) o).run.run d = (.ok report, d')) :
    ∃ manifest registry list, Ran home userProfile o d d' manifest registry list
      ∧ report = reportOf o list := by
  rw [run_stages, run_bind_ok (run_checked o d)] at h
  obtain ⟨_, d₁, hverdict, h₁⟩ := run_bind_eq_ok h
  obtain ⟨hchecked, rfl⟩ := run_ofExcept_eq_ok.1 hverdict
  obtain ⟨manifest, d₂, hload, h₂⟩ := run_bind_eq_ok h₁
  rw [run_adapt _ (Manifest.run_load d₁ o.manifest)] at hload
  obtain ⟨hmanifest, rfl⟩ := Prod.mk.inj hload
  have hloaded : (Manifest.load Disk.files o.manifest).run.run d₁ = (.ok manifest, d₁) := by
    rw [Manifest.run_load, Manifest.ok_of_mapError hmanifest]
  obtain ⟨registry, d₃, hregistry, h₃⟩ := run_bind_eq_ok h₂
  obtain ⟨hregistered, rfl⟩ := run_ofExcept_eq_ok.1 hregistry
  rw [run_bind_ok (run_note _ _ d₃)] at h₃
  obtain ⟨list, d₄, hread, h₄⟩ := run_bind_eq_ok h₃
  obtain ⟨hreport, rfl⟩ := Prod.mk.inj h₄
  exact ⟨manifest, registry, list, ⟨hchecked, hloaded, hregistered, hread⟩,
    (Except.ok.inj hreport).symm⟩

/-! ## §3. The two ways of reading. -/

/-- **Reading without a cache** is reading what is declared. -/
theorem run_readUncached_eq_ok {declared : DeclaredReader} :
    (readUncached (onDisk home userProfile) o declared).run.run d = (.ok list, d')
      ↔ declared.read o.target = .ok list ∧ d' = d := by
  rw [readUncached, run_bind_ok (run_note _ _ d)]
  exact run_ofExcept_eq_ok

/-- Is one disk what another is once a cache is cleared, if that is asked for? -/
def Options.Clears (o : Options) (cache : FolderCache) (d cleared : Disk) : Prop :=
  if o.clearCache then ∃ count, (cache.clear Disk.files).run.run d = (.ok count, cleared)
  else cleared = d

/-- **Reading through the cache** is clearing it, if that is asked for, and one read. -/
theorem run_readCached {declared : DeclaredReader} {cache : FolderCache} {cleared : Disk}
    {r : CachedReader} (hfolder : o.folder (onDisk home userProfile) = .ok cache.folder)
    (hcleared : o.Clears cache d cleared)
    (hread : ((CachedReader.opened o.debug).read
      (.ofStore (cache.store Disk.files) (fileClock Disk.files) declared) o.target).run cleared
        = ((.ok list, r), d')) :
    (readCached (onDisk home userProfile) o declared).run.run d = (.ok list, d') := by
  have hopened : (MonadExcept.ofExcept ((o.folder (onDisk home userProfile)).mapError
      Failure.noCacheFolder) : ExceptT Failure (StateM Disk) String).run.run d
      = (.ok cache.folder, d) :=
    run_ofExcept_eq_ok.2 ⟨hfolder, rfl⟩
  have hlifted : (ExceptT.lift (CachedReader.read (.ofStore (cache.store Disk.files)
      (fileClock Disk.files) declared) { checking := o.debug } o.target) :
        ExceptT Failure (StateM Disk) _).run.run cleared = (.ok (.ok list, r), d') :=
    run_lift hread
  unfold Options.Clears at hcleared
  rw [readCached, run_bind_ok hopened]
  simp only [show (onDisk home userProfile).files = Disk.files from rfl]
  cases hclear : o.clearCache with
  | true =>
      rw [hclear, if_pos rfl] at hcleared
      obtain ⟨count, hrun⟩ := hcleared
      simp only [if_true]
      rw [run_bind_ok (run_adapt_ok Failure.cacheNotCleared hrun),
        run_bind_ok (run_note _ _ cleared), run_bind_ok (run_note _ _ cleared),
        run_bind_ok hlifted]
      rfl
  | false =>
      rw [hclear, if_neg Bool.false_ne_true] at hcleared
      subst hcleared
      simp only [Bool.false_eq_true, if_false]
      rw [run_bind_ok (run_note _ _ cleared), run_bind_ok hlifted]
      rfl

end AnnotationCache.CommandLine

/-
  AnnotationCache.CommandLine.Run
  ───────────────────────────────
  **A RUN OF THE PROGRAM.**

  A run checks its options, loads the manifest, reads the target, through the
  cache unless that is left out, and renders a report.  What it needs from
  outside it asks of its surroundings.
-/
import AnnotationCache.CommandLine.Failure
import AnnotationCache.CommandLine.Options
import AnnotationCache.CommandLine.Verbosity
import AnnotationCache.Manifest.Load
import AnnotationCache.Reading.Cached
import AnnotationCache.Reading.Collaborators
import AnnotationCache.Store.Folder

namespace AnnotationCache.CommandLine

variable {m : Type → Type} [Monad m]

/-- What a run needs from outside. -/
structure Surroundings (m : Type → Type) where
  files : Files.Access m
  /-- The home folder of the user, by its two names. -/
  home : Option String
  userProfile : Option String
  /-- Takes a note. -/
  note : Level → String → m PUnit

/-- **Can the options be met?** -/
def Options.check (files : Files.Access m) (o : Options) : m (Except Refusal PUnit) := do
  match ← files.kind o.manifest with
  | none => return .error (.noManifest o.manifest)
  | some .file =>
      if (Types.normalize o.className).isEmpty then return .error .noClassName
      match o.cacheFolder with
      | none => return .ok ⟨⟩
      | some folder =>
          match ← files.kind folder with
          | none | some .folder => return .ok ⟨⟩
          | some _ => return .error (.cacheIsNoFolder folder)
  | some _ => return .error (.manifestIsNoFile o.manifest)

/-- The folder of the cache. -/
def Options.folder (o : Options) (s : Surroundings m) : Except Error String :=
  match o.cacheFolder with
  | some folder => .ok folder
  | none => FolderCache.defaultFolder s.home s.userProfile

/-- Reads the target through the cache. -/
def readCached (s : Surroundings m) (o : Options) (declared : DeclaredReader) :
    ExceptT Failure m (List Annotation) := do
  let folder ← MonadExcept.ofExcept ((o.folder s).mapError Failure.noCacheFolder)
  let cache : FolderCache := ⟨folder⟩
  if o.clearCache then
    let removed ← (cache.clear s.files).adapt Failure.cacheNotCleared
    s.note .info ("cleared cache " ++ folder ++ " of " ++ toString removed ++ " entries")
  s.note .info ("reading annotations of " ++ o.target.display ++ " with cache " ++ folder)
  let sources := Dialogue.Collaborators.ofStore (cache.store s.files) (fileClock s.files) declared
  let (result, _) ← ExceptT.lift (CachedReader.read sources { checking := o.debug } o.target)
  MonadExcept.ofExcept (result.mapError (Failure.notRead o.target))

/-- Reads the target without a cache. -/
def readUncached (s : Surroundings m) (o : Options) (declared : DeclaredReader) :
    ExceptT Failure m (List Annotation) := do
  s.note .info ("reading annotations of " ++ o.target.display ++ " without cache")
  MonadExcept.ofExcept ((declared.read o.target).mapError (Failure.notRead o.target))

/-- **Runs the program**: gives the report that it prints. -/
def run (s : Surroundings m) (o : Options) : ExceptT Failure m String := do
  let checked ← ExceptT.lift (o.check s.files)
  MonadExcept.ofExcept (checked.mapError Failure.refused)
  let manifest ← (Manifest.load s.files o.manifest).adapt (Failure.manifestNotLoaded o.manifest)
  let registry ← MonadExcept.ofExcept (manifest.registry.mapError Failure.invalidManifest)
  s.note .debug ("type registry ready with " ++ toString registry.size ++ " types")
  let declared := DeclaredReader.ofRegistry registry manifest.ignored
  let annotations ←
    if o.noCache then readUncached s o declared else readCached s o declared
  return Report.render o.format o.target annotations ++ "\n"

end AnnotationCache.CommandLine

/-
  AnnotationCache.Proofs.Reading.LiveFiles
  ────────────────────────────────────────
  **TYPES FROM A MANIFEST, TIMES FROM FILES.**

  A manifest is loaded once, but the files of its types are looked at in every
  checking read.  An `Edition` is what was loaded; with the files of a disk it
  makes a world (`Edition.onDisk`).  A reader of the edition shares a desk with
  others, a cache and a disk, and reads as a reader in that world does.

  Main statements:
    * `Edition.lastModification_onDisk` — the times of that world are those that
      the clock of files tells on the disk;
    * `Edition.read_eq`                 — a read at the desk is one in that world.
-/
import AnnotationCache.Files.Disk
import AnnotationCache.Proofs.Reading.Refinement
import AnnotationCache.Proofs.Reading.World

namespace AnnotationCache

open AnnotationCache.Files (Disk)
open AnnotationCache.Types (Registry Descriptor)

/-! ## §1. Editions. -/

/-- **An edition**: the types of a manifest as it was loaded. -/
structure Edition where
  registry : Registry
  /-- The types stand under their names. -/
  wellFormed : registry.WellFormed

/-- What the clock of files tells of a type on a disk. -/
def fileTime (disk : Disk) (d : Descriptor) : Except Error Int :=
  ((fileClock Disk.files d).run.run disk).1

namespace Edition

variable (e : Edition)

/-- Is a type in an edition, exactly as it is described? -/
def Has (d : Descriptor) : Prop :=
  e.registry.reflect d.name = .ok d

/-- The reader of what is declared in an edition. -/
def declared (ignored : List String) : DeclaredReader where
  registry := e.registry
  ignored := ignored

/-- The last modification of a class, by the files of a disk. -/
def dated (disk : Disk) (className : String) : Except Error Int :=
  ((lastModification e.registry (fileClock Disk.files) className).run.run disk).1

/-- **The world of an edition** while the files are those of a disk. -/
def onDisk (disk : Disk) : World where
  registry := e.registry
  wellFormed := e.wellFormed
  time d :=
    match fileTime disk d with
    | .ok time => time
    | .error _ => 0
  fault d :=
    match fileTime disk d with
    | .ok _ => none
    | .error failure => some failure

theorem time_onDisk {disk : Disk} {d : Descriptor} {time : Int} (h : fileTime disk d = .ok time) :
    (e.onDisk disk).time d = time := by
  show (match fileTime disk d with | .ok time => time | .error _ => 0) = time
  rw [h]

theorem time_onDisk_of_fault {disk : Disk} {d : Descriptor} {failure : Error}
    (h : fileTime disk d = .error failure) : (e.onDisk disk).time d = 0 := by
  show (match fileTime disk d with | .ok time => time | .error _ => 0) = 0
  rw [h]

theorem source_onDisk (disk : Disk) : (e.onDisk disk).source = fileTime disk := by
  funext d
  unfold World.source onDisk
  dsimp only
  cases fileTime disk d <;> rfl

end Edition

/-! ## §2. The clock of files. -/

section FileClock

variable {σ : Type} {files : Files.Access (StateM σ)} {state : σ} {disk : Disk}

/-- What the clock tells of a type with a source file. -/
theorem run_fileClock_of_source {d : Descriptor} {path : String} (hsource : d.source = some path)
    (hfiles : (files.modified path).run.run state = (disk.modified path, state)) :
    (fileClock files d).run.run state
      = (((disk.modified path).mapError fun failure =>
          Error.unknownModification path failure.wording).map (max 0), state) := by
  unfold fileClock
  rw [hsource]
  exact run_map (max 0) (run_adapt _ hfiles)

theorem fileTime_of_source {d : Descriptor} {path : String} (hsource : d.source = some path) :
    fileTime disk d = ((disk.modified path).mapError fun failure =>
      Error.unknownModification path failure.wording).map (max 0) := by
  have hfiles : (Disk.files.modified path).run.run disk = (disk.modified path, disk) := rfl
  exact congrArg Prod.fst (run_fileClock_of_source hsource hfiles)

theorem fileTime_of_builtin {d : Descriptor} (hsource : d.source = none) :
    fileTime disk d = .ok 0 := by
  unfold fileTime fileClock
  rw [hsource]
  rfl

/-- **The clock of files tells what a disk tells**, and leaves the state as it is,
if its files do. -/
theorem run_fileClock
    (hfiles : ∀ path, (files.modified path).run.run state = (disk.modified path, state))
    (d : Descriptor) : (fileClock files d).run.run state = (fileTime disk d, state) := by
  cases hsource : d.source with
  | none =>
      rw [fileTime_of_builtin hsource]
      unfold fileClock
      rw [hsource]
      rfl
  | some path => rw [run_fileClock_of_source hsource (hfiles path), fileTime_of_source hsource]

end FileClock

/-- **The last modification of a class in the world of an edition** is told by the
clock of files. -/
theorem Edition.lastModification_onDisk (e : Edition) (disk : Disk) (className : String) :
    (e.onDisk disk).lastModification className = e.dated disk className := by
  have hclock : ∀ d, (fileClock Disk.files d).run.run disk = (fileTime disk d, disk) :=
    fun d => run_fileClock (fun path => rfl) d
  rw [World.lastModification_eq_latest, source_onDisk]
  exact (congrArg Prod.fst (Registry.lastModification_looking hclock e.registry className)).symm

/-! ## §3. Readers at a desk. -/

/-- A cache that readers share, and the disk with the files of the types. -/
structure Desk where
  cache : MapCache
  disk : Disk

namespace Desk

/-- What is asked of the cache. -/
def onCache {α : Type} : StateM MapCache α → StateM Desk α :=
  onPart cache fun entries desk => { desk with cache := entries }

/-- What is asked of the files. -/
def onFiles {α : Type} : StateM Disk α → StateM Desk α :=
  onPart disk fun files desk => { desk with disk := files }

end Desk

namespace Edition

variable (e : Edition) (ignored : List String)

/-- **The readers of an edition**, over the shared cache and the live files. -/
def readers : Dialogue.Collaborators (StateM Desk) :=
  .ofStore ((MapCache.store MapCache.keepAll).lift Desk.onCache)
    (fileClock (Disk.files.lift Desk.onFiles)) (e.declared ignored)

theorem dated_at_desk (desk : Desk) (className : String) :
    ((e.readers ignored).latest className).run.run desk
      = ((e.onDisk desk.disk).lastModification className, desk) := by
  have hfiles : ∀ path, ((Disk.files.lift Desk.onFiles).modified path).run.run desk
      = (desk.disk.modified path, desk) := fun path => rfl
  have hclock : ∀ d, (fileClock (Disk.files.lift Desk.onFiles) d).run.run desk
      = (fileTime desk.disk d, desk) := run_fileClock hfiles
  rw [World.lastModification_eq_latest, source_onDisk]
  exact Registry.lastModification_looking hclock e.registry className

/-- **Readers of an edition play the map and the world of the disk.** -/
theorem plays (disk : Disk) :
    Plays (e.readers ignored) ((e.onDisk disk).sources ignored)
      (fun desk entries => desk.cache = entries ∧ desk.disk = disk)
      (fun _ => True) (fun _ => True) where
  get desk entries hdesk key _ := by
    obtain ⟨rfl, rfl⟩ := hdesk
    exact ⟨desk, rfl, rfl, rfl⟩
  set desk entries hdesk key value _ _ := by
    obtain ⟨rfl, rfl⟩ := hdesk
    exact ⟨{ desk with cache := desk.cache.insert key value }, rfl, rfl, rfl⟩
  latest desk entries hdesk className := by
    obtain ⟨rfl, rfl⟩ := hdesk
    exact ⟨desk, e.dated_at_desk ignored desk className, rfl, rfl⟩
  compute desk entries hdesk t := by
    obtain ⟨rfl, rfl⟩ := hdesk
    refine ⟨desk, ?_, rfl, rfl⟩
    show (MonadExcept.ofExcept ((e.declared ignored).read t) : ExceptT Error (StateM Desk) _).run.run
      desk = ((e.declared ignored).read t, desk)
    cases (e.declared ignored).read t <;> rfl

/-- **A read at the desk** is one in the world that the disk makes, over the map. -/
theorem read_eq (r : CachedReader) (t : Target) (desk : Desk) :
    (r.read (e.readers ignored) t).run desk
      = (((r.read (((e.onDisk desk.disk).sources ignored).beside
            (MapCache.store MapCache.keepAll)) t).run desk.cache).1,
          { desk with cache := ((r.read (((e.onDisk desk.disk).sources ignored).beside
            (MapCache.store MapCache.keepAll)) t).run desk.cache).2 }) := by
  have huses : ((e.onDisk desk.disk).sources ignored).Uses (fun _ => True) (fun _ => True) t :=
    ⟨trivial, trivial, fun _ _ => trivial, fun _ _ => trivial⟩
  obtain ⟨⟨cache, disk⟩, hrun, rfl, rfl⟩ :=
    (e.plays ignored desk.disk).read_eq huses r (And.intro (Eq.refl desk.cache) (Eq.refl desk.disk))
  exact hrun

end Edition

end AnnotationCache

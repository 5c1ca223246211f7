/-
  AnnotationCache.Reading.Freshness
  ─────────────────────────────────
  **WHEN A TYPE WAS LAST MODIFIED.**

  What is read of a type depends on its whole dependency closure, so the time
  that counts is the latest modification of any type in it.  Where the times
  come from is up to a clock: a table of fixed times, or the files in which
  the types are declared.
-/
import AnnotationCache.Files.Access
import AnnotationCache.Types.Closure

namespace AnnotationCache

open AnnotationCache.Types (Registry Descriptor normalize)

variable {m : Type → Type} [Monad m]

/-- A source of modification times, in seconds since the epoch. -/
abbrev Clock (m : Type → Type) := Descriptor → ExceptT Error m Int

/-- The latest of some times and a time. -/
def latestOf (clock : Clock m) (latest : Int) (types : List Descriptor) : ExceptT Error m Int :=
  types.foldlM (fun latest d => do return max latest (← clock d)) latest

/-- **The last modification of a type**: the latest time in its dependency
closure, and never before the epoch. -/
def lastModification (registry : Registry) (clock : Clock m) (name : String) :
    ExceptT Error m Int :=
  match registry.closure name with
  | .ok types => latestOf clock 0 types
  | .error e => throw e

/-! ## §1. Fixed times. -/

/-- Times by type name; a type that is not listed has time `0`. -/
structure FixedTimes where
  times : Dict Int := Dict.empty
  deriving Inhabited, Repr

namespace FixedTimes

/-- Sets the time of a type. -/
def set (t : FixedTimes) (name : String) (seconds : Int) : FixedTimes :=
  ⟨t.times.insert (normalize name) seconds⟩

/-- The time of a type. -/
def modified (t : FixedTimes) (d : Descriptor) : Int :=
  (t.times.get? d.name).getD 0

/-- The clock of fixed times. -/
def clock (t : FixedTimes) : Clock m :=
  fun d => pure (t.modified d)

end FixedTimes

/-! ## §2. Times of files. -/

/-- **The clock of files**: a type was modified when the file was that declares
it.  A type without a file has time `0`, and no file counts as older than the
epoch. -/
def fileClock (files : Files.Access m) : Clock m := fun d =>
  match d.source with
  | none => pure 0
  | some path =>
      max 0 <$> (files.modified path).adapt fun failure =>
        .unknownModification path failure.wording

end AnnotationCache

/-
  AnnotationCache.Reading.Cached
  ──────────────────────────────
  **READING THROUGH A CACHE.**

  A cached reader remembers every result it has returned.  What it remembers
  it returns again without asking anyone; everything else is a dialogue with
  its collaborators, and only results are remembered, never failures.
-/
import AnnotationCache.Reading.Dialogue

namespace AnnotationCache

/-- A reader with a memo in front of its cache. -/
structure CachedReader where
  /-- Are stored results checked against modification times? -/
  checking : Bool
  /-- The results returned so far, by key. -/
  loaded : Dict (List Annotation) := Dict.empty
  deriving Inhabited, Repr

namespace CachedReader

variable {m : Type → Type} [Monad m]

/-- **Reads a target**, and gives the reader as it is afterwards. -/
def read (c : Dialogue.Collaborators m) (r : CachedReader) (target : Target) :
    m (Except Error (List Annotation) × CachedReader) := do
  let key := CacheKey.ofTarget target
  match r.loaded.get? key.text with
  | some result => return (.ok result, r)
  | none =>
      match ← ((Dialogue.cachedRead r.checking target).run c).run with
      | .ok result => return (.ok result, { r with loaded := r.loaded.insert key.text result })
      | .error e => return (.error e, r)

/-- Reads a target for the first annotation that goes by a name. -/
def readFirst (c : Dialogue.Collaborators m) (r : CachedReader) (target : Target) (name : String) :
    m (Except Error (Option Annotation) × CachedReader) := do
  let (result, r) ← r.read c target
  return (result.map fun list => Annotation.firstNamed list name, r)

/-- Forgets what was remembered; the cache is not touched. -/
def forget (r : CachedReader) : CachedReader :=
  { r with loaded := Dict.empty }

end CachedReader

end AnnotationCache

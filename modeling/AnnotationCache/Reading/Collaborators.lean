/-
  AnnotationCache.Reading.Collaborators
  ─────────────────────────────────────
  **THOSE WHO ANSWER A READER.**

  A cached reader works over a cache, a registry with a clock, and the reader
  of what is declared there.
-/
import AnnotationCache.Reading.Declared
import AnnotationCache.Reading.Dialogue
import AnnotationCache.Reading.Freshness

namespace AnnotationCache.Dialogue

variable {m : Type → Type} [Monad m]

/-- **The collaborators of a reader** over a cache, for the types of a
declared reader. -/
def Collaborators.ofStore (store : Store m) (clock : Clock m) (declared : DeclaredReader) :
    Collaborators m where
  toStore := store
  latest := lastModification declared.registry clock
  compute target := MonadExcept.ofExcept (declared.read target)

end AnnotationCache.Dialogue

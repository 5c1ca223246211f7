/-
  AnnotationCache.Store.Access
  ────────────────────────────
  **WHAT IS ASKED OF A CACHE.**

  A reader asks a cache for what is stored under a key and tells it to store a
  value.  A cache may decline to store, or fail.
-/
import AnnotationCache.Error
import AnnotationCache.Store.Value

namespace AnnotationCache

/-- A cache, as readers use it. -/
structure Store (m : Type → Type) where
  /-- What is stored under a key. -/
  get : String → ExceptT Error m (Option CacheValue)
  /-- Stores a value; says whether it did. -/
  set : String → CacheValue → ExceptT Error m Bool

/-- The cache as part of a larger world. -/
def Store.lift {m n : Type → Type} (embed : {α : Type} → m α → n α) (store : Store m) :
    Store n where
  get key := ExceptT.mk (embed (store.get key))
  set key value := ExceptT.mk (embed (store.set key value))

end AnnotationCache

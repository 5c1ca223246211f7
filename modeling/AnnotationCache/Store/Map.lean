/-
  AnnotationCache.Store.Map
  ─────────────────────────
  **A CACHE THAT IS A MAP.**

  The plainest cache: what is stored under a key is what was last written
  under it.  A rule says which writes it accepts; one that it declines leaves
  everything as it was.
-/
import AnnotationCache.Store.Access

namespace AnnotationCache

/-- Values by key. -/
abbrev MapCache := Dict CacheValue

namespace MapCache

/-- Which values a cache accepts under which keys. -/
abbrev Rule := String → CacheValue → Bool

/-- The rule of a cache that keeps every write. -/
def keepAll : Rule := fun _ _ => true

/-- **The cache as readers use it.** -/
def store (accepts : Rule) : Store (StateM MapCache) where
  get key := ExceptT.mk fun entries => (.ok (entries.get? key), entries)
  set key value := ExceptT.mk fun entries =>
    if accepts key value then (.ok true, entries.insert key value) else (.ok false, entries)

end MapCache

end AnnotationCache

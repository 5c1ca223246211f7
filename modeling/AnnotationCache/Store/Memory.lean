/-
  AnnotationCache.Store.Memory
  ────────────────────────────
  **A CACHE IN MEMORY.**

  Entries may be given a lifetime.  An entry whose time has come is dropped by
  the next look-up of its key, and counts until then.
-/
import AnnotationCache.Store.Access
import AnnotationCache.Word

namespace AnnotationCache

/-- A value, and the second at which it expires, if it does. -/
structure Lasting where
  value : CacheValue
  expires : Option Int
  deriving Inhabited, Repr

/-- Is the entry still live at a given second? -/
def Lasting.liveAt (e : Lasting) (now : Int) : Bool :=
  match e.expires with
  | none => true
  | some t => now < t

/-- Entries by key. -/
structure MemoryCache where
  entries : Dict Lasting := Dict.empty
  deriving Inhabited, Repr

namespace MemoryCache

/-- The cache without entries. -/
def empty : MemoryCache := {}

/-- The value under a key, and the cache after looking: an expired entry is gone. -/
def fetch (cache : MemoryCache) (now : Int) (key : String) : Option CacheValue × MemoryCache :=
  match cache.entries.get? key with
  | none => (none, cache)
  | some e => if e.liveAt now then (some e.value, cache) else (none, ⟨cache.entries.erase key⟩)

/-- Is there a live value under a key? -/
def contains (cache : MemoryCache) (now : Int) (key : String) : Bool × MemoryCache :=
  let (value, cache) := cache.fetch now key
  (value.isSome, cache)

/-- The seconds that a point in time can count. -/
def lastSecond : Int := Word.half - 1

/-- **Stores a value** for a number of seconds, or without end for `0`; nothing
when its end lies beyond the last second that can be counted. -/
def save (cache : MemoryCache) (now : Int) (key : String) (value : CacheValue) (lifetime : Nat) :
    Option MemoryCache :=
  if lifetime = 0 then some ⟨cache.entries.insert key ⟨value, none⟩⟩
  else
    let expires := now + lifetime
    if lastSecond < expires then none
    else some ⟨cache.entries.insert key ⟨value, some expires⟩⟩

/-- Drops the entry under a key. -/
def delete (cache : MemoryCache) (key : String) : MemoryCache :=
  ⟨cache.entries.erase key⟩

/-- The number of entries, expired ones that were not looked up included. -/
def size (cache : MemoryCache) : Nat :=
  cache.entries.size

/-- **The cache as readers use it**: what they store has no end. -/
def store (now : Int) : Store (StateM MemoryCache) where
  get key := ExceptT.mk fun cache =>
    let (value, cache) := cache.fetch now key
    (.ok value, cache)
  set key value := ExceptT.mk fun cache =>
    match cache.save now key value 0 with
    | some cache => (.ok true, cache)
    | none => (.ok false, cache)

end MemoryCache

end AnnotationCache

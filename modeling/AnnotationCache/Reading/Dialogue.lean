/-
  AnnotationCache.Reading.Dialogue
  ────────────────────────────────
  **ONE READ, STEP BY STEP.**

  A read through a cache is a conversation with four collaborators: a cache
  that is asked and told, a clock for the class, and a reader that computes
  results.  `Dialogue` writes that conversation down as a value, what is asked
  next and how to go on with the answer, so that it can be run against a real
  world, logged, interrupted, or interleaved with another one.

  A collaborator that fails ends the conversation with its error; nothing that
  was asked later happens.

  The trust rule is in `cachedRead`: a stored result counts if nobody checks,
  or if its marker is not older than the last modification of the class.
-/
import AnnotationCache.Store.Access
import AnnotationCache.Store.Key

namespace AnnotationCache

/-- A conversation that ends with a list of annotations. -/
inductive Dialogue where
  /-- The read has its result. -/
  | done (result : List Annotation)
  /-- Asks the cache what is stored under a key. -/
  | get (key : String) (next : Option CacheValue → Dialogue)
  /-- Asks for the last modification of a class. -/
  | latest (className : String) (next : Int → Dialogue)
  /-- Asks the underlying reader for the annotations of a target. -/
  | compute (target : Target) (next : List Annotation → Dialogue)
  /-- Tells the cache to store a value; it may decline. -/
  | set (key : String) (value : CacheValue) (next : Bool → Dialogue)

namespace Dialogue

/-! ## §1. Reads. -/

/-- Computes a result and stores it, then the marker that belongs to it: the
last modification as it was before the result was computed. -/
def refresh (target : Target) (current : Int) : Dialogue :=
  let key := CacheKey.ofTarget target
  .compute target fun result =>
    .set key.text (.annotations result) fun _ =>
      .set key.marker (.timestamp current) fun _ =>
        .done result

/-- Does a marker vouch for a result?  Equal times do. -/
def vouches (marker : Option CacheValue) (current : Int) : Bool :=
  match marker.bind CacheValue.asTimestamp with
  | some stored => current ≤ stored
  | none => false

/-- **A read through the cache**, checking stored results or trusting them. -/
def cachedRead (checking : Bool) (target : Target) : Dialogue :=
  let key := CacheKey.ofTarget target
  .get key.text fun stored =>
    match stored.bind CacheValue.asAnnotations with
    | none => .latest target.className fun current => refresh target current
    | some result =>
        if checking then
          .get key.marker fun marker =>
            .latest target.className fun current =>
              if vouches marker current then .done result else refresh target current
        else .done result

/-! ## §2. Running. -/

/-- Those who answer: a cache, a clock and the underlying reader. -/
structure Collaborators (m : Type → Type) extends Store m where
  latest : String → ExceptT Error m Int
  compute : Target → ExceptT Error m (List Annotation)

variable {m : Type → Type} [Monad m]

/-- **Runs a conversation** to its end or to the first failure. -/
def run (c : Collaborators m) : Dialogue → ExceptT Error m (List Annotation)
  | .done result => pure result
  | .get key next => do run c (next (← c.get key))
  | .latest className next => do run c (next (← c.latest className))
  | .compute target next => do run c (next (← c.compute target))
  | .set key value next => do run c (next (← c.set key value))

end Dialogue

end AnnotationCache

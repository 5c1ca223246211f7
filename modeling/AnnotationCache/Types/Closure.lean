/-
  AnnotationCache.Types.Closure
  ─────────────────────────────
  **EVERYTHING A TYPE DEPENDS ON.**

  A type depends on the types it names, on the types those name, and so on.
  The closure of a type lists all of them, the type itself first, nearest
  types next, each one once, so hierarchies with cycles and diamonds have
  finite closures.

  The walk is breadth-first.  It reflects each name at most once, and it stops
  at the first name that is not registered; so it takes at most one step more
  than there are registered types, and that number is its fuel.
-/
import AnnotationCache.Types.Registry

namespace AnnotationCache.Types.Registry

/-- The names of a list that were not seen yet, each once, in order. -/
def unseen (seen : List String) : List String → List String
  | [] => []
  | name :: names =>
      if name ∈ seen then unseen seen names else name :: unseen (name :: seen) names

/-- Walks the queue: reflects its first name and queues what that type names. -/
def walk (r : Registry) : Nat → List String → List String → Except Error (List Descriptor)
  | _, _, [] => .ok []
  | 0, _, _ :: _ => .ok []
  | fuel + 1, seen, name :: queue => do
      let d ← r.reflect name
      let fresh := unseen seen d.dependencies
      return d :: (← walk r fuel (seen ++ fresh) (queue ++ fresh))

/-- **The dependency closure of a type**, or the first name met on the way that
is not registered. -/
def closure (r : Registry) (name : String) : Except Error (List Descriptor) :=
  let root := normalize name
  r.walk (r.size + 1) [root] [root]

end AnnotationCache.Types.Registry

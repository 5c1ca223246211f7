/-
  AnnotationCache.Types.Member
  ────────────────────────────
  **WHERE A METHOD OR PROPERTY COMES FROM.**

  A member is looked for in the type itself, then in its traits, then in its
  parent, then in its interfaces, each of them searched to the end before the
  next one is asked.  A type that was searched once is not searched again, so
  the search ends on cyclic hierarchies too.

  Every type on the path of the search is a different registered one, apart
  from a last one that may be unregistered; that bounds the depth of the
  search, and the bound is its fuel.
-/
import AnnotationCache.Types.Registry

namespace AnnotationCache.Types

/-- A kind of member: what it is called in errors, and where a type keeps it. -/
inductive MemberKind where
  | method
  | property
  deriving DecidableEq, Repr, Inhabited

/-- The members of one kind that a type declares. -/
def Descriptor.members (d : Descriptor) : MemberKind → Dict (List Annotation)
  | .method => d.methods
  | .property => d.properties

/-- The error of a member that was not found. -/
def MemberKind.notFound : MemberKind → String → String → Error
  | .method => Error.methodNotFound
  | .property => Error.propertyNotFound

namespace Registry

/-- What a search has found, and the names it has visited. -/
abbrev Search := Option (List Annotation) × List String

/-- Searches one name after the other until one of them has the member. -/
def firstOf (search : String → List String → Except Error Search) :
    List String → List String → Except Error Search
  | [], visited => .ok (none, visited)
  | name :: names, visited => do
      match ← search name visited with
      | (some found, visited) => return (some found, visited)
      | (none, visited) => firstOf search names visited

/-- Searches a type, and the types it takes members from. -/
def search (r : Registry) (kind : MemberKind) (member : String) :
    Nat → String → List String → Except Error Search
  | 0, _, visited => .ok (none, visited)
  | fuel + 1, name, visited => do
      if name ∈ visited then return (none, visited)
      let d ← r.reflect name
      match (d.members kind).get? member with
      | some annotations => return (some annotations, name :: visited)
      | none => firstOf (search r kind member fuel) d.memberOrder (name :: visited)

/-- **The annotations of a member as seen from a class.** -/
def findMember (r : Registry) (kind : MemberKind) (className member : String) :
    Except Error (List Annotation) := do
  match ← r.search kind member (r.size + 1) (normalize className) [] with
  | (some annotations, _) => return annotations
  | (none, _) => throw (kind.notFound (normalize className) member)

end Registry

end AnnotationCache.Types

/-
  AnnotationCache.Annotation
  ──────────────────────────
  **ANNOTATIONS.**

  An annotation is a name with named values.  It is attached to a class, a
  method or a property, and it reaches this library already parsed: nothing
  here looks into the values.
-/
import AnnotationCache.Json.Render

namespace AnnotationCache

/-- A name, without the `@` in front of it, and its values, ordered by key. -/
structure Annotation where
  name : String
  values : Dict Json := Dict.empty
  deriving Inhabited, Repr

namespace Annotation

/-- The annotation with one more value, or with another value under a key it has. -/
def withValue (a : Annotation) (key : String) (value : Json) : Annotation :=
  { a with values := a.values.insert key value }

/-- The value under a key. -/
def get? (a : Annotation) (key : String) : Option Json :=
  a.values.get? key

/-- Does the annotation go by this name? -/
def isNamed (a : Annotation) (name : String) : Bool :=
  a.name == name

/-- Are two annotations equal, as values are equal? -/
def same (a b : Annotation) : Bool :=
  a.name == b.name && Json.sameMembers a.values.entries b.values.entries

/-- The first annotation of a list that goes by a name. -/
def firstNamed (annotations : List Annotation) (name : String) : Option Annotation :=
  annotations.find? (·.isNamed name)

/-- **An annotation in words**: `@Name`, and in parentheses its values in the
order of their keys, if it has any. -/
def display (a : Annotation) : String :=
  if a.values.isEmpty then "@" ++ a.name
  else
    "@" ++ a.name ++ "(" ++
      String.intercalate ", " (a.values.entries.map fun (k, v) => k ++ "=" ++ v.compact) ++ ")"

/-- An annotation as a JSON object; the values are left out when there are none. -/
def toJson (a : Annotation) : Json :=
  .obj (("name", .str a.name) ::
    (if a.values.isEmpty then [] else [("values", .ofDict a.values)]))

end Annotation

end AnnotationCache

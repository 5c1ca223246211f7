/-
  AnnotationCache.Reading.Declared
  ────────────────────────────────
  **READING WHAT IS DECLARED.**

  The annotations of a class are those on the class itself; the annotations of
  a member are those on the declaration that the member comes from.  Names
  that only document the code are left out, and so are names that the reader
  was told to ignore.
-/
import AnnotationCache.Store.Key
import AnnotationCache.Types.Member

namespace AnnotationCache

open AnnotationCache.Types (Registry)

/-- The tags of documentation comments, which are never annotations. -/
def documentationTags : List String :=
  ["author", "deprecated", "inheritDoc", "internal", "param", "return", "see", "since",
   "throws", "todo", "var"]

/-- A reader of declared annotations. -/
structure DeclaredReader where
  registry : Registry
  /-- The names that are left out. -/
  ignored : List String := documentationTags
  deriving Inhabited, Repr

namespace DeclaredReader

/-- A reader that ignores more names than the documentation tags. -/
def ofRegistry (registry : Registry) (ignored : List String) : DeclaredReader :=
  { registry := registry, ignored := documentationTags ++ ignored }

/-- The reader, ignoring one more name. -/
def ignore (r : DeclaredReader) (name : String) : DeclaredReader :=
  { r with ignored := r.ignored ++ [name] }

/-- Is a name left out? -/
def isIgnored (r : DeclaredReader) (name : String) : Bool :=
  name ∈ r.ignored

/-- The annotations that are not left out. -/
def kept (r : DeclaredReader) (annotations : List Annotation) : List Annotation :=
  annotations.filter fun a => !r.isIgnored a.name

/-- **The annotations of a target.** -/
def read (r : DeclaredReader) : Target → Except Error (List Annotation)
  | .ofClass c => do return r.kept (← r.registry.reflect c).annotations
  | .ofMethod c m => do return r.kept (← r.registry.findMember .method c m)
  | .ofProperty c p => do return r.kept (← r.registry.findMember .property c p)

/-- The first annotation of a target that goes by a name. -/
def readFirst (r : DeclaredReader) (target : Target) (name : String) :
    Except Error (Option Annotation) := do
  return Annotation.firstNamed (← r.read target) name

end DeclaredReader

end AnnotationCache

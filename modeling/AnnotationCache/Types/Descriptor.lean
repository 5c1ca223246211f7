/-
  AnnotationCache.Types.Descriptor
  ────────────────────────────────
  **DECLARED TYPES.**

  A descriptor says what is known of one class, interface or trait: where it
  is declared, which types it names as parent, interfaces and traits, and
  which annotations it and its members carry.  It names only its direct
  neighbours; what follows from them is the business of a registry.
-/
import AnnotationCache.Annotation
import AnnotationCache.Types.Name

namespace AnnotationCache.Types

/-- The kinds of types. -/
inductive Kind where
  | classKind
  | interfaceKind
  | traitKind
  deriving DecidableEq, Repr, Inhabited

/-- The word for a kind. -/
def Kind.word : Kind → String
  | .classKind => "class"
  | .interfaceKind => "interface"
  | .traitKind => "trait"

/-- The kinds under their words. -/
def Kind.byWord : List (String × Kind) :=
  [Kind.classKind, .interfaceKind, .traitKind].map fun k => (k.word, k)

/-- What is known of a declared type. -/
structure Descriptor where
  /-- Its fully-qualified name. -/
  name : String
  kind : Kind := .classKind
  /-- The path of the file it is declared in; built-in types have none. -/
  source : Option String := none
  parent : Option String := none
  /-- The interfaces it implements or, for an interface, those it extends. -/
  interfaces : List String := []
  traits : List String := []
  annotations : List Annotation := []
  /-- The annotations of its methods, by name. -/
  methods : Dict (List Annotation) := Dict.empty
  /-- The annotations of its properties, by name. -/
  properties : Dict (List Annotation) := Dict.empty
  deriving Inhabited, Repr

namespace Descriptor

/-! ## §1. Building. -/

/-- A type of which only name and kind are known. -/
def ofName (name : String) (kind : Kind) : Descriptor :=
  { name := normalize name, kind := kind }

/-- The type, declared in a file. -/
def withSource (d : Descriptor) (path : String) : Descriptor :=
  { d with source := some path }

/-- The type, with a parent. -/
def extending (d : Descriptor) (parent : String) : Descriptor :=
  { d with parent := some (normalize parent) }

/-- The type, with one more interface. -/
def implementing (d : Descriptor) (interface : String) : Descriptor :=
  { d with interfaces := d.interfaces ++ [normalize interface] }

/-- The type, with one more trait. -/
def usingTrait (d : Descriptor) (traitName : String) : Descriptor :=
  { d with traits := d.traits ++ [normalize traitName] }

/-- The type, with one more annotation. -/
def annotated (d : Descriptor) (a : Annotation) : Descriptor :=
  { d with annotations := d.annotations ++ [a] }

/-- The type, declaring a method with annotations. -/
def withMethod (d : Descriptor) (name : String) (annotations : List Annotation) : Descriptor :=
  { d with methods := d.methods.insert name annotations }

/-- The type, declaring a property with annotations. -/
def withProperty (d : Descriptor) (name : String) (annotations : List Annotation) : Descriptor :=
  { d with properties := d.properties.insert name annotations }

/-! ## §2. Neighbours. -/

/-- **The types that a type names**: its parent, its interfaces, its traits. -/
def dependencies (d : Descriptor) : List String :=
  d.parent.toList ++ d.interfaces ++ d.traits

/-- The types that a type takes members from, in the order in which they are
asked: its traits, its parent, its interfaces. -/
def memberOrder (d : Descriptor) : List String :=
  d.traits ++ d.parent.toList ++ d.interfaces

/-- The type with every name in it normalised. -/
def normalized (d : Descriptor) : Descriptor :=
  { d with
    name := normalize d.name
    parent := d.parent.map normalize
    interfaces := d.interfaces.map normalize
    traits := d.traits.map normalize }

end Descriptor

end AnnotationCache.Types

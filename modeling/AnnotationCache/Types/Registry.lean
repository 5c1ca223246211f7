/-
  AnnotationCache.Types.Registry
  ──────────────────────────────
  **THE TYPES THAT ARE KNOWN.**

  A registry holds descriptors under their normalised names.  Registering a
  name twice is an error and leaves the registry as it was; looking up a name
  accepts every spelling of it.
-/
import AnnotationCache.Error
import AnnotationCache.Types.Descriptor

namespace AnnotationCache.Types

/-- Descriptors by name. -/
structure Registry where
  types : Dict Descriptor := Dict.empty
  deriving Inhabited, Repr

namespace Registry

/-- The registry that knows no type. -/
def empty : Registry := {}

/-- **Registers a type**, with every name in it normalised. -/
def register (r : Registry) (d : Descriptor) : Except Error Registry :=
  let d := d.normalized
  if r.types.contains d.name then .error (.duplicateType d.name)
  else .ok ⟨r.types.insert d.name d⟩

/-- Registers types one after the other. -/
def ofTypes (types : List Descriptor) : Except Error Registry :=
  types.foldlM register empty

/-- **The descriptor of a type.** -/
def reflect (r : Registry) (name : String) : Except Error Descriptor :=
  match r.types.get? (normalize name) with
  | some d => .ok d
  | none => .error (.typeNotFound (normalize name))

/-- Is a type of this name known? -/
def contains (r : Registry) (name : String) : Bool :=
  r.types.contains (normalize name)

/-- The number of known types. -/
def size (r : Registry) : Nat :=
  r.types.size

/-- The names of the known types, in order. -/
def names (r : Registry) : List String :=
  r.types.keys

end Registry

end AnnotationCache.Types

/-
  AnnotationCache.Json.Value
  ──────────────────────────
  **THE VALUES AN ANNOTATION MAY CARRY.**

  Values reach the library already parsed and pass through it unread; what it
  needs of them is to tell them apart, to write them and to read them back.
  A value is **canonical** when it is one that reading can produce: the keys
  of every object increase, integers fit 64 bits with or without a sign, and
  floats are numbers.
-/
import AnnotationCache.Dict
import AnnotationCache.Double
import AnnotationCache.Word

namespace AnnotationCache

/-- A JSON value.  Integers and floats are different values, whatever number
they denote; an object lists its members in the order in which it is written. -/
inductive Json where
  | null
  | bool (b : Bool)
  | int (n : Int)
  | float (x : Double)
  | str (s : String)
  | arr (items : List Json)
  | obj (members : List (String × Json))
  deriving Inhabited, Repr

namespace Json

/-! ## §1. Equality. -/

mutual

/-- Are two values equal?  Zero equals negative zero, and `1` differs from `1.0`. -/
def same : Json → Json → Bool
  | .null, .null => true
  | .bool a, .bool b => a == b
  | .int a, .int b => a == b
  | .float a, .float b => a.same b
  | .str a, .str b => a == b
  | .arr xs, .arr ys => sameItems xs ys
  | .obj xs, .obj ys => sameMembers xs ys
  | _, _ => false

/-- Are two lists equal item by item? -/
def sameItems : List Json → List Json → Bool
  | [], [] => true
  | x :: xs, y :: ys => same x y && sameItems xs ys
  | _, _ => false

/-- Are two lists of members equal, keys and values? -/
def sameMembers : List (String × Json) → List (String × Json) → Bool
  | [], [] => true
  | (k, x) :: xs, (j, y) :: ys => k == j && same x y && sameMembers xs ys
  | _, _ => false

end

/-! ## §2. Shape. -/

mutual

/-- How deep arrays and objects nest in a value; a scalar has depth zero. -/
def depth : Json → Nat
  | .arr items => depthItems items + 1
  | .obj members => depthMembers members + 1
  | _ => 0

/-- The greatest depth in a list. -/
def depthItems : List Json → Nat
  | [] => 0
  | x :: xs => max (depth x) (depthItems xs)

/-- The greatest depth among the values of members. -/
def depthMembers : List (String × Json) → Nat
  | [] => 0
  | (_, x) :: xs => max (depth x) (depthMembers xs)

end

/-- The integers that are written without turning into floats. -/
def fitsWord (n : Int) : Bool :=
  -(Word.half : Int) ≤ n && n < (Word.size : Int)

mutual

/-- Is the value one that reading can produce? -/
def canonical : Json → Bool
  | .int n => fitsWord n
  | .float x => x.isFinite
  | .arr items => canonicalItems items
  | .obj members => decide (Ordered members) && canonicalMembers members
  | _ => true

/-- Are all values of a list canonical? -/
def canonicalItems : List Json → Bool
  | [] => true
  | x :: xs => canonical x && canonicalItems xs

/-- Are all values of members canonical? -/
def canonicalMembers : List (String × Json) → Bool
  | [] => true
  | (_, x) :: xs => canonical x && canonicalMembers xs

end

mutual

/-- Does no float occur in the value? -/
def floatFree : Json → Bool
  | .float _ => false
  | .arr items => floatFreeItems items
  | .obj members => floatFreeMembers members
  | _ => true

/-- Does no float occur in a list? -/
def floatFreeItems : List Json → Bool
  | [] => true
  | x :: xs => floatFree x && floatFreeItems xs

/-- Does no float occur among the values of members? -/
def floatFreeMembers : List (String × Json) → Bool
  | [] => true
  | (_, x) :: xs => floatFree x && floatFreeMembers xs

end

/-- The object of a map. -/
def ofDict (d : Dict Json) : Json :=
  .obj d.entries

/-- The object with the given members, ordered by key; a repeated key keeps
its last value. -/
def ofMembers (members : List (String × Json)) : Json :=
  .obj (Ordered.ofList members)

end Json

end AnnotationCache

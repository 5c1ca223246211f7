/-
  AnnotationCache.Json.Tree
  ─────────────────────────
  **A JSON TEXT AS IT IS WRITTEN.**

  Reading a text gives a tree, always: a fault in the text becomes a mark in
  the tree at the place where it was met.  Whoever takes a meaning from the
  tree walks it from left to right, so the first problem of a text, be it a
  fault of writing or a value of the wrong kind, is the first one that the
  walk meets.  Nothing of a text is read beyond its first fault.

  Parts that nobody asks for are only skipped, which is more lenient than
  reading them: a skipped numeral may lie beyond the floats, a skipped string
  may spell half a surrogate pair, and skipped brackets may nest to any depth.
-/
import AnnotationCache.Json.Numeral

namespace AnnotationCache.Json

/-- A text, as a tree with marks for its faults. -/
inductive Tree where
  | null
  | bool (b : Bool)
  | num (n : Numeral)
  /-- A string; nothing when its escapes do not spell characters. -/
  | str (s : Option String)
  /-- An array, and whether it is closed after its last item. -/
  | arr (items : List Tree) (closed : Bool)
  /-- An object, and whether it is closed after its last member. -/
  | obj (members : List (Option String × Tree)) (closed : Bool)
  /-- An object whose first member starts with something that is no string. -/
  | misfit
  /-- No value can be read here. -/
  | broken
  deriving Inhabited, Repr

namespace Tree

mutual

/-- Is a tree free of faults, so that it can be skipped? -/
def skippable : Tree → Bool
  | .arr items closed => skippableItems items && closed
  | .obj members closed => skippableMembers members && closed
  | .misfit => false
  | .broken => false
  | _ => true

/-- Are all items free of faults? -/
def skippableItems : List Tree → Bool
  | [] => true
  | x :: xs => skippable x && skippableItems xs

/-- Are the values of all members free of faults? -/
def skippableMembers : List (Option String × Tree) → Bool
  | [] => true
  | (_, x) :: xs => skippable x && skippableMembers xs

end

end Tree

end AnnotationCache.Json

/-
  AnnotationCache.Store.Key
  ─────────────────────────
  **THE KEYS OF CACHED RESULTS.**

  A class is stored under its normalised name with points for separators, a
  method of it under that key, a hash sign and the method's name, a property
  likewise with a dollar sign.  Next to a result stands its marker, which
  holds the modification time the result belongs to; its key has a prefix in
  front.  Other clients of a cache rely on this exact form.
-/
import AnnotationCache.Types.Name

namespace AnnotationCache

open AnnotationCache.Types (normalize separator)

/-- What annotations are asked of: a class, or a member of a class. -/
inductive Target where
  | ofClass (className : String)
  | ofMethod (className method : String)
  | ofProperty (className property : String)
  deriving DecidableEq, Repr, Inhabited

namespace Target

/-- The class that a target belongs to. -/
def className : Target → String
  | ofClass c => c
  | ofMethod c _ => c
  | ofProperty c _ => c

/-- The target with its class name normalised. -/
def normalized : Target → Target
  | ofClass c => ofClass (normalize c)
  | ofMethod c m => ofMethod (normalize c) m
  | ofProperty c p => ofProperty (normalize c) p

/-- **A target in words.** -/
def display : Target → String
  | ofClass c => c
  | ofMethod c m => c ++ "::" ++ m ++ "()"
  | ofProperty c p => c ++ "::$" ++ p

end Target

/-- The key of a cached result. -/
structure CacheKey where
  text : String
  deriving DecidableEq, Repr, Inhabited

namespace CacheKey

/-- A class name as it stands in keys. -/
def encode (className : String) : String :=
  String.ofList ((normalize className).toList.map fun c => if c = separator then '.' else c)

/-- **The key of a target.** -/
def ofTarget : Target → CacheKey
  | .ofClass c => ⟨encode c⟩
  | .ofMethod c m => ⟨encode c ++ "#" ++ m⟩
  | .ofProperty c p => ⟨encode c ++ "$" ++ p⟩

/-- What stands in front of the key of a marker. -/
def markerPrefix : String := "[C]"

/-- **The key of the marker** that belongs to a result. -/
def marker (key : CacheKey) : String :=
  markerPrefix ++ key.text

end CacheKey

end AnnotationCache

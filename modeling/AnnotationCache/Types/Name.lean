/-
  AnnotationCache.Types.Name
  ──────────────────────────
  **FULLY-QUALIFIED NAMES.**

  The parts of a name are joined by a backslash.  A name may be written with
  any number of backslashes in front; they mean nothing and are dropped
  wherever a name is taken in.
-/
namespace AnnotationCache.Types

/-- What joins the parts of a name. -/
def separator : Char := '\\'

/-- **A name without separators in front.** -/
def normalize (name : String) : String :=
  String.ofList (name.toList.dropWhile (· = separator))

end AnnotationCache.Types

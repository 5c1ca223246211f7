/-
  AnnotationCache.Annotation.Read
  ───────────────────────────────
  **READING ANNOTATIONS.**

  An annotation is a record with a name and, if it has any, values.
-/
import AnnotationCache.Annotation
import AnnotationCache.Json.Decode

namespace AnnotationCache.Annotation

open Json (Place Reading)

variable {m : Type → Type} [Monad m] {τ : Type}

/-- An annotation has a name and may have values. -/
def schema (format : RecordFormat m τ) : Schema m τ Annotation where
  title := "struct Annotation"
  blank := { name := "" }
  fields :=
    [⟨"name", true, fun p => do
        let name ← format.string "a string" p
        return ({ · with name := name })⟩,
     ⟨"values", false, fun p => do
        let values ← format.dict format.value p
        return ({ · with values := values })⟩]

/-- Reads a list of annotations. -/
def readList (format : RecordFormat m τ) (p : τ) : m (List Annotation) :=
  format.list (format.record (schema format)) p

/-- Reads a whole text as an annotation. -/
def parse (text : String) : Reading Annotation :=
  Json.decode (·.record (schema Place.format)) text

end AnnotationCache.Annotation

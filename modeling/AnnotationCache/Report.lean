/-
  AnnotationCache.Report
  ──────────────────────
  **REPORTS OF ANNOTATIONS.**

  What was found for a target is reported as lines of text or as an indented
  JSON object.
-/
import AnnotationCache.Annotation
import AnnotationCache.Store.Key

namespace AnnotationCache

/-- The forms of a report. -/
inductive ReportFormat where
  | json
  | text
  deriving DecidableEq, Repr, Inhabited

/-- The word for a form. -/
def ReportFormat.word : ReportFormat → String
  | .json => "json"
  | .text => "text"

namespace Report

/-- A report as a JSON object. -/
def toJson (target : Target) (annotations : List Annotation) : Json :=
  .obj
    [("target", .str target.display),
     ("total_annotations", .int annotations.length),
     ("annotations", .arr (annotations.map Annotation.toJson))]

/-- A report as lines: the target with the number of annotations, and below it
each annotation, two spaces in. -/
def toLines (target : Target) (annotations : List Annotation) : List String :=
  (target.display ++ ": " ++ toString annotations.length ++ " annotation(s)") ::
    annotations.map fun a => "  " ++ a.display

/-- **The text of a report.** -/
def render (format : ReportFormat) (target : Target) (annotations : List Annotation) : String :=
  match format with
  | .json => (toJson target annotations).indented
  | .text => String.intercalate "\n" (toLines target annotations)

end Report

end AnnotationCache

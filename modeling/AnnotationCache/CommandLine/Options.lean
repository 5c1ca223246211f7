/-
  AnnotationCache.CommandLine.Options
  ───────────────────────────────────
  **WHAT THE PROGRAM IS ASKED TO DO.**
-/
import AnnotationCache.Report

namespace AnnotationCache.CommandLine

/-- The options of a run. -/
structure Options where
  /-- The path of the manifest. -/
  manifest : String
  /-- The class that is asked about, as it was written. -/
  className : String
  /-- The method to read instead of the class. -/
  method : Option String := none
  /-- The property to read instead of the class. -/
  property : Option String := none
  /-- The folder of the cache, if it is not the usual one. -/
  cacheFolder : Option String := none
  /-- Is the cache left out? -/
  noCache : Bool := false
  /-- Is the cache cleared first? -/
  clearCache : Bool := false
  /-- Are stored results checked against modification times? -/
  debug : Bool := false
  format : ReportFormat := .json
  /-- How often more notes were asked for. -/
  verbose : Nat := 0
  quiet : Bool := false
  deriving DecidableEq, Repr, Inhabited

/-- **The target of a run.** -/
def Options.target (o : Options) : Target :=
  Target.normalized <|
    match o.method, o.property with
    | some m, _ => .ofMethod o.className m
    | none, some p => .ofProperty o.className p
    | none, none => .ofClass o.className

end AnnotationCache.CommandLine

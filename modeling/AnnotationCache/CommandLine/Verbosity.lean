/-
  AnnotationCache.CommandLine.Verbosity
  ─────────────────────────────────────
  **HOW MUCH THE PROGRAM SAYS BESIDES ITS REPORT.**

  Notes have a level of importance, and a verbosity shows the notes from some
  level up.  Being quiet wins over any number of requests to say more.
-/
namespace AnnotationCache.CommandLine

/-- The importance of a note, highest first. -/
inductive Level where
  | error
  | warning
  | info
  | debug
  | trace
  deriving DecidableEq, Repr, Inhabited

/-- The word for a level. -/
def Level.word : Level → String
  | .error => "ERROR"
  | .warning => "WARN"
  | .info => "INFO"
  | .debug => "DEBUG"
  | .trace => "TRACE"

/-- How much is said, least first. -/
inductive Verbosity where
  | quiet
  | normal
  | verbose
  | debug
  | trace
  deriving DecidableEq, Repr, Inhabited

namespace Verbosity

/-- **The verbosity that was asked for**, by a number of requests for more and
perhaps one for silence. -/
def ofFlags (requests : Nat) (quiet : Bool) : Verbosity :=
  if quiet then .quiet
  else
    match requests with
    | 0 => .normal
    | 1 => .verbose
    | 2 => .debug
    | _ => .trace

/-- The least important level that is shown. -/
def level : Verbosity → Level
  | .quiet => .error
  | .normal => .warning
  | .verbose => .info
  | .debug => .debug
  | .trace => .trace

/-- The word for a verbosity. -/
def word : Verbosity → String
  | .quiet => "Quiet"
  | .normal => "Normal"
  | .verbose => "Verbose"
  | .debug => "Debug"
  | .trace => "Trace"

/-- Are the notes of a level shown? -/
def shows (v : Verbosity) (level : Level) : Bool :=
  level.ctorIdx ≤ v.level.ctorIdx

/-- Does one verbosity say at most as much as another? -/
def atMost (v w : Verbosity) : Bool :=
  v.ctorIdx ≤ w.ctorIdx

end Verbosity

end AnnotationCache.CommandLine

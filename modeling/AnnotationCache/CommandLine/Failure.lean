/-
  AnnotationCache.CommandLine.Failure
  ───────────────────────────────────
  **HOW A FAILED RUN IS REPORTED.**

  A run fails in one of its stages.  The report begins with what the program
  was about to do, and below it stands the chain of causes, one a line; two
  causes or more are numbered.
-/
import AnnotationCache.Error
import AnnotationCache.Store.Key

namespace AnnotationCache.CommandLine

/-- Options that cannot be met. -/
inductive Refusal where
  | noManifest (path : String)
  | manifestIsNoFile (path : String)
  | noClassName
  | cacheIsNoFolder (path : String)
  deriving DecidableEq, Repr, Inhabited

/-- The message of a refusal. -/
def Refusal.message : Refusal → String
  | noManifest path => "Manifest does not exist: " ++ path
  | manifestIsNoFile path => "Manifest is not a file: " ++ path
  | noClassName => "Class name must not be empty"
  | cacheIsNoFolder path => "Cache path is not a directory: " ++ path

/-- Where a run failed, and why. -/
inductive Failure where
  | refused (refusal : Refusal)
  | manifestNotLoaded (path : String) (error : Error)
  | invalidManifest (error : Error)
  | noCacheFolder (error : Error)
  | cacheNotCleared (error : Error)
  | notRead (target : Target) (error : Error)
  deriving DecidableEq, Repr, Inhabited

namespace Failure

/-- What the run was about to do, if that is said. -/
def headline? : Failure → Option String
  | refused _ => some "Invalid arguments"
  | manifestNotLoaded path _ => some ("Failed to load manifest: " ++ path)
  | invalidManifest _ => some "Invalid type manifest"
  | noCacheFolder _ => none
  | cacheNotCleared _ => some "Failed to clear cache"
  | notRead target _ => some ("Failed to read annotations of " ++ target.display)

/-- The error of the library that stopped the run. -/
def error? : Failure → Option Error
  | refused _ => none
  | manifestNotLoaded _ e
  | invalidManifest e
  | noCacheFolder e
  | cacheNotCleared e
  | notRead _ e => some e

/-- The messages of a failure, each caused by the next one. -/
def messages (f : Failure) : List String :=
  let below :=
    match f with
    | refused refusal => [refusal.message]
    | _ => f.error?.toList.flatMap fun e => e.message :: e.systemCause?.toList
  f.headline?.toList ++ below

/-- A text in which every line after the first is indented. -/
def indent (depth : Nat) (text : String) : String :=
  String.ofList <| text.toList.flatMap fun c =>
    if c = '\n' then c :: List.replicate depth ' ' else [c]

/-- The lines of causes. -/
def causeLines (numbered : Bool) (causes : List String) : String :=
  String.join <| causes.zipIdx.map fun (cause, i) =>
    if numbered then
      let number := toString i
      "\n" ++ String.ofList (List.replicate (5 - number.length) ' ') ++ number ++ ": " ++
        indent 7 cause
    else "\n    " ++ indent 4 cause

/-- A report: a message and the causes below it. -/
def layOut (numbered : Bool) : List String → String
  | [] => "Error: "
  | [message] => "Error: " ++ message
  | message :: causes => "Error: " ++ message ++ "\n\nCaused by:" ++ causeLines numbered causes

/-- **The report of a failed run.** -/
def report (f : Failure) : String :=
  layOut (2 < f.messages.length) f.messages

end Failure

end AnnotationCache.CommandLine

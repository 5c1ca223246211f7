/-
  AnnotationCache.Main
  ────────────────────
  **THE PROGRAM.**

  Requests for files are answered by the system that the program runs on, and
  reports go to the standard output.
-/
import AnnotationCache.CommandLine.Run
import AnnotationCache.CommandLine.Usage

namespace AnnotationCache.Main

open Files (FileError ItemKind)
open CommandLine (Level Options Surroundings UsageError Verbosity)

/-- An action of the system, with its failure as a failure of a request. -/
def asked {α : Type} (action : IO α) : ExceptT FileError IO α :=
  ExceptT.mk do
    match ← action.toBaseIO with
    | .ok a => return .ok a
    | .error (.noFileOrDirectory ..) => return .error .notFound
    | .error e => return .error (.other (toString e))

/-- The kind of an item of the system. -/
def kindOf : IO.FS.FileType → ItemKind
  | .file => .file
  | .dir => .folder
  | .symlink => .link
  | .other => .special

/-- What is known of the item that a path leads to. -/
def metadata (path : String) : IO IO.FS.Metadata := do
  (← IO.FS.realPath path).metadata

/-- The text in a file. -/
def readText (path : String) : ExceptT FileError IO String := do
  let bytes ← asked (IO.FS.readBinFile path)
  match String.fromUTF8? bytes with
  | some text => return text
  | none => throw .notText

/-- **The files of the system.** -/
def files : Files.Access IO where
  kind path := do
    match ← (asked (metadata path)).run with
    | .ok found => return some (kindOf found.type)
    | .error _ => return none
  readText := readText
  modified path := do return (← asked (metadata path)).modified.sec
  makeFolders path := asked (if path.isEmpty then pure ⟨⟩ else IO.FS.createDirAll path)
  write path text := asked (IO.FS.writeFile path text)
  list path := asked do
    let entries ← (← IO.FS.realPath path).readDir
    entries.toList.mapM fun entry => do
      return (entry.fileName, kindOf (← entry.path.symlinkMetadata).type)
  remove path := asked (IO.FS.removeFile path)

/-- The surroundings of a run that says so much. -/
def surroundings (verbosity : Verbosity) : IO (Surroundings IO) := do
  return {
    files := files
    home := ← IO.getEnv "HOME"
    userProfile := ← IO.getEnv "USERPROFILE"
    note := fun level text =>
      if verbosity.shows level then IO.eprintln (level.word ++ " " ++ text) else pure ⟨⟩ }

/-- Runs the program and gives its exit code. -/
def execute (o : Options) : IO UInt32 := do
  let around ← surroundings (Verbosity.ofFlags o.verbose o.quiet)
  match ← (CommandLine.run around o).run with
  | .ok report =>
      IO.print report
      return 0
  | .error failure =>
      IO.eprintln failure.report
      return 1

end AnnotationCache.Main

open AnnotationCache in
/-- Reads the arguments and runs the program. -/
def main (arguments : List String) : IO UInt32 := do
  match CommandLine.Options.ofArguments arguments with
  | .ok options => Main.execute options
  | .error .helpWanted =>
      IO.println CommandLine.usage
      return 0
  | .error e =>
      IO.eprintln e.message
      return e.exitCode

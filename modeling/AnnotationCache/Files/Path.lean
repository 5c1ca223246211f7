/-
  AnnotationCache.Files.Path
  ──────────────────────────
  **PATHS AS TEXT.**

  A path is a text; its steps are what stands between slashes.  Repeated
  slashes count once and a step `.` counts only at the very start of a path
  that has no slash in front.  Nothing here asks whether a file exists.
-/
namespace AnnotationCache.Files.Path

/-- A step of a path, with the text of the path up to its end. -/
structure Step where
  name : String
  upTo : String
  deriving DecidableEq, Repr

/-- Does the path start at the root? -/
def isAbsolute (path : String) : Bool :=
  path.toList.head? == some '/'

/-- Splits a text at slashes: its pieces, of which any may be empty. -/
def split : List Char → List (List Char)
  | [] => [[]]
  | c :: rest =>
      if c = '/' then [] :: split rest
      else
        match split rest with
        | piece :: pieces => (c :: piece) :: pieces
        | [] => [[c]]

/-- The pieces of a path. -/
def pieces (path : String) : List String :=
  (split path.toList).map String.ofList

/-- Pieces that follow a text, each with the text up to its end. -/
def stepsAfter (before : String) : List String → List Step
  | [] => []
  | piece :: rest =>
      let upTo := before ++ piece
      ⟨piece, upTo⟩ :: stepsAfter (upTo ++ "/") rest

/-- **The steps of a path.** -/
def steps (path : String) : List Step :=
  match stepsAfter "" (pieces path) with
  | [] => []
  | first :: rest =>
      (if first.name = "" then [] else [first]) ++
        rest.filter fun step => step.name ≠ "" ∧ step.name ≠ "."

/-- **The directory of a path**: the path without its last step.  The root and
the empty path have none. -/
def directory? (path : String) : Option String :=
  match (steps path).reverse with
  | [] => none
  | [_] => some (if isAbsolute path then "/" else "")
  | _ :: previous :: _ => some previous.upTo

/-- The last step, if it is a name. -/
def fileName? (path : String) : Option String :=
  match (steps path).getLast? with
  | some step => if step.name = ".." ∨ step.name = "." then none else some step.name
  | none => none

/-- **The extension of a path**: what follows the last point of its last step,
unless that point is the first character. -/
def extension? (path : String) : Option String := do
  let name := (← fileName? path).toList
  let after := (name.reverse.takeWhile (· ≠ '.')).reverse
  let before := name.take (name.length - after.length)
  if before.length ≤ 1 then none else some (String.ofList after)

/-- **A path seen from a directory.**  An absolute path stays as it is. -/
def join (directory path : String) : String :=
  if isAbsolute path then path
  else
    match directory.toList.getLast? with
    | none => path
    | some '/' => directory ++ path
    | some _ => directory ++ "/" ++ path

/-- **A path and all directories above it**, the path first: the texts up to the
steps before the last one, and then the directory of a path of one step. -/
def ancestors (path : String) : List String :=
  match (steps path).reverse with
  | [] => [path]
  | _ :: above => path :: (above.map Step.upTo ++ [if isAbsolute path then "/" else ""])

end AnnotationCache.Files.Path

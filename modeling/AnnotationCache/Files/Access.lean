/-
  AnnotationCache.Files.Access
  ────────────────────────────
  **WHAT IS ASKED OF A FILE SYSTEM.**

  Everything in this library that touches files does so through `Access`, a
  record of the few requests it makes.  The command line answers them from the
  system it runs on; `Disk` answers them from a value, so that whole runs of
  the program can be reasoned about.
-/
namespace AnnotationCache.Files

/-- Why a request for a file failed. -/
inductive FileError where
  | notFound
  | notAFolder
  | isAFolder
  | alreadyExists
  | tooManyLinks
  | nameTooLong
  | invalidPath
  | notText
  | other (wording : String)
  deriving DecidableEq, Repr, Inhabited

/-- The wording of a failure. -/
def FileError.wording : FileError → String
  | notFound => "No such file or directory (os error 2)"
  | notAFolder => "Not a directory (os error 20)"
  | isAFolder => "Is a directory (os error 21)"
  | alreadyExists => "File exists (os error 17)"
  | tooManyLinks => "Too many levels of symbolic links (os error 40)"
  | nameTooLong => "File name too long (os error 36)"
  | invalidPath => "file name contained an unexpected NUL byte"
  | notText => "stream did not contain valid UTF-8"
  | other wording => wording

/-- What is found at a path. -/
inductive ItemKind where
  | file
  | folder
  | link
  | special
  deriving DecidableEq, Repr, Inhabited

/-- The requests; paths that name links stand for what the links lead to. -/
structure Access (m : Type → Type) where
  /-- What is at a path, if anything. -/
  kind : String → m (Option ItemKind)
  /-- The text of a file. -/
  readText : String → ExceptT FileError m String
  /-- The second at which a file was last modified. -/
  modified : String → ExceptT FileError m Int
  /-- Makes a folder and the folders above it, those that do not exist yet. -/
  makeFolders : String → ExceptT FileError m PUnit
  /-- Writes a text to a file, in place of what the file held. -/
  write : String → String → ExceptT FileError m PUnit
  /-- The names of the items in a folder, with their own kinds. -/
  list : String → ExceptT FileError m (List (String × ItemKind))
  /-- Removes a file or a link. -/
  remove : String → ExceptT FileError m PUnit

/-- The requests, answered by part of a larger world. -/
def Access.lift {m n : Type → Type} (embed : {α : Type} → m α → n α) (files : Access m) :
    Access n where
  kind path := embed (files.kind path)
  readText path := ExceptT.mk (embed (files.readText path))
  modified path := ExceptT.mk (embed (files.modified path))
  makeFolders path := ExceptT.mk (embed (files.makeFolders path))
  write path text := ExceptT.mk (embed (files.write path text))
  list path := ExceptT.mk (embed (files.list path))
  remove path := ExceptT.mk (embed (files.remove path))

end AnnotationCache.Files

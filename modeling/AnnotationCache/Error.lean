/-
  AnnotationCache.Error
  ─────────────────────
  **WHAT CAN GO WRONG.**

  Errors are causes.  Each has a headline, which says what failed, and some
  have a cause of their own, worded by whatever failed underneath: the system
  or a reader of text.  The message of an error is the headline, followed by
  that wording where there is one.
-/
namespace AnnotationCache

/-- A failure of the library. -/
inductive Error where
  /-- There is no file at a path. -/
  | fileNotFound (path : String)
  /-- A file cannot be read. -/
  | unreadableFile (path cause : String)
  /-- The modification time of a file cannot be read. -/
  | unknownModification (path cause : String)
  /-- No type of this name is registered. -/
  | typeNotFound (name : String)
  /-- Neither a class nor anything it takes members from declares a method. -/
  | methodNotFound (className method : String)
  /-- Neither a class nor anything it takes members from declares a property. -/
  | propertyNotFound (className property : String)
  /-- A type is declared a second time. -/
  | duplicateType (name : String)
  /-- The text of a manifest cannot be understood. -/
  | malformedManifest (path cause : String)
  /-- The extension of a manifest's path belongs to no known format. -/
  | unsupportedFormat (extension : String)
  /-- A cache entry cannot be read, written or removed. -/
  | inaccessibleEntry (path cause : String)
  /-- A cache entry cannot be written down. -/
  | unwritableEntry (key cause : String)
  /-- The text of a cache entry cannot be understood. -/
  | malformedEntry (key cause : String)
  /-- A cache reports a failure of its own. -/
  | backend (cause : String)
  /-- A reader reports a failure of its own. -/
  | readFailed (target cause : String)
  deriving DecidableEq, Repr, Inhabited

namespace Error

/-- What failed. -/
def headline : Error → String
  | fileNotFound path => "file not found: " ++ path
  | unreadableFile path _ => "failed to read file '" ++ path ++ "'"
  | unknownModification path _ => "failed to read modification time of '" ++ path ++ "'"
  | typeNotFound name => "type not found: " ++ name
  | methodNotFound className method => "method " ++ className ++ "::" ++ method ++ "() does not exist"
  | propertyNotFound className property =>
      "property " ++ className ++ "::$" ++ property ++ " does not exist"
  | duplicateType name => "type '" ++ name ++ "' is declared more than once"
  | malformedManifest path _ => "failed to parse type manifest '" ++ path ++ "'"
  | unsupportedFormat extension =>
      "unsupported manifest format: " ++ extension ++ " (expected json or yaml)"
  | inaccessibleEntry path _ => "failed to access cache entry '" ++ path ++ "'"
  | unwritableEntry key _ => "failed to serialize cache entry '" ++ key ++ "'"
  | malformedEntry key _ => "failed to deserialize cache entry '" ++ key ++ "'"
  | backend _ => "cache backend error"
  | readFailed target _ => "failed to read annotations of " ++ target

/-- The wording of what failed underneath. -/
def cause? : Error → Option String
  | unreadableFile _ cause
  | unknownModification _ cause
  | malformedManifest _ cause
  | inaccessibleEntry _ cause
  | unwritableEntry _ cause
  | malformedEntry _ cause
  | backend cause
  | readFailed _ cause => some cause
  | _ => none

/-- **The message of an error.** -/
def message (e : Error) : String :=
  match e.cause? with
  | some cause => e.headline ++ ": " ++ cause
  | none => e.headline

/-- The failure of the system that an error passes on, if there is one. -/
def systemCause? : Error → Option String
  | unreadableFile _ cause
  | unknownModification _ cause
  | inaccessibleEntry _ cause => some cause
  | _ => none

end Error

end AnnotationCache

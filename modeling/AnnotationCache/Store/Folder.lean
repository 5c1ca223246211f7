/-
  AnnotationCache.Store.Folder
  ────────────────────────────
  **A CACHE ON DISK.**

  Each entry is a file of its own in one folder, named by the digest of its
  key, so that any key is safe to use.  The folder is made by the first write.
  A file that turns out to hold the entry of another key counts as no entry.
-/
import AnnotationCache.Digest.Sha256
import AnnotationCache.Files.Access
import AnnotationCache.Files.Path
import AnnotationCache.Store.Access

namespace AnnotationCache

open Files (FileError ItemKind)

/-- A cache that keeps its entries in a folder. -/
structure FolderCache where
  folder : String
  deriving DecidableEq, Repr, Inhabited

namespace FolderCache

variable {m : Type → Type} [Monad m]

/-- The extension of entry files. -/
def entryExtension : String := "json"

/-- The name of the file that holds the entry of a key. -/
def entryName (key : String) : String :=
  Digest.Sha256.hex key ++ "." ++ entryExtension

/-- The path of the file that holds the entry of a key. -/
def entryPath (cache : FolderCache) (key : String) : String :=
  Files.Path.join cache.folder (entryName key)

/-- Access to a path failed. -/
def inaccessible (path : String) (failure : FileError) : Error :=
  .inaccessibleEntry path failure.wording

/-- **What is stored under a key.** -/
def get (files : Files.Access m) (cache : FolderCache) (key : String) :
    ExceptT Error m (Option CacheValue) := do
  let path := cache.entryPath key
  match ← (files.readText path).run with
  | .error .notFound => return none
  | .error failure => throw (inaccessible path failure)
  | .ok text =>
      match Entry.parse text with
      | .error problem => throw (.malformedEntry key problem.message)
      | .ok entry => return if entry.key = key then some entry.value else none

/-- **Stores a value under a key.** -/
def set (files : Files.Access m) (cache : FolderCache) (key : String) (value : CacheValue) :
    ExceptT Error m Bool := do
  (files.makeFolders cache.folder).adapt (inaccessible cache.folder)
  let path := cache.entryPath key
  (files.write path (Entry.text ⟨key, value⟩)).adapt (inaccessible path)
  return true

/-- Is an item of the folder taken for an entry? -/
def isEntry : String × ItemKind → Bool
  | (name, .file) => Files.Path.extension? name = some entryExtension
  | _ => false

/-- Removes files one after the other. -/
def removeEach (files : Files.Access m) : List String → ExceptT Error m PUnit
  | [] => pure ⟨⟩
  | path :: paths => do
      (files.remove path).adapt (inaccessible path)
      removeEach files paths

/-- **Removes every entry** and says how many there were. -/
def clear (files : Files.Access m) (cache : FolderCache) : ExceptT Error m Nat := do
  match ← files.kind cache.folder with
  | some .folder =>
      let items ← (files.list cache.folder).adapt (inaccessible cache.folder)
      let entries := (items.filter isEntry).map fun p => Files.Path.join cache.folder p.1
      removeEach files entries
      return entries.length
  | _ => return 0

/-- **The cache as readers use it.** -/
def store (files : Files.Access m) (cache : FolderCache) : Store m where
  get := cache.get files
  set := cache.set files

/-- **The folder used when none is named**: below the home folder of the user. -/
def defaultFolder (home userProfile : Option String) : Except Error String :=
  match home <|> userProfile with
  | some home =>
      .ok (Files.Path.join (Files.Path.join home ".cache") "annotation-reader")
  | none => .error (.backend "could not determine home directory")

end FolderCache

end AnnotationCache

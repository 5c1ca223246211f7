/-
  AnnotationCache.Manifest.Load
  ─────────────────────────────
  **LOADING MANIFESTS FROM FILES.**
-/
import AnnotationCache.Files.Access
import AnnotationCache.Manifest.Read

namespace AnnotationCache.Manifest

variable {m : Type → Type} [Monad m]

/-- **Loads a manifest.**  Relative sources are meant from its directory. -/
def load (files : Files.Access m) (path : String) : ExceptT Error m Manifest := do
  if (← files.kind path).isNone then throw (.fileNotFound path)
  let format ← MonadExcept.ofExcept (ManifestFormat.ofPath path)
  let text ← (files.readText path).adapt fun failure => .unreadableFile path failure.wording
  let manifest ← MonadExcept.ofExcept (parse format text path)
  match Files.Path.directory? path with
  | some directory => return manifest.resolveSources directory
  | none => return manifest

end AnnotationCache.Manifest

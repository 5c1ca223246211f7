/-
  AnnotationCache.Manifest
  ────────────────────────
  **MANIFESTS OF DECLARED TYPES.**

  A manifest lists types and the annotation names to ignore.  It is a file in
  one of two formats, told apart by the extension of its path.  Sources that
  are relative paths are meant relative to the manifest's directory.
-/
import AnnotationCache.Files.Path
import AnnotationCache.Types.Registry

namespace AnnotationCache

open AnnotationCache.Types (Descriptor Registry)

/-- The formats of manifests. -/
inductive ManifestFormat where
  | json
  | yaml
  deriving DecidableEq, Repr, Inhabited

/-- **The format of a path**, by its extension. -/
def ManifestFormat.ofPath (path : String) : Except Error ManifestFormat :=
  match (Files.Path.extension? path).getD "" with
  | "json" => .ok .json
  | "yaml" => .ok .yaml
  | "yml" => .ok .yaml
  | other => .error (.unsupportedFormat other)

/-- Declared types, and annotation names to ignore. -/
structure Manifest where
  ignored : List String := []
  types : List Descriptor := []
  deriving Inhabited, Repr

namespace Manifest

/-- A source seen from a directory. -/
def resolveSource (directory : String) (d : Descriptor) : Descriptor :=
  { d with source := d.source.map (Files.Path.join directory) }

/-- The manifest with its sources seen from a directory. -/
def resolveSources (manifest : Manifest) (directory : String) : Manifest :=
  { manifest with types := manifest.types.map (resolveSource directory) }

/-- **The registry of a manifest's types.** -/
def registry (manifest : Manifest) : Except Error Registry :=
  Registry.ofTypes manifest.types

end Manifest

end AnnotationCache

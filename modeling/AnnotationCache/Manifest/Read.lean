/-
  AnnotationCache.Manifest.Read
  ─────────────────────────────
  **READING MANIFESTS.**

  A manifest is a record of ignored names and of types, and a type is a record
  of what a descriptor says.  The description is the same for every format.
-/
import AnnotationCache.Annotation.Read
import AnnotationCache.Manifest
import AnnotationCache.Yaml.Decode

namespace AnnotationCache

variable {m : Type → Type} [Monad m] {τ : Type}

namespace Types.Descriptor

/-- Reads names. -/
def readNames (format : RecordFormat m τ) (p : τ) : m (List String) :=
  format.list (format.string "a string") p

/-- Reads the members of a type: annotations by name. -/
def readMembers (format : RecordFormat m τ) (p : τ) : m (Dict (List Annotation)) :=
  format.dict (fun q => Annotation.readList format q) p

/-- A type has a name; everything else may be left out. -/
def schema (format : RecordFormat m τ) : Schema m τ Descriptor where
  title := "struct TypeDescriptor"
  blank := { name := "" }
  fields :=
    [⟨"name", true, fun p => do
        let name ← format.string "a string" p
        return ({ · with name := name })⟩,
     ⟨"kind", false, fun p => do
        let kind ← format.variant Kind.byWord p
        return ({ · with kind := kind })⟩,
     ⟨"source", false, fun p => do
        let source ← format.optionalString "path string" p
        return ({ · with source := source })⟩,
     ⟨"parent", false, fun p => do
        let parent ← format.optionalString "a string" p
        return ({ · with parent := parent })⟩,
     ⟨"interfaces", false, fun p => do
        let names ← readNames format p
        return ({ · with interfaces := names })⟩,
     ⟨"traits", false, fun p => do
        let names ← readNames format p
        return ({ · with traits := names })⟩,
     ⟨"annotations", false, fun p => do
        let list ← Annotation.readList format p
        return ({ · with annotations := list })⟩,
     ⟨"methods", false, fun p => do
        let members ← readMembers format p
        return ({ · with methods := members })⟩,
     ⟨"properties", false, fun p => do
        let members ← readMembers format p
        return ({ · with properties := members })⟩]

end Types.Descriptor

namespace Manifest

/-- Both parts of a manifest may be left out. -/
def schema (format : RecordFormat m τ) : Schema m τ Manifest where
  title := "struct TypeManifest"
  blank := {}
  fields :=
    [⟨"ignored_annotations", false, fun p => do
        let names ← Types.Descriptor.readNames format p
        return ({ · with ignored := names })⟩,
     ⟨"types", false, fun p => do
        let types ← format.list (format.record (Types.Descriptor.schema format)) p
        return ({ · with types := types })⟩]

/-- **Reads a manifest from JSON text.** -/
def ofJson (text : String) : Except Json.Problem Manifest :=
  Json.decode (·.record (schema Json.Place.format)) text

/-- **Reads a manifest from YAML text.** -/
def ofYaml (text : String) : Except Yaml.Fault Manifest :=
  Yaml.decode (schema Yaml.Place.format) text

/-- **Reads a manifest** in a format; the path only names it in errors. -/
def parse (format : ManifestFormat) (text path : String) : Except Error Manifest :=
  match format with
  | .json => (ofJson text).mapError fun problem => .malformedManifest path problem.message
  | .yaml => (ofYaml text).mapError fun fault => .malformedManifest path fault.message

end Manifest

end AnnotationCache

/-
  AnnotationCache.Proofs.Manifest.Loading
  ───────────────────────────────────────
  **WHAT IS LOADED IS IN THE FILE.**

  Loading a manifest asks what is at its path and for the text there, and changes
  nothing.  So a file that is found as before is loaded as before, and what was
  loaded is within the bounds of what a manifest can say.

  Main statements:
    * `run_load`       — what is loaded, by what is at the path and by its text;
    * `run_load_congr` — a file that is found as before is loaded as before;
    * `within_of_load` — what is loaded says of its types what a manifest can say.
-/
import AnnotationCache.Files.Disk
import AnnotationCache.Manifest.Load
import AnnotationCache.Proofs.Files.Written
import AnnotationCache.Proofs.Manifest.Declared
import AnnotationCache.Proofs.Requests

namespace AnnotationCache.Manifest

open AnnotationCache.Files (Disk FileError ItemKind)

variable {d d' : Disk} {path : String} {manifest : Manifest}

/-- The manifest with its sources seen from the directory of its path. -/
def resolved (manifest : Manifest) (path : String) : Manifest :=
  match Files.Path.directory? path with
  | some directory => manifest.resolveSources directory
  | none => manifest

/-- **What is loaded** from what is at a path and its text. -/
def fromFile (kind : Option ItemKind) (text : Except FileError String) (path : String) :
    Except Error Manifest :=
  if kind.isNone then .error (.fileNotFound path)
  else do
    let format ← ManifestFormat.ofPath path
    let text ← text.mapError fun failure => Error.unreadableFile path failure.wording
    let manifest ← parse format text path
    return manifest.resolved path

/-- What is loaded from a file whose text is that of a manifest. -/
theorem fromFile_of_parse {kind : ItemKind} {format : ManifestFormat} {text : String}
    {parsed : Manifest} (hformat : ManifestFormat.ofPath path = .ok format)
    (hparse : parse format text path = .ok parsed) :
    fromFile (some kind) (.ok text) path = .ok (parsed.resolved path) := by
  unfold fromFile
  rw [if_neg (fun hnone => by cases hnone), hformat]
  show (parse format text path >>= _) = _
  rw [hparse]
  rfl

/-- **Loading asks for two things and changes nothing.** -/
theorem run_load (d : Disk) (path : String) :
    (load Disk.files path).run.run d = (fromFile (d.kind path) (d.readText path) path, d) := by
  have hkind : (liftM (Disk.files.kind path) :
      ExceptT Error (StateM Disk) (Option ItemKind)).run.run d = (.ok (d.kind path), d) := rfl
  have htext : ((Disk.files.readText path).adapt fun failure =>
      Error.unreadableFile path failure.wording).run.run d
        = ((d.readText path).mapError fun failure => Error.unreadableFile path failure.wording, d) :=
    run_adapt _ rfl
  unfold load fromFile
  rw [run_bind_ok hkind]
  cases hnone : (d.kind path).isNone with
  | true => rfl
  | false =>
      simp only [Bool.false_eq_true, if_false]
      cases hformat : ManifestFormat.ofPath path with
      | error e => rfl
      | ok format =>
          show (((Disk.files.readText path).adapt _ >>= _).run.run d) = _
          cases hread : (d.readText path).mapError fun failure =>
              Error.unreadableFile path failure.wording with
          | error e =>
              rw [hread] at htext
              rw [run_bind_error htext]
              rfl
          | ok text =>
              rw [hread] at htext
              rw [run_bind_ok htext]
              unfold resolved
              show ((MonadExcept.ofExcept (parse format text path) >>= _ : ExceptT Error (StateM Disk)
                Manifest).run.run d) = (parse format text path >>= _, d)
              cases parse format text path with
              | error e => rfl
              | ok manifest => cases Files.Path.directory? path <;> rfl

/-- **A file that is found as before is loaded as before.** -/
theorem run_load_congr (h : d'.find path true = d.find path true)
    (hload : (load Disk.files path).run.run d = (.ok manifest, d)) :
    (load Disk.files path).run.run d' = (.ok manifest, d') := by
  rw [run_load] at hload ⊢
  rw [Files.Disk.kind_congr h, Files.Disk.readText_congr h, (Prod.mk.inj hload).1]

/-- **What is loaded says of its types what a manifest can say**: to see their sources
from a directory leaves their annotations as they are. -/
theorem within_of_load (hload : (load Disk.files path).run.run d = (.ok manifest, d)) :
    ∀ t ∈ manifest.types, t.Within 126 := by
  rw [run_load] at hload
  have hfile : fromFile (d.kind path) (d.readText path) path = .ok manifest := (Prod.mk.inj hload).1
  unfold fromFile at hfile
  rw [if_neg (fun hnone => by rw [if_pos hnone] at hfile; cases hfile)] at hfile
  obtain ⟨format, -, hfile⟩ := bind_eq_ok hfile
  obtain ⟨text, -, hfile⟩ := bind_eq_ok hfile
  obtain ⟨parsed, hparse, hfile⟩ := bind_eq_ok hfile
  obtain rfl : parsed.resolved path = manifest := Except.ok.inj hfile
  have hwithin := within_of_parse hparse
  unfold resolved
  cases Files.Path.directory? path with
  | none => exact hwithin
  | some directory =>
      intro t ht
      obtain ⟨t', ht', rfl⟩ := List.mem_map.1 ht
      exact ⟨(hwithin t' ht').annotations, (hwithin t' ht').methods, (hwithin t' ht').properties⟩

end AnnotationCache.Manifest

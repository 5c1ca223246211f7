/-
  AnnotationCache.Proofs.Types.Name
  ─────────────────────────────────
  **NORMALISED NAMES.**

  Normalising drops the separators in front of a name and keeps all that follows them,
  so normalising again changes nothing.

  Main statements:
    * `normalize_normalize`  — normalising twice is normalising once;
    * `mem_of_mem_normalize` — no character is added to a name.
-/
import Mathlib.Data.List.DropRight
import AnnotationCache.Types.Name

namespace AnnotationCache.Types

theorem toList_normalize (name : String) :
    (normalize name).toList = name.toList.dropWhile (· = separator) := by
  unfold normalize
  rw [String.toList_ofList]

/-- **Normalising twice is normalising once.** -/
@[simp] theorem normalize_normalize (name : String) :
    normalize (normalize name) = normalize name := by
  rw [← String.toList_inj, toList_normalize, toList_normalize, List.dropWhile_idempotent]

/-- A normalised name has only characters of the name. -/
theorem mem_of_mem_normalize {name : String} {c : Char} (h : c ∈ (normalize name).toList) :
    c ∈ name.toList := by
  rw [toList_normalize] at h
  exact (List.dropWhile_sublist _).subset h

end AnnotationCache.Types

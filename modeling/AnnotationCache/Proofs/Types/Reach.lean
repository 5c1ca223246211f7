/-
  AnnotationCache.Proofs.Types.Reach
  ──────────────────────────────────
  **WHAT A TYPE REACHES.**

  A type refers to its parent, its interfaces and its traits.  A path follows
  such references from one name to the next, through types that are registered;
  its last name may be that of a type that is not.  Hierarchies may have cycles,
  so there may be paths of any length, and what counts is the length of the
  shortest one, the distance.

  The walk of a closure and the search for a member are two ways to follow
  references.  What each of them finds is said in these words.
-/
import AnnotationCache.Proofs.Types.Registered

namespace AnnotationCache.Types.Registry

/-! ## §1. References. -/

/-- **Does the type of one name refer to the other name?** -/
def RefersTo (r : Registry) (name next : String) : Prop :=
  ∃ d, r.reflect name = .ok d ∧ next ∈ d.dependencies

/-- **The paths of references** from a name, by the number of references. -/
inductive Path (r : Registry) (start : String) : Nat → String → Prop where
  /-- The path that goes nowhere. -/
  | here : Path r start 0 start
  /-- A path, and one more reference. -/
  | further {count : Nat} {name next : String} :
      Path r start count name → r.RefersTo name next → Path r start (count + 1) next

/-- **Does a path lead from one name to the other?** -/
def Reaches (r : Registry) (start name : String) : Prop :=
  ∃ count, r.Path start count name

/-- **The distance of a name**: the number of references on a shortest path. -/
structure Distance (r : Registry) (start name : String) (count : Nat) : Prop where
  path : r.Path start count name
  shortest : ∀ fewer, r.Path start fewer name → count ≤ fewer

variable {r : Registry} {start name next : String} {count : Nat}

theorem Reaches.refl (r : Registry) (start : String) : r.Reaches start start :=
  ⟨0, .here⟩

theorem Reaches.further (h : r.Reaches start name) (hnext : r.RefersTo name next) :
    r.Reaches start next := by
  obtain ⟨count, hpath⟩ := h
  exact ⟨count + 1, hpath.further hnext⟩

theorem Reaches.trans (h : r.Reaches start name) (h' : r.Reaches name next) :
    r.Reaches start next := by
  obtain ⟨count, hpath⟩ := h'
  induction hpath with
  | here => exact h
  | further _ hlast ih => exact ih.further hlast

/-- No other name is at distance `0`. -/
theorem distance_start (r : Registry) (start : String) : r.Distance start start 0 where
  path := .here
  shortest fewer _ := Nat.zero_le fewer

/-! ## §2. Registered names. -/

theorem contains_eq_true : r.contains name = true ↔ ∃ d, r.reflect name = .ok d := by
  unfold contains
  simp only [Dict.contains_iff, reflect_eq_ok]

/-- **A name that cannot be reflected is not registered**, and the failure says so. -/
theorem reflect_eq_error {e : Error} (h : r.reflect name = .error e) :
    e = .typeNotFound (normalize name) ∧ r.contains name = false := by
  constructor
  · unfold reflect at h
    split at h
    next => cases h
    next =>
      cases h
      rfl
  · rw [← Bool.not_eq_true, contains_eq_true]
    rintro ⟨d, hd⟩
    cases hd.symm.trans h

/-- Types are registered under names without separators in front. -/
theorem WellFormed.contains_of_mem_names (hr : r.WellFormed) (h : name ∈ r.names) :
    r.contains name = true := by
  obtain ⟨d, hd⟩ := Dict.mem_keys_iff.1 h
  have hname : normalize name = name := by
    rw [← hr.name_eq hd]
    exact congrArg Descriptor.name (hr.normalized_eq hd)
  rw [contains_eq_true]
  exact ⟨d, reflect_eq_ok.2 (hname.symm ▸ hd)⟩

/-- Names that are referred to are written without separators in front. -/
theorem WellFormed.normalize_of_refersTo (hr : r.WellFormed) (h : r.RefersTo name next) :
    normalize next = next := by
  obtain ⟨d, hd, hnext⟩ := h
  exact hr.normalize_dependency hd hnext

/-- So is every name that is reached from one of that kind. -/
theorem WellFormed.normalize_of_reaches (hr : r.WellFormed) (hstart : normalize start = start)
    (h : r.Reaches start name) : normalize name = name := by
  obtain ⟨count, hpath⟩ := h
  cases hpath with
  | here => exact hstart
  | further _ hlast => exact hr.normalize_of_refersTo hlast

end AnnotationCache.Types.Registry

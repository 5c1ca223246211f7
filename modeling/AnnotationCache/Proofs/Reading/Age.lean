/-
  AnnotationCache.Proofs.Reading.Age
  ──────────────────────────────────
  **WHAT THE AGE OF A CLASS TELLS.**

  A result and the time in its marker need not come from one world.  Let the
  result have been computed in a world `v` and the time taken in a world `w`.
  All that is asked of the present world is that whatever it has and `v` has
  not is younger than everything in `w` (`World.NewSince`).  Then a class that
  is no younger now than that time has none of it in its closure, so the whole
  closure stands in `v` as it stands now, and the class is read as it was there.
-/
import AnnotationCache.Proofs.Reading.World

namespace AnnotationCache.World

open AnnotationCache.Types (Registry Descriptor)

/-- **Is all that is new since a world `v` younger than everything in a world
`w`?**  New is what the present world has and `v` has not. -/
def NewSince (now v w : World) : Prop :=
  ∀ d, now.Has d → ¬ v.Has d → 0 < now.time d ∧ ∀ e, w.Has e → w.time e < now.time d

variable {now v w : World} {className : String} {types : List Descriptor} {current time : Int}

/-- The types of a closure are in the world. -/
theorem has_of_mem_closure (h : w.registry.closure className = .ok types) {d : Descriptor}
    (hd : d ∈ types) : w.Has d :=
  Registry.reflect_of_mem_closure w.wellFormed h hd

/-- **If a class is no younger than it was in `w`, its closure stands in `v`.** -/
theorem NewSince.has_of_le (h : now.NewSince v w)
    (hclosure : now.registry.closure className = .ok types)
    (hcurrent : now.lastModification className = .ok current)
    (htime : w.lastModification className = .ok time) (hle : current ≤ time) :
    ∀ d ∈ types, v.Has d := by
  intro d hd
  apply Classical.byContradiction
  intro hnew
  have hold : now.time d ≤ current := by
    obtain ⟨types', hclosure', hall, -⟩ := bounds_of_lastModification hcurrent
    have hsame : types = types' := Except.ok.inj (hclosure.symm.trans hclosure')
    exact hall d (hsame ▸ hd)
  obtain ⟨hpos, hyounger⟩ := h d (has_of_mem_closure hclosure hd) hnew
  -- The time is the epoch or that of a type in `w`, and both are earlier.
  obtain ⟨there, hclosure', -, hlast⟩ := bounds_of_lastModification htime
  rcases hlast with hepoch | ⟨e, he, hlast⟩
  · omega
  · have hlt : w.time e < now.time d := hyounger e (has_of_mem_closure hclosure' he)
    omega

/-- **A class that is no younger than it was in `w` is read as it was in `v`.** -/
theorem NewSince.truth_eq (h : now.NewSince v w) {t : Target} (ignored : List String)
    (hcurrent : now.lastModification t.className = .ok current)
    (htime : w.lastModification t.className = .ok time) (hle : current ≤ time) :
    now.truth ignored t = (v.declared ignored).read t := by
  obtain ⟨types, hclosure, -, -⟩ := bounds_of_lastModification hcurrent
  have hsame : ∀ d ∈ types, v.registry.reflect d.name = .ok d :=
    h.has_of_le hclosure hcurrent htime hle
  calc now.truth ignored t
      = (now.declared ignored).read t := (now.sources ignored).truth_of_dated hcurrent
    _ = (v.declared ignored).read t :=
        DeclaredReader.read_congr now.wellFormed v.wellFormed hclosure hsame ignored

end AnnotationCache.World

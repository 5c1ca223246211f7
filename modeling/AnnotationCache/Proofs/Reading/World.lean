/-
  AnnotationCache.Proofs.Reading.World
  ────────────────────────────────────
  **THE WORLD THAT IS READ.**

  A world has types, and times at which they were modified, some of which may
  be impossible to read.  It is the source of every read that is made in it:
  `truth` is what a read would give that had no cache.

  Main statements:
    * `ofStore_eq_beside`          — a reader in a world has its sources;
    * `truth_eq_of_ofTarget_eq`    — plain targets with one key are read alike;
    * `bounds_of_lastModification` — the last modification of a class is the
      time of a type in its closure, or the epoch, and no type's is later.
-/
import AnnotationCache.Proofs.Reading.Course
import AnnotationCache.Proofs.Reading.Latest
import AnnotationCache.Reading.Collaborators

namespace AnnotationCache

open AnnotationCache.Types (Registry Descriptor normalize)

/-! ## §1. Spellings. -/

theorem DeclaredReader.read_normalized (r : DeclaredReader) (t : Target) :
    r.read t.normalized = r.read t := by
  cases t with
  | ofClass c =>
      show r.read (.ofClass (normalize c)) = _
      rw [read_ofClass, read_ofClass, Registry.reflect_normalize]
  | ofMethod c m =>
      show r.read (.ofMethod (normalize c) m) = _
      rw [read_ofMethod, read_ofMethod, Registry.findMember_normalize]
  | ofProperty c p =>
      show r.read (.ofProperty (normalize c) p) = _
      rw [read_ofProperty, read_ofProperty, Registry.findMember_normalize]

/-! ## §2. Worlds. -/

/-- **A world**: its types, and when they were modified. -/
structure World where
  registry : Registry
  /-- The types stand under their names. -/
  wellFormed : registry.WellFormed
  /-- When a type was modified. -/
  time : Descriptor → Int
  /-- Why that time cannot be read, if it cannot. -/
  fault : Descriptor → Option Error

namespace World

variable (w : World)

/-- Is a type registered, exactly as it is described? -/
def Has (d : Descriptor) : Prop :=
  w.registry.reflect d.name = .ok d

/-- The clock of the world. -/
def clock {m : Type → Type} [Monad m] : Clock m := fun d =>
  match w.fault d with
  | none => pure (w.time d)
  | some e => throw e

/-- The reader of what is declared in the world. -/
def declared (ignored : List String) : DeclaredReader where
  registry := w.registry
  ignored := ignored

/-- The last modification of a class in the world. -/
def lastModification (className : String) : Except Error Int :=
  (AnnotationCache.lastModification (m := Id) w.registry w.clock className).run

/-- **The sources of reads in the world.** -/
def sources (ignored : List String) : Sources where
  latest := w.lastModification
  compute := (w.declared ignored).read

/-- **What there is to read in the world.** -/
def truth (ignored : List String) (t : Target) : Except Error (List Annotation) :=
  (w.sources ignored).truth t

/-- **A reader in the world**, over a map that keeps every write. -/
def readers (ignored : List String) : Dialogue.Collaborators (StateM MapCache) :=
  .ofStore (MapCache.store MapCache.keepAll) w.clock (w.declared ignored)

/-! ## §3. The clock. -/

variable {w}

/-- The times of the world, as far as they can be read. -/
def source (w : World) (d : Descriptor) : Except Error Int :=
  match w.fault d with
  | none => .ok (w.time d)
  | some e => .error e

/-- The clock of a world is that of its times. -/
theorem clock_eq_ofSource {m : Type → Type} [Monad m] (w : World) :
    w.clock (m := m) = .ofSource w.source := by
  funext d
  unfold clock Clock.ofSource source
  cases w.fault d <;> rfl

theorem lastModification_eq_latest (w : World) (className : String) :
    w.lastModification className = w.registry.latest w.source className := by
  unfold lastModification Registry.latest
  rw [clock_eq_ofSource]

theorem time_of_source {d : Descriptor} {time : Int} (h : w.source d = .ok time) :
    w.time d = time := by
  unfold source at h
  split at h
  next => exact Except.ok.inj h
  next => cases h

section Lawful

variable {m : Type → Type} [Monad m] [LawfulMonad m]

theorem lastModification_clock (w : World) (className : String) :
    AnnotationCache.lastModification (m := m) w.registry w.clock className
      = MonadExcept.ofExcept (w.lastModification className) := by
  rw [clock_eq_ofSource, Registry.lastModification_ofSource, lastModification_eq_latest]

/-- **A reader in a world has its sources**, whatever else it has effects on. -/
theorem ofStore_eq_beside (w : World) (ignored : List String) (store : Store m) :
    Dialogue.Collaborators.ofStore store w.clock (w.declared ignored)
      = (w.sources ignored).beside store := by
  have hlatest : AnnotationCache.lastModification (m := m) w.registry w.clock
      = fun className => MonadExcept.ofExcept (w.lastModification className) := by
    funext className
    exact lastModification_clock w className
  unfold Dialogue.Collaborators.ofStore
  rw [show (w.declared ignored).registry = w.registry from rfl, hlatest]
  rfl

end Lawful

theorem readers_eq_beside (w : World) (ignored : List String) :
    w.readers ignored = (w.sources ignored).beside (MapCache.store MapCache.keepAll) :=
  ofStore_eq_beside w ignored _

/-- **The last modification of a class** is the epoch or the time of a type in
its closure, and it is no earlier than any of these times. -/
theorem bounds_of_lastModification {className : String} {last : Int}
    (h : w.lastModification className = .ok last) :
    ∃ types, w.registry.closure className = .ok types ∧ (∀ d ∈ types, w.time d ≤ last)
      ∧ (last = 0 ∨ ∃ d ∈ types, w.time d = last) := by
  rw [lastModification_eq_latest] at h
  cases hclosure : w.registry.closure className with
  | error e =>
      rw [Registry.latest_of_missing hclosure] at h
      cases h
  | ok types =>
      rw [Registry.latest_of_closure hclosure] at h
      obtain ⟨hmem, hbound⟩ := isGreatest_of_latestOf h
      refine ⟨types, rfl, ?_, hmem.imp_right ?_⟩
      · intro d hd
        obtain ⟨time, htime⟩ := latestOf_ok_iff.1 ⟨last, h⟩ d hd
        rw [time_of_source htime]
        exact hbound (.inr ⟨d, hd, htime⟩)
      · rintro ⟨d, hd, htime⟩
        exact ⟨d, hd, time_of_source htime⟩

/-! ## §4. One target under several spellings. -/

theorem lastModification_normalize (w : World) (className : String) :
    w.lastModification (normalize className) = w.lastModification className := by
  unfold lastModification
  rw [AnnotationCache.lastModification_normalize]

theorem truth_normalized (w : World) (ignored : List String) (t : Target) :
    w.truth ignored t.normalized = w.truth ignored t := by
  unfold truth Sources.truth
  rw [show (w.sources ignored).latest t.normalized.className = _ from
      (congrArg _ t.className_normalized).trans (w.lastModification_normalize t.className),
    show (w.sources ignored).compute t.normalized = _ from
      (w.declared ignored).read_normalized t]
  rfl

theorem truth_eq_of_normalized_eq {t t' : Target} (h : t.normalized = t'.normalized) (w : World)
    (ignored : List String) : w.truth ignored t = w.truth ignored t' := by
  rw [← w.truth_normalized ignored t, h, w.truth_normalized ignored t']

theorem lastModification_eq_of_normalized_eq {t t' : Target} (h : t.normalized = t'.normalized)
    (w : World) : w.lastModification t.className = w.lastModification t'.className := by
  rw [← w.lastModification_normalize t.className, ← t.className_normalized, h,
    t'.className_normalized, w.lastModification_normalize t'.className]

section OneKey

variable {t t' : Target} (ht : t.Plain) (ht' : t'.Plain)
  (hkey : CacheKey.ofTarget t = CacheKey.ofTarget t')

include ht ht' hkey

/-- **Plain targets with one key have one truth.** -/
theorem truth_eq_of_ofTarget_eq (w : World) (ignored : List String) :
    w.truth ignored t = w.truth ignored t' :=
  truth_eq_of_normalized_eq (CacheKey.normalized_eq_of_ofTarget_eq ht ht' hkey) w ignored

/-- Plain targets with one key are of one age. -/
theorem lastModification_eq_of_ofTarget_eq (w : World) :
    w.lastModification t.className = w.lastModification t'.className :=
  lastModification_eq_of_normalized_eq (CacheKey.normalized_eq_of_ofTarget_eq ht ht' hkey) w

end OneKey

end World

end AnnotationCache

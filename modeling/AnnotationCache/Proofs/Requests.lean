/-
  AnnotationCache.Proofs.Requests
  ───────────────────────────────
  **REQUESTS ON A STATE, AND WHAT COMES OF THEM.**

  A request on a state either answers or fails, and leaves a state.  What is
  built from requests is run by replacing each of them with what comes of it;
  these are the equations to do that with.
-/
import AnnotationCache.Files.Disk
import AnnotationCache.Store.Access

namespace AnnotationCache

variable {ε ε' σ α β : Type}

section Sequence

variable {x : ExceptT ε (StateM σ) α} {f : α → ExceptT ε (StateM σ) β} {state state' : σ}

/-- A request that is answered is followed by what is done with the answer. -/
theorem run_bind_ok {a : α} (h : x.run.run state = (.ok a, state')) :
    (x >>= f).run.run state = (f a).run.run state' := by
  rw [ExceptT.run_bind, StateT.run_bind, h]
  rfl

/-- A request that fails is followed by nothing. -/
theorem run_bind_error {e : ε} (h : x.run.run state = (.error e, state')) :
    (x >>= f).run.run state = (.error e, state') := by
  rw [ExceptT.run_bind, StateT.run_bind, h]
  rfl

/-- **A sequence that is answered** is one whose parts are. -/
theorem run_bind_eq_ok {b : β} (h : (x >>= f).run.run state = (.ok b, state')) :
    ∃ a mid, x.run.run state = (.ok a, mid) ∧ (f a).run.run mid = (.ok b, state') := by
  cases hx : x.run.run state with
  | mk answer mid =>
      cases answer with
      | ok a =>
          rw [run_bind_ok hx] at h
          exact ⟨a, mid, rfl, h⟩
      | error e =>
          rw [run_bind_error hx] at h
          cases h

end Sequence

section NoRequest

variable {state : σ}

/-- **What is known already changes nothing**, and fails if it is a failure. -/
theorem run_ofExcept_eq_ok {known : Except ε α} {f : ε → ε'} {a : α} {state' : σ} :
    (MonadExcept.ofExcept (known.mapError f) : ExceptT ε' (StateM σ) α).run.run state = (.ok a, state')
      ↔ known = .ok a ∧ state' = state := by
  cases known with
  | ok b =>
      show ((.ok b : Except ε' α), state) = (.ok a, state') ↔ _
      simp [eq_comm]
  | error e =>
      show ((.error (f e) : Except ε' α), state) = (.ok a, state') ↔ _
      simp

/-- A request that cannot fail is answered. -/
theorem run_lift {x : StateM σ α} {a : α} {state' : σ} (h : x.run state = (a, state')) :
    (ExceptT.lift x : ExceptT ε (StateM σ) α).run.run state = (.ok a, state') := by
  show StateT.run (Except.ok <$> x) state = _
  rw [StateT.run_map, h]
  rfl

end NoRequest

section Failure

variable {x : ExceptT ε (StateM σ) α} {state state' : σ} {result : Except ε α}

/-- A failure may be put in other words. -/
theorem run_adapt (f : ε → ε') (h : x.run.run state = (result, state')) :
    (x.adapt f).run.run state = (result.mapError f, state') := by
  unfold ExceptT.adapt
  rw [ExceptT.run_mk, StateT.run_map, show StateT.run x state = (result, state') from h]
  rfl

/-- Where none occurs that makes no difference. -/
theorem run_adapt_ok (f : ε → ε') {a : α} (h : x.run.run state = (.ok a, state')) :
    (x.adapt f).run.run state = (.ok a, state') :=
  run_adapt f h

/-- An answer may be changed. -/
theorem run_map (g : α → β) (h : x.run.run state = (result, state')) :
    (g <$> x).run.run state = (result.map g, state') := by
  rw [ExceptT.run_map, StateT.run_map, h]
  rfl

end Failure

/-! ## Parts of a state. -/

section Parts

variable {τ : Type} (get : τ → σ) (put : σ → τ → τ)

/-- A request on a part of a state, as one on the whole. -/
def onPart (x : StateM σ α) : StateM τ α := fun whole =>
  let (a, part) := x (get whole)
  (a, put part whole)

end Parts

end AnnotationCache

/-
  AnnotationCache.Proofs.Reading.Calls
  ────────────────────────────────────
  **WHOM A READ TURNS TO.**

  Collaborators can be listened to: `noting` answers as they do and writes down
  every call.  What a read answers and what it leaves behind is the same, and
  beside it there is the list of all that was asked.

  Main statements:
    * `read_noting`           — a read that is listened to is the same read;
    * `read_noting_of_stored` — where nobody checks, a result on record takes one
      look-up.
-/
import AnnotationCache.Proofs.Reading.Course
import AnnotationCache.Proofs.Requests

namespace AnnotationCache

variable {σ α β : Type}

/-! ## §1. Listening. -/

/-- What a collaborator is called for. -/
inductive Call where
  | get (key : String)
  | set (key : String) (value : CacheValue)
  | latest (className : String)
  | compute (t : Target)

/-- An answer, and the call for it written down. -/
def noted (call : Call) (x : ExceptT Error (StateM σ) α) :
    ExceptT Error (StateM (σ × List Call)) α :=
  ExceptT.mk fun (state, calls) =>
    ((x.run.run state).1, (x.run.run state).2, calls ++ [call])

/-- **Collaborators that are listened to.** -/
def Dialogue.Collaborators.noting (c : Collaborators (StateM σ)) :
    Collaborators (StateM (σ × List Call)) where
  get key := noted (.get key) (c.get key)
  set key value := noted (.set key value) (c.set key value)
  latest className := noted (.latest className) (c.latest className)
  compute t := noted (.compute t) (c.compute t)

/-! ## §2. The same conversation. -/

/-- **Does the second request do what the first one does**, and only write down
calls besides? -/
def Echoes (x : ExceptT Error (StateM σ) α) (y : ExceptT Error (StateM (σ × List Call)) α) :
    Prop :=
  ∀ state calls, ∃ made, y.run.run (state, calls)
    = ((x.run.run state).1, (x.run.run state).2, calls ++ made)

/-- An answer that was written down may be followed by requests that echo. -/
theorem echoes_noted_bind (call : Call) (x : ExceptT Error (StateM σ) α)
    {f : α → ExceptT Error (StateM σ) β} {g : α → ExceptT Error (StateM (σ × List Call)) β}
    (h : ∀ a, Echoes (f a) (g a)) : Echoes (x >>= f) (noted call x >>= g) := by
  intro state calls
  have hnoted : (noted call x).run.run (state, calls)
      = ((x.run.run state).1, (x.run.run state).2, calls ++ [call]) := rfl
  cases hx : x.run.run state with
  | mk answer after =>
      rw [hx] at hnoted
      cases answer with
      | ok a =>
          obtain ⟨made, hmade⟩ := h a after (calls ++ [call])
          refine ⟨call :: made, ?_⟩
          rw [run_bind_ok hnoted, run_bind_ok hx, hmade, List.append_assoc]
          rfl
      | error e =>
          exact ⟨[call], by rw [run_bind_error hnoted, run_bind_error hx]⟩

/-- **A conversation that is listened to is the same conversation.** -/
theorem echoes_run (c : Dialogue.Collaborators (StateM σ)) (dialogue : Dialogue) :
    Echoes (dialogue.run c) (dialogue.run c.noting) := by
  induction dialogue with
  | done list => exact fun state calls => ⟨[], by rw [List.append_nil]; rfl⟩
  | get key next ih => exact echoes_noted_bind (.get key) (c.get key) ih
  | latest className next ih => exact echoes_noted_bind (.latest className) (c.latest className) ih
  | compute t next ih => exact echoes_noted_bind (.compute t) (c.compute t) ih
  | set key value next ih => exact echoes_noted_bind (.set key value) (c.set key value) ih

/-! ## §3. The same read. -/

namespace CachedReader

variable {r : CachedReader} {t : Target}

/-- **A read that is listened to is the same read.** -/
theorem read_noting (c : Dialogue.Collaborators (StateM σ)) (r : CachedReader) (t : Target)
    (state : σ) (calls : List Call) :
    ∃ made, (r.read c.noting t).run (state, calls)
      = (((r.read c t).run state).1, ((r.read c t).run state).2, calls ++ made) := by
  cases hloaded : r.loaded.get? (CacheKey.ofTarget t).text with
  | some list =>
      refine ⟨[], ?_⟩
      rw [read_of_remembered hloaded, read_of_remembered hloaded, List.append_nil]
  | none =>
      obtain ⟨made, hmade⟩ := echoes_run c (Dialogue.cachedRead r.checking t) state calls
      cases hrun : ((Dialogue.cachedRead r.checking t).run c).run.run state with
      | mk result after =>
          rw [hrun] at hmade
          refine ⟨made, ?_⟩
          rw [read_of_forgotten hloaded hmade, read_of_forgotten hloaded hrun]

/-- **Where nobody checks, a result on record takes one look-up**, of itself. -/
theorem read_noting_of_stored {s : Sources} {accepts : MapCache.Rule} {entries : MapCache}
    {list : List Annotation} (hunchecked : r.checking = false)
    (hforgotten : r.loaded.get? (CacheKey.ofTarget t).text = none)
    (hstored : entries.get? (CacheKey.ofTarget t).text = some (.annotations list))
    (calls : List Call) :
    (r.read (s.beside (MapCache.store accepts)).noting t).run (entries, calls)
      = ((.ok list, r.remember t (.ok list)), entries,
          calls ++ [.get (CacheKey.ofTarget t).text]) := by
  have hget : ((s.beside (MapCache.store accepts)).noting.get (CacheKey.ofTarget t).text).run.run
      (entries, calls)
        = (.ok (some (.annotations list)), entries, calls ++ [.get (CacheKey.ofTarget t).text]) := by
    rw [← hstored]
    rfl
  apply read_of_forgotten hforgotten
  rw [hunchecked, Dialogue.cachedRead, Dialogue.run, run_bind_ok hget]
  rfl

end CachedReader

end AnnotationCache

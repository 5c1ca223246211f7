/-
  AnnotationCache.Proofs.Reading.Course
  ─────────────────────────────────────
  **THE COURSES THAT A READ CAN TAKE.**

  While a read lasts, the times and the underlying reader stand still; they are
  the read's `Sources`.  Over a cache that is a map, a read then takes one of
  five courses: a result on record is trusted, or verified, or the class cannot
  be dated, or its annotations cannot be computed, or the record is refreshed.
  `Course` says for each of them when it is taken, what the read answers and
  what it leaves on record; every statement about reads below starts from it.

  Main statements:
    * `course_cachedRead`      — a conversation takes one of the courses;
    * `read_of_remembered`     — a reader that remembers a result asks nobody;
    * `course_of_forgotten`    — one that does not takes one of the courses.
-/
import AnnotationCache.Proofs.Store.Recorded
import AnnotationCache.Reading.Cached

namespace AnnotationCache

open MapCache (Rule)

/-! ## §1. Sources. -/

/-- The times and the underlying reader, as they stand during a read. -/
structure Sources where
  latest : String → Except Error Int
  compute : Target → Except Error (List Annotation)

namespace Sources

/-- The sources as collaborators of a reader, next to a cache. -/
def beside {m : Type → Type} [Monad m] (s : Sources) (store : Store m) :
    Dialogue.Collaborators m where
  toStore := store
  latest className := MonadExcept.ofExcept (s.latest className)
  compute target := MonadExcept.ofExcept (s.compute target)

@[simp] theorem latest_beside {m : Type → Type} [Monad m] (s : Sources) (store : Store m)
    (className : String) :
    (s.beside store).latest className = MonadExcept.ofExcept (s.latest className) := rfl

@[simp] theorem compute_beside {m : Type → Type} [Monad m] (s : Sources) (store : Store m)
    (t : Target) : (s.beside store).compute t = MonadExcept.ofExcept (s.compute t) := rfl

/-- **What there is to read**: the annotations of a target, if its class can be
dated. -/
def truth (s : Sources) (t : Target) : Except Error (List Annotation) :=
  match s.latest t.className with
  | .ok _ => s.compute t
  | .error e => .error e

variable (s : Sources)

theorem truth_of_dated {t : Target} {current : Int} (h : s.latest t.className = .ok current) :
    s.truth t = s.compute t := by
  unfold truth
  rw [h]

theorem truth_of_undated {t : Target} {e : Error} (h : s.latest t.className = .error e) :
    s.truth t = .error e := by
  unfold truth
  rw [h]

/-! ## §2. Conversations over a map. -/

/-- A conversation over a map: how it ends, and the map afterwards. -/
def converse (accepts : Rule) (dialogue : Dialogue) (entries : MapCache) :
    Except Error (List Annotation) × MapCache :=
  (dialogue.run (s.beside (MapCache.store accepts))).run entries

variable {s} {accepts : Rule} {entries : MapCache}

theorem converse_done (list : List Annotation) :
    s.converse accepts (.done list) entries = (.ok list, entries) := rfl

theorem converse_get (key : String) (next : Option CacheValue → Dialogue) :
    s.converse accepts (.get key next) entries
      = s.converse accepts (next (entries.get? key)) entries := rfl

theorem converse_latest_ok {className : String} {current : Int}
    (h : s.latest className = .ok current) (next : Int → Dialogue) :
    s.converse accepts (.latest className next) entries
      = s.converse accepts (next current) entries := by
  unfold converse
  rw [Dialogue.run, latest_beside, h]
  rfl

theorem converse_latest_error {className : String} {e : Error}
    (h : s.latest className = .error e) (next : Int → Dialogue) :
    s.converse accepts (.latest className next) entries = (.error e, entries) := by
  unfold converse
  rw [Dialogue.run, latest_beside, h]
  rfl

theorem converse_compute_ok {t : Target} {list : List Annotation} (h : s.compute t = .ok list)
    (next : List Annotation → Dialogue) :
    s.converse accepts (.compute t next) entries = s.converse accepts (next list) entries := by
  unfold converse
  rw [Dialogue.run, compute_beside, h]
  rfl

theorem converse_compute_error {t : Target} {e : Error} (h : s.compute t = .error e)
    (next : List Annotation → Dialogue) :
    s.converse accepts (.compute t next) entries = (.error e, entries) := by
  unfold converse
  rw [Dialogue.run, compute_beside, h]
  rfl

theorem converse_set (key : String) (value : CacheValue) (next : Bool → Dialogue) :
    s.converse accepts (.set key value next) entries
      = s.converse accepts (next (accepts key value)) (entries.write accepts key value) := by
  unfold converse
  rw [Dialogue.run, show (s.beside (MapCache.store accepts)).set key value = _ from
    MapCache.store_set accepts key value]
  rfl

/-! ## §3. The five courses. -/

/-- Nothing that is on record for a target counts at a time: there is no result,
or it is checked and has no marker that is recent enough. -/
def Outdated (checking : Bool) (t : Target) (entries : MapCache) (current : Int) : Prop :=
  ∀ old, entries.result? t = some old →
    checking = true ∧ ∀ time, entries.marker? t = some time → time < current

/-- **The courses of a read**, each with what it answers and the map it leaves. -/
inductive Course (s : Sources) (accepts : Rule) (checking : Bool) (t : Target)
    (entries : MapCache) : Except Error (List Annotation) × MapCache → Prop
  /-- Nobody checks, so the result on record counts. -/
  | trusted {list : List Annotation} (unchecked : checking = false)
      (stored : entries.result? t = some list) :
      Course s accepts checking t entries (.ok list, entries)
  /-- The result on record counts because its marker is no older than the class. -/
  | verified {list : List Annotation} {current time : Int} (checked : checking = true)
      (stored : entries.result? t = some list) (dated : s.latest t.className = .ok current)
      (marked : entries.marker? t = some time) (recent : current ≤ time) :
      Course s accepts checking t entries (.ok list, entries)
  /-- The class is asked for its time, and it has none. -/
  | undated {e : Error} (unsettled : ∀ old, entries.result? t = some old → checking = true)
      (failed : s.latest t.className = .error e) :
      Course s accepts checking t entries (.error e, entries)
  /-- No result on record counts, and none can be computed. -/
  | uncomputed {current : Int} {e : Error} (dated : s.latest t.className = .ok current)
      (failed : s.compute t = .error e) (outdated : Outdated checking t entries current) :
      Course s accepts checking t entries (.error e, entries)
  /-- No result on record counts; the one computed is put there. -/
  | refreshed {current : Int} {list : List Annotation} (dated : s.latest t.className = .ok current)
      (computed : s.compute t = .ok list) (outdated : Outdated checking t entries current) :
      Course s accepts checking t entries (.ok list, entries.recorded accepts t list current)

/-- A marker vouches for a result if it has a time that is no earlier. -/
theorem vouches_iff {entries : MapCache} {t : Target} {current : Int} :
    Dialogue.vouches (entries.get? (CacheKey.ofTarget t).marker) current = true
      ↔ ∃ time, entries.marker? t = some time ∧ current ≤ time := by
  unfold Dialogue.vouches MapCache.marker?
  cases (entries.get? (CacheKey.ofTarget t).marker).bind CacheValue.asTimestamp with
  | none => simp
  | some time => simp

/-- A result whose marker does not vouch for it does not count where it is checked. -/
theorem outdated_of_not_vouches {entries : MapCache} {t : Target} {current : Int}
    (h : ¬ Dialogue.vouches (entries.get? (CacheKey.ofTarget t).marker) current = true) :
    Outdated true t entries current := by
  intro old _
  refine ⟨rfl, ?_⟩
  intro time hmarked
  have hnot : ¬ current ≤ time := fun hle => h (vouches_iff.2 ⟨time, hmarked, hle⟩)
  omega

/-- Computing a result and putting it on record. -/
theorem course_refresh {checking : Bool} {t : Target} {current : Int}
    (dated : s.latest t.className = .ok current)
    (outdated : Outdated checking t entries current) :
    Course s accepts checking t entries (s.converse accepts (Dialogue.refresh t current) entries) := by
  unfold Dialogue.refresh
  cases hcompute : s.compute t with
  | error e =>
      rw [converse_compute_error hcompute]
      exact .uncomputed dated hcompute outdated
  | ok list =>
      rw [converse_compute_ok hcompute, converse_set, converse_set, converse_done]
      exact .refreshed dated hcompute outdated

/-- Asking whether the result on record is recent enough, and computing it again
if it is not. -/
theorem course_verify {t : Target} {list : List Annotation}
    (stored : entries.result? t = some list) :
    Course s accepts true t entries (s.converse accepts (.latest t.className fun current =>
      if Dialogue.vouches (entries.get? (CacheKey.ofTarget t).marker) current then .done list
      else Dialogue.refresh t current) entries) := by
  cases hlatest : s.latest t.className with
  | error e =>
      rw [converse_latest_error hlatest]
      exact .undated (fun _ _ => rfl) hlatest
  | ok current =>
      rw [converse_latest_ok hlatest]
      by_cases hvouches : Dialogue.vouches (entries.get? (CacheKey.ofTarget t).marker) current
      · obtain ⟨time, hmarked, hrecent⟩ := vouches_iff.1 hvouches
        rw [if_pos hvouches]
        exact .verified rfl stored hlatest hmarked hrecent
      · rw [if_neg hvouches]
        exact course_refresh hlatest (outdated_of_not_vouches hvouches)

/-- **A conversation takes one of the courses.** -/
theorem course_cachedRead (checking : Bool) (t : Target) :
    Course s accepts checking t entries
      (s.converse accepts (Dialogue.cachedRead checking t) entries) := by
  unfold Dialogue.cachedRead
  rw [converse_get]
  -- A value that is no list is passed over, as if there were none.
  cases hstored : entries.result? t with
  | none =>
      rw [show (entries.get? (CacheKey.ofTarget t).text).bind _ = none from hstored]
      have hnone : ∀ old, entries.result? t ≠ some old := by
        intro old hold
        cases hstored.symm.trans hold
      cases hlatest : s.latest t.className with
      | error e =>
          rw [converse_latest_error hlatest]
          exact .undated (fun old hold => absurd hold (hnone old)) hlatest
      | ok current =>
          rw [converse_latest_ok hlatest]
          exact course_refresh hlatest fun old hold => absurd hold (hnone old)
  | some list =>
      rw [show (entries.get? (CacheKey.ofTarget t).text).bind _ = some list from hstored]
      cases checking with
      | false => exact .trusted rfl hstored
      | true =>
          show Course s accepts true t entries (s.converse accepts (.get _ _) entries)
          rw [converse_get]
          exact course_verify hstored

/-- **A read answers what there is to read** if what is on record is that, at
least where it counts: where nobody checks, or where the marker is recent
enough. -/
theorem Course.eq_truth {checking : Bool} {t : Target} {result : Except Error (List Annotation)}
    {after : MapCache} (h : Course s accepts checking t entries (result, after))
    (htrue : ∀ list, entries.result? t = some list →
      (checking = true → ∃ current time, s.latest t.className = .ok current
        ∧ entries.marker? t = some time ∧ current ≤ time) → s.truth t = .ok list) :
    result = s.truth t := by
  cases h with
  | trusted unchecked stored =>
      refine (htrue _ stored fun checked => ?_).symm
      cases unchecked.symm.trans checked
  | verified _ stored dated marked recent =>
      exact (htrue _ stored fun _ => ⟨_, _, dated, marked, recent⟩).symm
  | undated _ failed => exact (s.truth_of_undated failed).symm
  | uncomputed dated failed => exact ((s.truth_of_dated dated).trans failed).symm
  | refreshed dated computed => exact ((s.truth_of_dated dated).trans computed).symm

/-- **A pair on record after a read was there before**, or the read has computed
and dated it. -/
theorem Course.record? {checking : Bool} {t t' : Target}
    {result : Except Error (List Annotation)} {after : MapCache}
    (h : Course s MapCache.keepAll checking t entries (result, after))
    {list : List Annotation} {time : Int} (hafter : after.record? t' = some (list, time)) :
    entries.record? t' = some (list, time)
      ∨ (CacheKey.ofTarget t' = CacheKey.ofTarget t
          ∧ s.latest t.className = .ok time ∧ s.truth t = .ok list) := by
  cases h with
  | trusted | verified | undated | uncomputed => exact .inl hafter
  | refreshed dated computed =>
      rcases MapCache.record?_recorded hafter with ⟨hkey, hpair⟩ | hbefore
      · obtain ⟨rfl, rfl⟩ := Prod.mk.inj hpair
        exact .inr ⟨hkey, dated, (s.truth_of_dated dated).trans computed⟩
      · exact .inl hbefore

end Sources

/-! ## §4. Readers with a memo. -/

namespace CachedReader

open Sources

variable {s : Sources} {accepts : Rule} {entries : MapCache} {r : CachedReader} {t : Target}

/-- A result that was returned is remembered; a failure is not. -/
def remember (r : CachedReader) (t : Target) : Except Error (List Annotation) → CachedReader
  | .ok list => { r with loaded := r.loaded.insert (CacheKey.ofTarget t).text list }
  | .error _ => r

/-- A list in a memo is the one that was just returned, or was there before. -/
theorem loaded_remember {result : Except Error (List Annotation)} {key : String}
    {list : List Annotation} (h : (r.remember t result).loaded.get? key = some list) :
    (key = (CacheKey.ofTarget t).text ∧ result = .ok list) ∨ r.loaded.get? key = some list := by
  cases result with
  | error e => exact .inr h
  | ok returned =>
      have hinsert : (r.loaded.insert (CacheKey.ofTarget t).text returned).get? key = some list := h
      rw [Dict.get?_insert] at hinsert
      split at hinsert
      next hkey => exact .inl ⟨hkey, congrArg Except.ok (Option.some.inj hinsert)⟩
      next => exact .inr hinsert

section Read

variable {σ : Type} {c : Dialogue.Collaborators (StateM σ)} {state after : σ}

/-- A reader that remembers a result asks nobody. -/
theorem read_of_remembered {list : List Annotation}
    (h : r.loaded.get? (CacheKey.ofTarget t).text = some list) :
    (r.read c t).run state = ((.ok list, r), state) := by
  unfold CachedReader.read
  simp only [h]
  rfl

/-- A reader that remembers none has a conversation, and remembers its result. -/
theorem read_of_forgotten {result : Except Error (List Annotation)}
    (h : r.loaded.get? (CacheKey.ofTarget t).text = none)
    (hrun : ((Dialogue.cachedRead r.checking t).run c).run.run state = (result, after)) :
    (r.read c t).run state = ((result, r.remember t result), after) := by
  unfold CachedReader.read
  simp only [h]
  rw [StateT.run_bind, hrun]
  cases result with
  | ok list => rfl
  | error e => rfl

end Read

/-- **A reader that remembers no result of a target takes one of the courses.** -/
theorem course_of_forgotten (accepts : Rule) (s : Sources) (entries : MapCache)
    (h : r.loaded.get? (CacheKey.ofTarget t).text = none) :
    ∃ result after, Course s accepts r.checking t entries (result, after)
      ∧ (r.read (s.beside (MapCache.store accepts)) t).run entries
          = ((result, r.remember t result), after) :=
  ⟨_, _, course_cachedRead r.checking t, read_of_forgotten h rfl⟩

/-- A reader that has returned nothing yet. -/
def opened (checking : Bool) : CachedReader :=
  { checking := checking }

theorem course_opened (accepts : Rule) (s : Sources) (checking : Bool) (entries : MapCache)
    (t : Target) :
    ∃ result after, Course s accepts checking t entries (result, after)
      ∧ ((opened checking).read (s.beside (MapCache.store accepts)) t).run entries
          = ((result, (opened checking).remember t result), after) :=
  course_of_forgotten (r := opened checking) accepts s entries rfl

end CachedReader

end AnnotationCache

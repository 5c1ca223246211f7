/-
  AnnotationCache.Proofs.Reading.Refinement
  ─────────────────────────────────────────
  **COLLABORATORS THAT PLAY A MAP.**

  Readers are reasoned about over a map, with sources that stand still.  What
  they really talk to has a state of its own: entries that may expire, files
  in a folder, times that are looked up on a disk.  `Plays` says when such a
  state is as good as a map: a relation between the two that every answer
  keeps.  It need not hold for all keys and values, only for those that a
  conversation can come up with (`Dialogue.Within`).

  Main statements:
    * `Plays.run_eq`  — a conversation ends alike on both sides;
    * `Plays.read_eq` — and so does the read of a reader.
-/
import AnnotationCache.Proofs.Reading.Course
import AnnotationCache.Proofs.Requests

namespace AnnotationCache

variable {σ : Type}

/-! ## §1. Conversations within bounds. -/

/-- **Does a conversation only use keys and values of a sort**, as long as its
sources answer it? -/
inductive Dialogue.Within (s : Sources) (keys : String → Prop) (values : CacheValue → Prop) :
    Dialogue → Prop
  | done (result : List Annotation) : Within s keys values (.done result)
  | get {key : String} {next : Option CacheValue → Dialogue} (hkey : keys key)
      (hnext : ∀ stored, Within s keys values (next stored)) : Within s keys values (.get key next)
  | latest {className : String} {next : Int → Dialogue}
      (hnext : ∀ current, s.latest className = .ok current → Within s keys values (next current)) :
      Within s keys values (.latest className next)
  | compute {t : Target} {next : List Annotation → Dialogue}
      (hnext : ∀ list, s.compute t = .ok list → Within s keys values (next list)) :
      Within s keys values (.compute t next)
  | set {key : String} {value : CacheValue} {next : Bool → Dialogue} (hkey : keys key)
      (hvalue : values value) (hnext : ∀ accepted, Within s keys values (next accepted)) :
      Within s keys values (.set key value next)

/-- **What a read of a target may use**: its two keys, the time of its class and
its annotations. -/
structure Sources.Uses (s : Sources) (keys : String → Prop) (values : CacheValue → Prop)
    (t : Target) : Prop where
  text : keys (CacheKey.ofTarget t).text
  marker : keys (CacheKey.ofTarget t).marker
  dated : ∀ current, s.latest t.className = .ok current → values (.timestamp current)
  computed : ∀ list, s.compute t = .ok list → values (.annotations list)

section Within

variable {s : Sources} {keys : String → Prop} {values : CacheValue → Prop} {t : Target}

theorem Sources.Uses.within_refresh (h : s.Uses keys values t) {current : Int}
    (hcurrent : s.latest t.className = .ok current) :
    (Dialogue.refresh t current).Within s keys values := by
  unfold Dialogue.refresh
  refine .compute fun list hlist => ?_
  refine .set h.text (h.computed list hlist) fun _ => ?_
  exact .set h.marker (h.dated current hcurrent) fun _ => .done list

/-- **A read stays within what it may use.** -/
theorem Sources.Uses.within_cachedRead (h : s.Uses keys values t) (checking : Bool) :
    (Dialogue.cachedRead checking t).Within s keys values := by
  unfold Dialogue.cachedRead
  refine .get h.text fun stored => ?_
  cases stored.bind CacheValue.asAnnotations with
  | none => exact .latest fun current hcurrent => h.within_refresh hcurrent
  | some list =>
      cases checking with
      | false => exact .done list
      | true =>
          refine .get h.marker fun marker => ?_
          refine .latest fun current hcurrent => ?_
          show Dialogue.Within s keys values (if _ then _ else _)
          split
          · exact .done list
          · exact h.within_refresh hcurrent

end Within

/-! ## §2. Playing a map. -/

/-- **Do collaborators with a state play some sources and a map?**  Under a
relation of states to maps, which every answer keeps, each answer is the one
of the sources or of the map that keeps every write. -/
structure Plays (c : Dialogue.Collaborators (StateM σ)) (s : Sources)
    (R : σ → MapCache → Prop) (keys : String → Prop) (values : CacheValue → Prop) : Prop where
  get : ∀ state entries, R state entries → ∀ key, keys key →
    ∃ state', (c.get key).run.run state = (.ok (entries.get? key), state') ∧ R state' entries
  set : ∀ state entries, R state entries → ∀ key value, keys key → values value →
    ∃ state', (c.set key value).run.run state = (.ok true, state')
      ∧ R state' (entries.insert key value)
  latest : ∀ state entries, R state entries → ∀ className,
    ∃ state', (c.latest className).run.run state = (s.latest className, state') ∧ R state' entries
  compute : ∀ state entries, R state entries → ∀ t,
    ∃ state', (c.compute t).run.run state = (s.compute t, state') ∧ R state' entries

namespace Plays

variable {c : Dialogue.Collaborators (StateM σ)} {s : Sources} {R : σ → MapCache → Prop}
  {keys : String → Prop} {values : CacheValue → Prop}

/-- **A conversation ends alike on both sides**, and the states are related
afterwards. -/
theorem run_eq (h : Plays c s R keys values) {dialogue : Dialogue}
    (hwithin : dialogue.Within s keys values) : ∀ {state : σ} {entries : MapCache},
      R state entries →
        ∃ state', (dialogue.run c).run.run state
            = ((s.converse MapCache.keepAll dialogue entries).1, state')
          ∧ R state' (s.converse MapCache.keepAll dialogue entries).2 := by
  -- Over the conversation itself the induction would not know which answers can come.
  induction hwithin with
  | done result => exact fun {state _} hR => ⟨state, rfl, hR⟩
  | @get key next hkey _ ih =>
      intro state entries hR
      obtain ⟨mid, hrun, hmid⟩ := h.get state entries hR key hkey
      rw [Dialogue.run, run_bind_ok hrun, Sources.converse_get]
      exact ih _ hmid
  | @latest className next _ ih =>
      intro state entries hR
      obtain ⟨mid, hrun, hmid⟩ := h.latest state entries hR className
      rw [Dialogue.run]
      cases hlatest : s.latest className with
      | ok current =>
          rw [run_bind_ok (hrun.trans (by rw [hlatest])), Sources.converse_latest_ok hlatest]
          exact ih current hlatest hmid
      | error e =>
          rw [run_bind_error (hrun.trans (by rw [hlatest])), Sources.converse_latest_error hlatest]
          exact ⟨mid, rfl, hmid⟩
  | @compute t next _ ih =>
      intro state entries hR
      obtain ⟨mid, hrun, hmid⟩ := h.compute state entries hR t
      rw [Dialogue.run]
      cases hcompute : s.compute t with
      | ok list =>
          rw [run_bind_ok (hrun.trans (by rw [hcompute])), Sources.converse_compute_ok hcompute]
          exact ih list hcompute hmid
      | error e =>
          rw [run_bind_error (hrun.trans (by rw [hcompute])),
            Sources.converse_compute_error hcompute]
          exact ⟨mid, rfl, hmid⟩
  | @set key value next hkey hvalue _ ih =>
      intro state entries hR
      obtain ⟨mid, hrun, hmid⟩ := h.set state entries hR key value hkey hvalue
      rw [Dialogue.run, run_bind_ok hrun, Sources.converse_set]
      exact ih true hmid

/-- **A read ends alike on both sides.** -/
theorem read_eq (h : Plays c s R keys values) {t : Target} (huses : s.Uses keys values t)
    (r : CachedReader) {state : σ} {entries : MapCache} (hR : R state entries) :
    ∃ state', (r.read c t).run state
        = (((r.read (s.beside (MapCache.store MapCache.keepAll)) t).run entries).1, state')
      ∧ R state' ((r.read (s.beside (MapCache.store MapCache.keepAll)) t).run entries).2 := by
  cases hloaded : r.loaded.get? (CacheKey.ofTarget t).text with
  | some list =>
      rw [CachedReader.read_of_remembered hloaded, CachedReader.read_of_remembered hloaded]
      exact ⟨state, rfl, hR⟩
  | none =>
      obtain ⟨state', hrun, hafter⟩ := h.run_eq (huses.within_cachedRead r.checking) hR
      cases hconverse : s.converse MapCache.keepAll (Dialogue.cachedRead r.checking t) entries with
      | mk result after =>
          rw [hconverse] at hrun hafter
          rw [CachedReader.read_of_forgotten hloaded hrun,
            CachedReader.read_of_forgotten hloaded hconverse]
          exact ⟨state', rfl, hafter⟩

end Plays

end AnnotationCache

/-
  AnnotationCache.Proofs.Reading.Answered
  ───────────────────────────────────────
  **READS OF ONE RESULT, AGAIN AND AGAIN.**

  While the files of the types stand still, one target has one result and one time.
  A cache that only such reads have written to can say of the target nothing else:
  it has the result or it has none, and what it has for a marker matters little,
  because what is computed again is the same.

  This holds even if the two keys of the target have one digest and share an entry,
  so nothing is assumed of digests.

  Main statements:
    * `Answers.read`          — a read that finds its result, or nothing, gives it;
    * `run_lastModification_of_times`, `latestTime_bounds` — the time of a class,
      from the times of its types;
    * `FolderCache.Rereads.read` — a read through a cache on disk.
-/
import AnnotationCache.Proofs.Reading.LiveFiles
import AnnotationCache.Proofs.Store.History

namespace AnnotationCache

open AnnotationCache.Files (Disk Location)
open AnnotationCache.Types (Descriptor)

variable {σ : Type}

/-! ## §1. Answers that agree. -/

/-- **Do all who are asked agree on a result and a time of a target?**  Before the read
the cache has the result or none; after it, it has been told the result and the time. -/
structure Answers (c : Dialogue.Collaborators (StateM σ)) (before after : σ → Prop) (t : Target)
    (list : List Annotation) (current : Int) : Prop where
  text : ∀ state, before state → ∃ stored,
    (c.get (CacheKey.ofTarget t).text).run.run state = (.ok stored, state)
      ∧ (stored = none ∨ stored = some (.annotations list) ∧ after state)
  marker : ∀ state, before state → ∃ stored,
    (c.get (CacheKey.ofTarget t).marker).run.run state = (.ok stored, state)
  latest : ∀ state, before state → (c.latest t.className).run.run state = (.ok current, state)
  compute : ∀ state, before state → (c.compute t).run.run state = (.ok list, state)
  setText : ∀ state, before state → ∃ accepted state',
    (c.set (CacheKey.ofTarget t).text (.annotations list)).run.run state = (.ok accepted, state')
      ∧ before state'
  setMarker : ∀ state, before state → ∃ accepted state',
    (c.set (CacheKey.ofTarget t).marker (.timestamp current)).run.run state
      = (.ok accepted, state') ∧ after state'

namespace Answers

variable {c : Dialogue.Collaborators (StateM σ)} {before after : σ → Prop} {t : Target}
  {list : List Annotation} {current : Int} {state : σ}

/-- Computing the result again gives it, and tells the cache. -/
theorem run_refresh (h : Answers c before after t list current) (hstate : before state) :
    ∃ state', ((Dialogue.refresh t current).run c).run.run state = (.ok list, state')
      ∧ after state' := by
  obtain ⟨accepted, mid, htext, hmid⟩ := h.setText state hstate
  obtain ⟨accepted', state', hmarker, hafter⟩ := h.setMarker mid hmid
  refine ⟨state', ?_, hafter⟩
  rw [Dialogue.refresh, Dialogue.run, run_bind_ok (h.compute state hstate), Dialogue.run,
    run_bind_ok htext, Dialogue.run, run_bind_ok hmarker]
  rfl

/-- **A read that finds its result, or nothing, gives it.** -/
theorem run_cachedRead (h : Answers c before after t list current) (hstate : before state)
    (checking : Bool) :
    ∃ state', ((Dialogue.cachedRead checking t).run c).run.run state = (.ok list, state')
      ∧ after state' := by
  obtain ⟨stored, htext, hstored⟩ := h.text state hstate
  have hrefresh := h.run_refresh hstate
  rw [Dialogue.cachedRead, Dialogue.run, run_bind_ok htext]
  rcases hstored with rfl | ⟨rfl, hafter⟩
  · show ∃ state', ((Dialogue.latest t.className fun current => Dialogue.refresh t current).run
      c).run.run state = (.ok list, state') ∧ after state'
    rw [Dialogue.run, run_bind_ok (h.latest state hstate)]
    exact hrefresh
  · cases checking with
    | false => exact ⟨state, rfl, hafter⟩
    | true =>
        -- Whatever the marker says, the result is this one.
        obtain ⟨marker, hmarker⟩ := h.marker state hstate
        show ∃ state', ((Dialogue.get _ _).run c).run.run state = (.ok list, state') ∧ after state'
        rw [Dialogue.run, run_bind_ok hmarker, Dialogue.run, run_bind_ok (h.latest state hstate)]
        split
        · exact ⟨state, rfl, hafter⟩
        · exact hrefresh

/-- **So a reader that has returned nothing yet gives it.** -/
theorem read (h : Answers c before after t list current) (hstate : before state)
    (checking : Bool) :
    ∃ r state', ((CachedReader.opened checking).read c t).run state = ((.ok list, r), state')
      ∧ after state' := by
  obtain ⟨state', hrun, hafter⟩ := h.run_cachedRead hstate checking
  exact ⟨_, state', CachedReader.read_of_forgotten rfl hrun, hafter⟩

end Answers

/-! ## §2. The time of a class. -/

/-- The latest of the times of some types, and of the epoch. -/
def latestTime (time : Descriptor → Int) (types : List Descriptor) : Int :=
  types.foldl (fun latest d => max latest (time d)) 0

/-- Times that can all be read add up to it. -/
theorem latestOf_times (time : Descriptor → Int) (types : List Descriptor) : ∀ latest : Int,
    (latestOf (m := Id) (.ofSource fun d => .ok (time d)) latest types).run
      = .ok (types.foldl (fun latest d => max latest (time d)) latest) := by
  induction types with
  | nil => exact fun latest => rfl
  | cons d types ih =>
      intro latest
      have hread : (fun d => .ok (time d) : Descriptor → Except Error Int) d = .ok (time d) := rfl
      rw [latestOf_of_time hread]
      exact ih (max latest (time d))

/-- It is no later than the times allow. -/
theorem latestTime_bounds {time : Descriptor → Int} {types : List Descriptor} {bound : Int}
    (hbound : 0 < bound) (htimes : ∀ d ∈ types, time d < bound) :
    0 ≤ latestTime time types ∧ latestTime time types < bound := by
  obtain ⟨hmem, hlatest⟩ := isGreatest_of_latestOf (latestOf_times time types 0)
  refine ⟨hlatest (Set.mem_insert 0 _), ?_⟩
  unfold latestTime
  rcases hmem with hepoch | ⟨d, hd, htime⟩
  · rw [hepoch]
    exact hbound
  · rw [← Except.ok.inj htime]
    exact htimes d hd

/-- **The last modification of a class**, where the times of its closure are known. -/
theorem run_lastModification_of_times {clock : Clock (StateM σ)} {state : σ}
    {time : Descriptor → Int} {registry : Types.Registry} {className : String}
    {types : List Descriptor} (hclosure : registry.closure className = .ok types)
    (htimes : ∀ d ∈ types, (clock d).run.run state = (.ok (time d), state)) :
    (lastModification registry clock className).run.run state
      = (.ok (latestTime time types), state) := by
  rw [lastModification_of_closure hclosure, latestOf_looking htimes, latestOf_times]
  rfl

/-- **Have some types sources that are files, or none?**  The time of a file fits a
word. -/
def Sourced (disk : Disk) (types : List Descriptor) : Prop :=
  ∀ d ∈ types, ∀ path, d.source = some path →
    disk.kind path = some .file ∧ ∀ time, disk.modified path = .ok time → time < Word.half

/-- Where the sources are found as before, so are they here. -/
theorem Sourced.congr {disk disk' : Disk} {types : List Descriptor} (h : Sourced disk types)
    (hfind : ∀ d ∈ types, ∀ path, d.source = some path →
      disk'.find path true = disk.find path true) : Sourced disk' types := by
  intro d hd path hsource
  rw [Files.Disk.kind_congr (hfind d hd path hsource),
    Files.Disk.modified_congr (hfind d hd path hsource)]
  exact h d hd path hsource

/-- The second at which the file of a type was modified. -/
def fileSeconds (disk : Disk) (d : Descriptor) : Int :=
  match fileTime disk d with
  | .ok time => time
  | .error _ => 0

/-- A file has a time. -/
theorem modified_of_kind {disk : Disk} {path : String} (h : disk.kind path = some .file) :
    ∃ time, disk.modified path = .ok time := by
  obtain ⟨loc, content, modified, hfind⟩ := Files.Disk.find_of_kind h
  refine ⟨modified, ?_⟩
  unfold Disk.modified
  rw [hfind]
  rfl

section Sources

variable {disk disk' : Disk} {types : List Descriptor} (h : Sourced disk types) {d : Descriptor}
  (hd : d ∈ types)

include h hd

/-- The clock of files tells the second, which fits a word. -/
theorem Sourced.fileTime_eq :
    fileTime disk d = .ok (fileSeconds disk d) ∧ fileSeconds disk d < Word.half := by
  have htime : ∃ time, fileTime disk d = .ok time ∧ time < Word.half := by
    cases hsource : d.source with
    | none => exact ⟨0, fileTime_of_builtin hsource, by decide⟩
    | some path =>
        obtain ⟨hkind, hfits⟩ := h d hd path hsource
        obtain ⟨time, htime⟩ := modified_of_kind hkind
        have hlt := hfits time htime
        have hpos : (0 : Int) < Word.half := by decide
        refine ⟨max 0 time, ?_, by omega⟩
        rw [fileTime_of_source hsource, htime]
        rfl
  obtain ⟨time, htime, hlt⟩ := htime
  unfold fileSeconds
  rw [htime]
  exact ⟨rfl, hlt⟩

/-- It is the same on a disk that has all that was there. -/
theorem Sourced.run_fileClock (hgrows : disk.Grows disk') :
    (fileClock Disk.files d).run.run disk' = (.ok (fileSeconds disk d), disk') := by
  have hsame : fileTime disk' d = fileTime disk d := by
    cases hsource : d.source with
    | none => rw [fileTime_of_builtin hsource, fileTime_of_builtin hsource]
    | some path =>
        have hfind := hgrows.find_eq (h d hd path hsource).1
        rw [fileTime_of_source hsource, fileTime_of_source hsource,
          Files.Disk.modified_congr hfind]
  have hrun : (fileClock Disk.files d).run.run disk' = (fileTime disk' d, disk') :=
    AnnotationCache.run_fileClock (fun path => rfl) d
  rw [hrun, hsame, (h.fileTime_eq hd).1]

end Sources

/-! ## §3. A cache on disk. -/

namespace FolderCache

/-- Was nothing set but the result and the time of a target? -/
def OnlySet (t : Target) (list : List Annotation) (current : Int) (history : History) : Prop :=
  ∀ p ∈ history, p = ((CacheKey.ofTarget t).text, .annotations list)
    ∨ p = ((CacheKey.ofTarget t).marker, .timestamp current)

/-- Then nothing else is found under the key of the target. -/
theorem OnlySet.lastSet_text {t : Target} {list : List Annotation} {current : Int}
    {history : History} (h : OnlySet t list current history) :
    lastSet history (CacheKey.ofTarget t).text = none
      ∨ lastSet history (CacheKey.ofTarget t).text = some (.annotations list) := by
  cases hlast : lastSet history (CacheKey.ofTarget t).text with
  | none => exact .inl rfl
  | some value =>
      obtain ⟨later, earlier, rfl, -⟩ := lastSet_eq_some_iff.1 hlast
      rcases h _ (List.mem_append_right later List.mem_cons_self) with heq | heq
      · exact .inr (congrArg some (Prod.mk.inj heq).2)
      · exact absurd (Prod.mk.inj heq).1.symm (CacheKey.marker_ne_text _)

/-- **Where reads of one result stand**: nothing was set but that result and its time,
and all that was on the disk at the start is. -/
structure Rereads (caches : FolderCache → Prop) (start : Disk) (loc : Location) (t : Target)
    (list : List Annotation) (current : Int) (d : Disk) (history : History) : Prop where
  stands : Stands caches start loc d history
  here : d.current = start.current
  only : OnlySet t list current history

variable {caches : FolderCache → Prop} {start d : Disk} {loc : Location} {t : Target}
  {list : List Annotation} {current : Int} {history : History} {cache : FolderCache}

/-- At the start nothing was set. -/
theorem Share.rereads (h : Share caches start loc) :
    Rereads caches start loc t list current start [] :=
  ⟨h.stands, rfl, fun _ hp => absurd hp List.not_mem_nil⟩

namespace Rereads

theorem grows (h : Rereads caches start loc t list current d history) : start.Grows d :=
  ⟨h.here, h.stands.kept⟩

theorem later (h : Rereads caches start loc t list current d history) (hset : history ≠ [])
    (now : Int) : Rereads caches start loc t list current { d with now := now } history :=
  ⟨h.stands.later hset now, h.here, h.only⟩

/-- Clearing forgets what was set. -/
theorem clear (h : Rereads caches start loc t list current d history)
    (hshare : Share caches start loc) (hcache : caches cache) :
    ∃ d' count, (cache.clear Disk.files).run.run d = (.ok count, d')
      ∧ Rereads caches start loc t list current d' [] := by
  obtain ⟨d', hrun, hstands, hcurrent⟩ := h.stands.run_clear hshare hcache
  exact ⟨d', _, hrun, hstands, hcurrent.trans h.here, fun _ hp => absurd hp List.not_mem_nil⟩

/-- Setting the result or the time sets nothing else. -/
theorem set (h : Rereads caches start loc t list current d history)
    (hshare : Share caches start loc) (hcache : caches cache) {key : String} {value : CacheValue}
    (hvalue : value.Storable) (honly : (key, value) = ((CacheKey.ofTarget t).text, .annotations list)
      ∨ (key, value) = ((CacheKey.ofTarget t).marker, .timestamp current)) :
    ∃ d', (cache.set Disk.files key value).run.run d = (.ok true, d')
      ∧ Rereads caches start loc t list current d' ((key, value) :: history) := by
  obtain ⟨d', hrun, hstands, hcurrent⟩ := h.stands.run_set hshare hcache key hvalue
  exact ⟨d', hrun, hstands, hcurrent.trans h.here, List.forall_mem_cons.2 ⟨honly, h.only⟩⟩

variable {declared : DeclaredReader} {types : List Descriptor}
  (hshare : Share caches start loc) (hcache : caches cache)
  (hclosure : declared.registry.closure t.className = .ok types) (hsourced : Sourced start types)
  (hread : declared.read t = .ok list) (hlist : (CacheValue.annotations list).Storable)

include hshare hcache hclosure hsourced hread hlist

/-- **A reader through the cache is answered with one result and one time.** -/
theorem answers :
    Answers (.ofStore (cache.store Disk.files) (fileClock Disk.files) declared)
      (fun d => ∃ history,
        Rereads caches start loc t list (latestTime (fileSeconds start) types) d history)
      (fun d => ∃ history,
        Rereads caches start loc t list (latestTime (fileSeconds start) types) d history
          ∧ history ≠ [])
      t list (latestTime (fileSeconds start) types) where
  text d hd := by
    obtain ⟨history, h⟩ := hd
    refine ⟨_, h.stands.run_get hcache _, ?_⟩
    rcases h.only.lastSet_text with hnone | hsome
    · exact .inl hnone
    · refine .inr ⟨hsome, history, h, ?_⟩
      rintro rfl
      cases hsome
  marker d hd := by
    obtain ⟨history, h⟩ := hd
    exact ⟨_, h.stands.run_get hcache _⟩
  latest d hd := by
    obtain ⟨history, h⟩ := hd
    exact run_lastModification_of_times hclosure fun t' ht' => hsourced.run_fileClock ht' h.grows
  compute d hd := by
    show (MonadExcept.ofExcept (declared.read t) : ExceptT Error (StateM Disk) _).run.run d = _
    rw [hread]
    rfl
  setText d hd := by
    obtain ⟨history, h⟩ := hd
    obtain ⟨d', hrun, hafter⟩ := h.set hshare hcache hlist (.inl rfl)
    exact ⟨true, d', hrun, _, hafter⟩
  setMarker d hd := by
    obtain ⟨history, h⟩ := hd
    have hpos : (0 : Int) < Word.half := by decide
    obtain ⟨hepoch, hhalf⟩ := latestTime_bounds hpos fun t' ht' => (hsourced.fileTime_eq ht').2
    have htime : (CacheValue.timestamp (latestTime (fileSeconds start) types)).Storable :=
      ⟨⟨by omega, hhalf⟩, trivial⟩
    obtain ⟨d', hrun, hafter⟩ := h.set hshare hcache htime (.inr rfl)
    exact ⟨true, d', hrun, _, hafter, List.cons_ne_nil _ _⟩

/-- **A read through the cache gives the result**, whether it checks or not. -/
theorem read (h : Rereads caches start loc t list (latestTime (fileSeconds start) types) d history)
    (checking : Bool) :
    ∃ r d' history', ((CachedReader.opened checking).read
        (.ofStore (cache.store Disk.files) (fileClock Disk.files) declared) t).run d
          = ((.ok list, r), d')
      ∧ Rereads caches start loc t list (latestTime (fileSeconds start) types) d' history'
      ∧ history' ≠ [] := by
  obtain ⟨r, d', hrun, history', hafter, hset⟩ :=
    (answers hshare hcache hclosure hsourced hread hlist).read ⟨history, h⟩ checking
  exact ⟨r, d', history', hrun, hafter, hset⟩

end Rereads

end FolderCache

end AnnotationCache

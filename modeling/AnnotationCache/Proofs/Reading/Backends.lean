/-
  AnnotationCache.Proofs.Reading.Backends
  ───────────────────────────────────────
  **A CACHE IN MEMORY AND A CACHE ON DISK DO THE SAME.**

  Readers may stand before a cache in memory, whose entries have no end, or
  before one on disk.  Each of the two plays a map (`Backend.PlaysMap`): there
  is a relation of its states to maps that requests keep.  So every run of reads,
  edits and emptyings goes alike over both, since it goes as it goes over a map.

  On disk there is more to it than in memory.  A key is found by its digest and
  then told from others by the entry itself, and what is stored is what its text
  reads back as.

  Main statements:
    * `playsMap_memory`, `playsMap_folder` — the two caches play maps;
    * `PlaysMap.course_eq`                 — a run over what plays a map goes as it
      goes over the map;
    * `course_memory_eq_course_folder`     — the two caches are interchangeable.
-/
import AnnotationCache.Proofs.Reading.Refinement
import AnnotationCache.Proofs.Reading.Staleness
import AnnotationCache.Proofs.Store.RoundTrip
import AnnotationCache.Store.Memory

namespace AnnotationCache

open AnnotationCache.Files (Disk)

variable {σ : Type}

/-! ## §1. Caches that can be emptied. -/

/-- **A cache behind readers**: how it is used at a second, and how it is emptied. -/
structure Backend (σ : Type) where
  store : Int → Store (StateM σ)
  clear : ExceptT Error (StateM σ) PUnit

namespace Backend

/-- What is found under a key at a second. -/
def look (b : Backend σ) (state : σ) (now : Int) (key : String) : Except Error (Option CacheValue) :=
  (((b.store now).get key).run.run state).1

/-- The cache that is a map. -/
def map : Backend MapCache where
  store _ := MapCache.store MapCache.keepAll
  clear := ExceptT.mk fun _ => (.ok ⟨⟩, Dict.empty)

/-- The cache in memory. -/
def memory : Backend MemoryCache where
  store := MemoryCache.store
  clear := ExceptT.mk fun _ => (.ok ⟨⟩, MemoryCache.empty)

/-- A cache on disk. -/
def folder (cache : FolderCache) : Backend Disk where
  store _ := cache.store Disk.files
  clear := (fun _ => ⟨⟩) <$> cache.clear Disk.files

/-- **Does a cache play a map**, for keys and values of a sort? -/
structure PlaysMap (b : Backend σ) (R : σ → MapCache → Prop) (keys : String → Prop)
    (values : CacheValue → Prop) : Prop where
  plays : ∀ now s, Plays (s.beside (b.store now)) s R keys values
  look : ∀ state entries, R state entries → ∀ now key, b.look state now key = .ok (entries.get? key)
  clear : ∀ state entries, R state entries →
    ∃ state', b.clear.run.run state = (.ok ⟨⟩, state') ∧ R state' Dict.empty

end Backend

/-- Beside a cache, sources have no effects. -/
theorem Plays.of_store {store : Store (StateM σ)} {R : σ → MapCache → Prop} {keys : String → Prop}
    {values : CacheValue → Prop}
    (hget : ∀ state entries, R state entries → ∀ key, keys key →
      ∃ state', (store.get key).run.run state = (.ok (entries.get? key), state') ∧ R state' entries)
    (hset : ∀ state entries, R state entries → ∀ key value, keys key → values value →
      ∃ state', (store.set key value).run.run state = (.ok true, state')
        ∧ R state' (entries.insert key value)) (s : Sources) :
    Plays (s.beside store) s R keys values where
  get := hget
  set := hset
  latest state entries hR className := by
    refine ⟨state, ?_, hR⟩
    rw [Sources.latest_beside]
    cases s.latest className <;> rfl
  compute state entries hR t := by
    refine ⟨state, ?_, hR⟩
    rw [Sources.compute_beside]
    cases s.compute t <;> rfl

/-! ## §2. The cache in memory. -/

/-- A cache in memory mirrors a map: it has the same entries, and none of them ends. -/
def MemoryCache.Mirrors (cache : MemoryCache) (entries : MapCache) : Prop :=
  ∀ key, cache.entries.get? key = (entries.get? key).map fun value => ⟨value, none⟩

namespace MemoryCache.Mirrors

variable {cache : MemoryCache} {entries : MapCache} (h : cache.Mirrors entries)

include h

theorem fetch_eq (now : Int) (key : String) : cache.fetch now key = (entries.get? key, cache) := by
  unfold fetch
  rw [h key]
  cases entries.get? key <;> rfl

theorem insert (key : String) (value : CacheValue) :
    Mirrors ⟨cache.entries.insert key ⟨value, none⟩⟩ (entries.insert key value) := by
  intro other
  rw [Dict.get?_insert, Dict.get?_insert]
  split
  · rfl
  · exact h other

end MemoryCache.Mirrors

/-- **The cache in memory plays a map.** -/
theorem Backend.playsMap_memory (keys : String → Prop) (values : CacheValue → Prop) :
    memory.PlaysMap MemoryCache.Mirrors keys values where
  plays now := Plays.of_store
    (fun state entries hR key _ => by
      refine ⟨state, ?_, hR⟩
      show ((.ok (state.fetch now key).1 : Except Error (Option CacheValue)), (state.fetch now key).2)
        = _
      rw [hR.fetch_eq])
    (fun state entries hR key value _ _ => ⟨_, rfl, hR.insert key value⟩)
  look state entries hR now key := by
    show (.ok (state.fetch now key).1 : Except Error (Option CacheValue)) = _
    rw [hR.fetch_eq]
  clear _ _ _ := ⟨MemoryCache.empty, rfl, fun _ => rfl⟩

/-! ## §3. The cache on disk. -/

/-- **A folder mirrors a map**: what the texts in it tell of each key is what the
map has under it.  Keys that are not used are not in the map. -/
def FolderCache.Mirrors (cache : FolderCache) (keys : String → Prop) (d : Disk)
    (entries : MapCache) : Prop :=
  ∃ texts, cache.Holds d texts
    ∧ (∀ key, Holds.lookup texts key = .ok (entries.get? key))
    ∧ ∀ key value, entries.get? key = some value → keys key

namespace FolderCache

variable {cache : FolderCache} {keys : String → Prop}

/-- A folder that holds no texts mirrors the empty map. -/
theorem Holds.mirrors_empty {d : Disk} (h : cache.Holds d Dict.empty) :
    cache.Mirrors keys d Dict.empty :=
  ⟨Dict.empty, h, Holds.lookup_empty, fun _ _ hsome => by cases hsome⟩

/-- **Setting a value keeps the mirror**, as no two keys that are used have one
digest. -/
theorem Mirrors.set {d : Disk} {entries : MapCache} (h : cache.Mirrors keys d entries)
    (hdigests : ∀ k k', keys k → keys k' → Digest.Sha256.hex k = Digest.Sha256.hex k' → k = k')
    {key : String} (hkey : keys key) {value : CacheValue} (hvalue : value.Storable) :
    ∃ d', (cache.set Disk.files key value).run.run d = (.ok true, d')
      ∧ cache.Mirrors keys d' (entries.insert key value) := by
  obtain ⟨texts, hholds, hlookups, hused⟩ := h
  obtain ⟨d', hrun, hafter⟩ := hholds.set_eq key value
  refine ⟨d', hrun, _, hafter, ?_, ?_⟩
  · intro other
    rw [Holds.lookup_insert texts key other hvalue, Dict.get?_insert]
    by_cases hname : entryName other = entryName key
    · rw [if_pos hname]
      by_cases heq : other = key
      · rw [if_pos heq, if_pos heq.symm]
      · rw [if_neg (Ne.symm heq), if_neg heq]
        -- The map has nothing under the other key, or both would be used.
        cases hother : entries.get? other with
        | none => rfl
        | some value' =>
            exact absurd (hdigests other key (hused other value' hother) hkey (entryName_inj hname)) heq
    · rw [if_neg hname, if_neg fun (heq : other = key) => hname (heq ▸ rfl)]
      exact hlookups other
  · intro other value'
    rw [Dict.get?_insert]
    split
    next heq => exact fun _ => heq ▸ hkey
    next => exact hused other value'

end FolderCache

/-- **A cache on disk plays a map**, as long as no two keys that are used have one
digest and values can be stored. -/
theorem Backend.playsMap_folder (cache : FolderCache) {keys : String → Prop}
    (hdigests : ∀ k k', keys k → keys k' → Digest.Sha256.hex k = Digest.Sha256.hex k' → k = k') :
    (folder cache).PlaysMap (cache.Mirrors keys) keys CacheValue.Storable where
  plays now := Plays.of_store
    (fun state entries hR key _ => by
      have hmirrors := hR
      obtain ⟨texts, hholds, hlookups, -⟩ := hR
      exact ⟨state, (hholds.get_eq key).trans (by rw [hlookups key]), hmirrors⟩)
    (fun state entries hR key value hkey hvalue => hR.set hdigests hkey hvalue)
  look state entries hR now key := by
    obtain ⟨texts, hholds, hlookups, -⟩ := hR
    show ((cache.get Disk.files key).run.run state).1 = _
    rw [hholds.get_eq key]
    exact hlookups key
  clear state entries hR := by
    obtain ⟨texts, hholds, -, -⟩ := hR
    obtain ⟨state', hrun, hafter⟩ := hholds.clear_eq
    exact ⟨state', run_map _ hrun, hafter.mirrors_empty⟩

/-! ## §4. Runs. -/

namespace Backend

/-- **What can happen**: a read at a second, by one of the readers; a reader
forgets; the world is edited; the cache is emptied. -/
inductive Event where
  | read (now : Int) (reader : Nat) (t : Target)
  | forget (reader : Nat)
  | edit (world : World)
  | empty

/-- What comes of it. -/
inductive Reply where
  | answer (result : Except Error (List Annotation))
  | emptied (result : Except Error PUnit)
  | nothing

/-- A cache, the world, and the readers. -/
structure Stage (σ : Type) where
  cache : σ
  world : World
  readers : Nat → CachedReader

/-- The readers, one of them replaced. -/
def seat (readers : Nat → CachedReader) (i : Nat) (r : CachedReader) : Nat → CachedReader :=
  fun j => if j = i then r else readers j

variable (b : Backend σ) (ignored : Nat → List String)

/-- **One step of a run.**  Each reader has names that it ignores. -/
def step (stage : Stage σ) : Event → Reply × Stage σ
  | .read now i t =>
      let (answer, cache) := ((stage.readers i).read (.ofStore (b.store now) stage.world.clock
        (stage.world.declared (ignored i))) t).run stage.cache
      (.answer answer.1,
        { stage with cache := cache, readers := seat stage.readers i answer.2 })
  | .forget i => (.nothing, { stage with readers := seat stage.readers i (stage.readers i).forget })
  | .edit world => (.nothing, { stage with world := world })
  | .empty =>
      let (result, cache) := b.clear.run.run stage.cache
      (.emptied result, { stage with cache := cache })

/-- **What a step shows**: what came of it, and what is under each key at each second
after it. -/
structure Moment where
  reply : Reply
  look : Int → String → Except Error (Option CacheValue)

/-- **What a run shows**, step by step. -/
def course : Stage σ → List Event → List Moment
  | _, [] => []
  | stage, e :: events =>
      ⟨(b.step ignored stage e).1, b.look (b.step ignored stage e).2.cache⟩
        :: course (b.step ignored stage e).2 events

/-- The worlds of a run. -/
def worlds (world : World) : List Event → List World
  | [] => [world]
  | .edit world' :: events => world :: worlds world' events
  | _ :: events => worlds world events

theorem mem_worlds (world : World) (events : List Event) : world ∈ worlds world events := by
  induction events with
  | nil => exact List.mem_singleton_self world
  | cons e events ih =>
      cases e with
      | edit world' => exact List.mem_cons_self
      | read now i t => exact ih
      | forget i => exact ih
      | empty => exact ih

/-- Does an event use keys and values of a sort, in a world? -/
def Event.Fits (ignored : Nat → List String) (w : World) (keys : String → Prop)
    (values : CacheValue → Prop) : Event → Prop
  | .read _ i t => (w.sources (ignored i)).Uses keys values t
  | _ => True

variable {b ignored} {R : σ → MapCache → Prop} {keys : String → Prop} {values : CacheValue → Prop}

/-- **A step goes as it goes over a map.** -/
theorem PlaysMap.step_eq (h : b.PlaysMap R keys values) {state : σ} {entries : MapCache}
    (hR : R state entries) {world : World} (readers : Nat → CachedReader) {e : Event}
    (he : e.Fits ignored world keys values) :
    ∃ state', b.step ignored ⟨state, world, readers⟩ e
        = ((map.step ignored ⟨entries, world, readers⟩ e).1,
          ⟨state', (map.step ignored ⟨entries, world, readers⟩ e).2.world,
            (map.step ignored ⟨entries, world, readers⟩ e).2.readers⟩)
      ∧ R state' (map.step ignored ⟨entries, world, readers⟩ e).2.cache := by
  cases e with
  | read now i t =>
      obtain ⟨state', hrun, hafter⟩ :=
        (h.plays now (world.sources (ignored i))).read_eq he (readers i) hR
      refine ⟨state', ?_, ?_⟩
      · unfold step
        simp only [World.ofStore_eq_beside, hrun]
        rfl
      · unfold step
        simp only [World.ofStore_eq_beside]
        exact hafter
  | forget i => exact ⟨state, rfl, hR⟩
  | edit world' => exact ⟨state, rfl, hR⟩
  | empty =>
      obtain ⟨state', hrun, hafter⟩ := h.clear state entries hR
      refine ⟨state', ?_, hafter⟩
      unfold step
      simp only [hrun]
      rfl

/-- **A run goes as it goes over a map.** -/
theorem PlaysMap.course_eq (h : b.PlaysMap R keys values) {events : List Event} :
    ∀ {state : σ} {entries : MapCache} {world : World} {readers : Nat → CachedReader},
      R state entries →
      (∀ w ∈ worlds world events, ∀ e ∈ events, e.Fits ignored w keys values) →
        b.course ignored ⟨state, world, readers⟩ events
          = map.course ignored ⟨entries, world, readers⟩ events := by
  induction events with
  | nil => exact fun _ _ => rfl
  | cons e events ih =>
      intro state entries world readers hR hfits
      have he : e.Fits ignored world keys values :=
        hfits world (mem_worlds world (e :: events)) e List.mem_cons_self
      obtain ⟨state', hstep, hafter⟩ := h.step_eq hR readers he
      -- What is looked up shows in the run, so it has to be the same function.
      have hlook : b.look state' = map.look (map.step ignored ⟨entries, world, readers⟩ e).2.cache := by
        funext now key
        exact h.look state' _ hafter now key
      unfold course
      rw [hstep]
      dsimp only
      rw [hlook, ih hafter]
      -- The worlds that are left are those of the rest of the run.
      intro w hw e' he'
      apply hfits w _ e' (List.mem_cons_of_mem e he')
      cases e with
      | edit world' => exact List.mem_cons_of_mem world hw
      | read now i t => exact hw
      | forget i => exact hw
      | empty => exact hw

/-! ## §5. The two caches. -/

/-- Is a key one that a run uses? -/
def Used (events : List Event) (key : String) : Prop :=
  ∃ now i t, Event.read now i t ∈ events
    ∧ (key = (CacheKey.ofTarget t).text ∨ key = (CacheKey.ofTarget t).marker)

/-- **Can all that a run stores be stored on disk?**  No two of its keys have one
digest, its times fit a word with a sign, and what is read can be written. -/
structure Storable (ignored : Nat → List String) (world : World) (events : List Event) : Prop where
  digests : ∀ k k', Used events k → Used events k' →
    Digest.Sha256.hex k = Digest.Sha256.hex k' → k = k'
  times : ∀ w ∈ worlds world events, ∀ d, -(Word.half : Int) ≤ w.time d ∧ w.time d < Word.half
  lists : ∀ w ∈ worlds world events, ∀ now i t, Event.read now i t ∈ events →
    ∀ list, (w.declared (ignored i)).read t = .ok list →
      ∀ a ∈ list, a.Textual ∧ a.depth ≤ Entry.valueRoom

theorem Storable.fits {world : World} {events : List Event} (h : Storable ignored world events) :
    ∀ w ∈ worlds world events, ∀ e ∈ events,
      e.Fits ignored w (Used events) CacheValue.Storable := by
  intro w hw e he
  cases e with
  | forget i => trivial
  | edit world' => trivial
  | empty => trivial
  | read now i t =>
      refine ⟨⟨now, i, t, he, .inl rfl⟩, ⟨now, i, t, he, .inr rfl⟩, ?_, ?_⟩
      · intro current hcurrent
        obtain ⟨types, -, -, hlast⟩ := World.bounds_of_lastModification hcurrent
        refine ⟨?_, trivial⟩
        rcases hlast with rfl | ⟨d, -, rfl⟩
        · exact ⟨by decide, by decide⟩
        · exact h.times w hw d
      · intro list hlist
        have hall := h.lists w hw now i t he list hlist
        exact ⟨fun a ha => (hall a ha).1, fun a ha => (hall a ha).2⟩

/-- **The cache in memory and a cache on disk are interchangeable**: over a folder
that is not there yet, or has no entries, a run of reads, edits and emptyings
goes as it goes in memory, and the same is found under every key after each step. -/
theorem course_memory_eq_course_folder {cache : FolderCache} {d : Disk} (hcache : cache.Ready d)
    {world : World} {events : List Event} (h : Storable ignored world events)
    (readers : Nat → CachedReader) :
    memory.course ignored ⟨MemoryCache.empty, world, readers⟩ events
      = (folder cache).course ignored ⟨d, world, readers⟩ events := by
  have hmirrors : MemoryCache.empty.Mirrors Dict.empty := fun _ => rfl
  have hmemory : memory.course ignored ⟨MemoryCache.empty, world, readers⟩ events
      = map.course ignored ⟨Dict.empty, world, readers⟩ events :=
    (playsMap_memory (Used events) CacheValue.Storable).course_eq hmirrors h.fits
  have hfolder : (folder cache).course ignored ⟨d, world, readers⟩ events
      = map.course ignored ⟨Dict.empty, world, readers⟩ events :=
    (playsMap_folder cache h.digests).course_eq hcache.holds.mirrors_empty h.fits
  exact hmemory.trans hfolder.symm

/-- A run over an edit: one reader checks, the others do not. -/
def shownRun : List Event :=
  [.read 10 0 (.ofMethod "App\\Page" "index"), .edit templating,
    .read 20 1 (.ofMethod "App\\Page" "index"), .forget 0,
    .read 30 0 (.ofMethod "App\\Page" "index"), .empty,
    .read 40 2 (.ofMethod "App\\Page" "index")]

/-- Its readers. -/
def shownReaders (i : Nat) : CachedReader :=
  .opened (i = 0)

/-- All reads of the run are of one method. -/
theorem target_of_shownRun {now : Int} {i : Nat} {t : Target} (h : Event.read now i t ∈ shownRun) :
    t = .ofMethod "App\\Page" "index" := by
  simp only [shownRun, List.mem_cons, List.not_mem_nil, Event.read.injEq, reduceCtorEq, or_false,
    false_or] at h
  rcases h with h | h | h | h <;> exact h.2.2

theorem storable_shownRun : Storable (fun _ => []) routing shownRun where
  digests k k' hk hk' := by
    -- There are two keys, that of the method and its marker.
    obtain ⟨now, i, t, ht, hk⟩ := hk
    obtain ⟨now', i', t', ht', hk'⟩ := hk'
    rw [target_of_shownRun ht] at hk
    rw [target_of_shownRun ht'] at hk'
    have hdigest : Digest.Sha256.hex (CacheKey.ofTarget (.ofMethod "App\\Page" "index")).text
        ≠ Digest.Sha256.hex (CacheKey.ofTarget (.ofMethod "App\\Page" "index")).marker := by
      decide +kernel
    rcases hk with rfl | rfl <;> rcases hk' with rfl | rfl
    · exact fun _ => rfl
    · exact fun h => absurd h hdigest
    · exact fun h => absurd h.symm hdigest
    · exact fun _ => rfl
  times w hw d := by
    have hworlds : w = routing ∨ w = templating := by simpa [shownRun, worlds] using hw
    rcases hworlds with rfl | rfl
    · show -(Word.half : Int) ≤ 1 ∧ (1 : Int) < Word.half
      exact ⟨by decide, by decide⟩
    · show -(Word.half : Int) ≤ (if d.name = "App\\Page" then 1 else 2)
        ∧ (if d.name = "App\\Page" then (1 : Int) else 2) < Word.half
      split <;> exact ⟨by decide, by decide⟩
  lists w hw now i t ht list hlist := by
    rw [target_of_shownRun ht] at hlist
    have hworlds : w = routing ∨ w = templating := by simpa [shownRun, worlds] using hw
    have hbare : ∀ a ∈ list, a.values = Dict.empty := by
      rcases hworlds with rfl | rfl
      · obtain rfl : [{ name := "Route" }] = list := Except.ok.inj hlist
        exact fun a ha => by rw [List.mem_singleton.1 ha]
      · obtain rfl : [{ name := "Template" }] = list := Except.ok.inj hlist
        exact fun a ha => by rw [List.mem_singleton.1 ha]
    intro a ha
    have hvalues := hbare a ha
    refine ⟨⟨?_, ?_⟩, ?_⟩
    · rw [hvalues]
      rfl
    · rw [hvalues]
      trivial
    · unfold Annotation.depth
      rw [hvalues]
      exact Nat.zero_le _

/-- The folder `cache` on a disk without files is ready. -/
theorem ready_shownFolder : FolderCache.Ready ⟨"cache"⟩ {} :=
  FolderCache.ready_of_plainName
    ⟨by decide, by decide, by decide, by decide, by decide, by decide⟩ ⟨0, rfl⟩ rfl rfl

theorem course_of_shownRun :
    FolderCache.Ready ⟨"cache"⟩ {} ∧ Storable (fun _ => []) routing shownRun
      ∧ memory.course (fun _ => []) ⟨MemoryCache.empty, routing, shownReaders⟩ shownRun
        = (folder ⟨"cache"⟩).course (fun _ => []) ⟨{}, routing, shownReaders⟩ shownRun
      ∧ (memory.course (fun _ => []) ⟨MemoryCache.empty, routing, shownReaders⟩ shownRun).map
          Moment.reply
        = [.answer (.ok [{ name := "Route" }]), .nothing, .answer (.ok [{ name := "Route" }]), .nothing,
          .answer (.ok [{ name := "Template" }]), .emptied (.ok ⟨⟩),
          .answer (.ok [{ name := "Template" }])] :=
  ⟨ready_shownFolder, storable_shownRun,
    course_memory_eq_course_folder ready_shownFolder storable_shownRun shownReaders, rfl⟩

end Backend

end AnnotationCache

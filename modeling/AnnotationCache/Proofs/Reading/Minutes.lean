/-
  AnnotationCache.Proofs.Reading.Minutes
  ──────────────────────────────────────
  **THE MINUTES OF A READ.**

  A company are the collaborators of a reader, any of whom may fail: the cache,
  at some of its keys, the clock, at some types, and the underlying reader.  The
  clock and the underlying reader live in a world of their own, which may change
  while they work, so that the class may be modified while it is being read.

  Every request is put in the minutes, in order and with the failure that came of
  it, if one did.  A `Transcript` says which requests a read makes, what it answers
  and what it leaves, for every map, every world and every failure.

  Main statements:
    * `passes_latest`         — finding a last modification takes a walk;
    * `transcript_cachedRead` — a conversation has a transcript;
    * `attend_of_forgotten`   — so has a read of what is not remembered.
-/
import AnnotationCache.Proofs.Reading.Course
import AnnotationCache.Proofs.Requests
import AnnotationCache.Reading.Freshness

namespace AnnotationCache

open AnnotationCache.Types (Registry Descriptor)
open MapCache (Rule)
open Sources (Outdated)

/-! ## §1. Minutes. -/

/-- What somebody is asked to do. -/
inductive Errand where
  /-- The cache is to say what is stored under a key. -/
  | get (key : String)
  /-- The cache is to store a value. -/
  | set (key : String) (value : CacheValue)
  /-- The clock is to tell the time of a type. -/
  | date (d : Descriptor)
  /-- The last modification of a class is to be found; this is over when its closure
  has been walked and dated. -/
  | latest (className : String)
  /-- The underlying reader is to compute the annotations of a target. -/
  | compute (t : Target)

/-- An errand, and the failure that came of it, if one did. -/
structure Minute where
  errand : Errand
  failure : Option Error := none

/-- Errands that were done. -/
def accomplished (errands : List Errand) : List Minute :=
  errands.map fun errand => { errand := errand }

theorem accomplished_append (errands errands' : List Errand) :
    accomplished (errands ++ errands') = accomplished errands ++ accomplished errands' :=
  List.map_append

/-- Errands that were done, and one that failed. -/
def stopped (errands : List Errand) (errand : Errand) (e : Error) : List Minute :=
  accomplished errands ++ [⟨errand, some e⟩]

section

variable {errands : List Errand} {errand errand' : Errand} {e e' : Error}

theorem not_mem_accomplished : ⟨errand, some e⟩ ∉ accomplished errands := by
  simp [accomplished]

/-- What failed is the errand that was the last. -/
theorem mem_stopped_iff :
    ⟨errand', some e'⟩ ∈ stopped errands errand e ↔ errand' = errand ∧ e' = e := by
  simp [stopped, not_mem_accomplished]

theorem last_mem_stopped : ⟨errand, some e⟩ ∈ stopped errands errand e :=
  mem_stopped_iff.2 ⟨rfl, rfl⟩

end

/-- The failure in an answer. -/
def failure? {α : Type} : Except Error α → Option Error
  | .ok _ => none
  | .error e => some e

/-- Where a read takes place: a map, and the world of those who are asked. -/
structure Room (ω : Type) where
  entries : MapCache
  world : ω

/-- A request in a room where minutes are kept. -/
abbrev Session (ω α : Type) := ExceptT Error (StateM (Room ω × List Minute)) α

namespace Session

variable {ω α β : Type}

/-- A request to the world. -/
def inWorld (x : ExceptT Error (StateM ω) α) : Session ω α :=
  ExceptT.mk (onPart (fun whole => whole.1.world)
    (fun world whole => ({ whole.1 with world := world }, whole.2)) x.run)

/-- A request to the map. -/
def inMap (x : ExceptT Error (StateM MapCache) α) : Session ω α :=
  ExceptT.mk (onPart (fun whole => whole.1.entries)
    (fun entries whole => ({ whole.1 with entries := entries }, whole.2)) x.run)

/-- A request that may be barred by a failure. -/
def barred (fault : Option Error) (x : Session ω α) : Session ω α :=
  match fault with
  | some e => throw e
  | none => x

/-- **A request that is put in the minutes** when it is over. -/
def minuted (errand : Errand) (x : Session ω α) : Session ω α :=
  ExceptT.mk fun start =>
    let (answer, room, minutes) := x.run.run start
    (answer, room, minutes ++ [⟨errand, failure? answer⟩])

/-! ## §2. What comes of a request. -/

/-- **Does a request get this answer**, leave this room, and add this to the minutes? -/
def Passes (x : Session ω α) (start : Room ω) (answer : Except Error α) (room : Room ω)
    (made : List Minute) : Prop :=
  ∀ minutes, x.run.run (start, minutes) = (answer, room, minutes ++ made)

variable {x : Session ω α} {f : α → Session ω β} {start room room' : Room ω} {a : α}
  {made made' : List Minute} {e : Error}

namespace Passes

/-- What needs no request. -/
theorem done (a : α) (start : Room ω) : Passes (pure a) start (.ok a) start [] := by
  intro minutes
  rw [List.append_nil]
  rfl

/-- What needs no request and fails. -/
theorem failed (e : Error) (start : Room ω) :
    Passes (throw e : Session ω α) start (.error e) start [] := by
  intro minutes
  rw [List.append_nil]
  rfl

/-- Requests one after the other. -/
theorem bind {answer : Except Error β} (h : Passes x start (.ok a) room made)
    (h' : Passes (f a) room answer room' made') :
    Passes (x >>= f) start answer room' (made ++ made') := by
  intro minutes
  rw [run_bind_ok (h minutes), h', List.append_assoc]

/-- A request that fails is the last one. -/
theorem bind_error (h : Passes x start (.error e) room made) :
    Passes (x >>= f) start (.error e) room made :=
  fun minutes => run_bind_error (h minutes)

theorem minuted {answer : Except Error α} (h : Passes x start answer room made) (errand : Errand) :
    Passes (Session.minuted errand x) start answer room
      (made ++ [⟨errand, failure? answer⟩]) := by
  intro minutes
  have hrun : (Session.minuted errand x).run.run (start, minutes)
      = (let (answer, room, sofar) := x.run.run (start, minutes)
         (answer, room, sofar ++ [⟨errand, failure? answer⟩])) := rfl
  rw [hrun, h minutes, ← List.append_assoc]

theorem inWorld {x : ExceptT Error (StateM ω) α} {answer : Except Error α} {world world' : ω}
    (h : x.run.run world = (answer, world')) (entries : MapCache) :
    Passes (Session.inWorld x) ⟨entries, world⟩ answer ⟨entries, world'⟩ [] := by
  intro minutes
  have hrun : (Session.inWorld x).run.run (⟨entries, world⟩, minutes)
      = ((x.run.run world).1, ⟨entries, (x.run.run world).2⟩, minutes) := rfl
  rw [hrun, h, List.append_nil]

theorem inMap {x : ExceptT Error (StateM MapCache) α} {answer : Except Error α}
    {entries entries' : MapCache} (h : x.run.run entries = (answer, entries')) (world : ω) :
    Passes (Session.inMap x) ⟨entries, world⟩ answer ⟨entries', world⟩ [] := by
  intro minutes
  have hrun : (Session.inMap x).run.run ((⟨entries, world⟩ : Room ω), minutes)
      = ((x.run.run entries).1, ⟨(x.run.run entries).2, world⟩, minutes) := rfl
  rw [hrun, h, List.append_nil]

end Passes

end Session

/-! ## §3. Companies. -/

/-- **The collaborators of a reader**, any of whom may fail. -/
structure Company (ω : Type) where
  /-- The types that are resolved. -/
  registry : Registry
  clock : Clock (StateM ω)
  /-- The underlying reader. -/
  compute : Target → ExceptT Error (StateM ω) (List Annotation)
  /-- The writes that the map does not decline. -/
  accepts : Rule
  /-- Why a key cannot be looked up, if it cannot. -/
  unread : String → Option Error
  /-- Why a value cannot be written, if it cannot; nothing is written then. -/
  unwritten : String → CacheValue → Option Error

namespace Company

open Session

variable {ω : Type} (c : Company ω)

/-- The last modification of a class, told by the clock. -/
def lastModification (className : String) : ExceptT Error (StateM ω) Int :=
  AnnotationCache.lastModification c.registry c.clock className

/-- The clock, when minutes are kept. -/
def minutedClock : Clock (StateM (Room ω × List Minute)) := fun d =>
  minuted (.date d) (inWorld (c.clock d))

/-- **The company as a reader turns to it**, with everything put in the minutes. -/
def collaborators : Dialogue.Collaborators (StateM (Room ω × List Minute)) where
  get key := minuted (.get key)
    (barred (c.unread key) (inMap ((MapCache.store c.accepts).get key)))
  set key value := minuted (.set key value)
    (barred (c.unwritten key value) (inMap ((MapCache.store c.accepts).set key value)))
  latest className := minuted (.latest className)
    (AnnotationCache.lastModification c.registry c.minutedClock className)
  compute t := minuted (.compute t) (inWorld (c.compute t))

/-- **A read in a room**: what is answered, the reader and the room afterwards, and
the minutes. -/
def attend (r : CachedReader) (t : Target) (start : Room ω) :
    (Except Error (List Annotation) × CachedReader) × Room ω × List Minute :=
  (r.read c.collaborators t).run (start, [])

variable {c} {entries : MapCache} {world world' : ω} {key className : String} {value : CacheValue}
  {t : Target} {e : Error}

theorem passes_get (h : c.unread key = none) :
    Passes (c.collaborators.get key) ⟨entries, world⟩ (.ok (entries.get? key)) ⟨entries, world⟩
      [⟨.get key, none⟩] := by
  have hget : ((MapCache.store c.accepts).get key).run.run entries
      = (.ok (entries.get? key), entries) := rfl
  show Passes (minuted _ (barred (c.unread key) _)) _ _ _ _
  rw [h]
  exact (Passes.inMap hget world).minuted (.get key)

theorem passes_get_of_fault (h : c.unread key = some e) :
    Passes (c.collaborators.get key) ⟨entries, world⟩ (.error e) ⟨entries, world⟩
      [⟨.get key, some e⟩] := by
  show Passes (minuted _ (barred (c.unread key) _)) _ _ _ _
  rw [h]
  exact (Passes.failed e _).minuted (.get key)

theorem passes_set (h : c.unwritten key value = none) :
    Passes (c.collaborators.set key value) ⟨entries, world⟩ (.ok (c.accepts key value))
      ⟨entries.write c.accepts key value, world⟩ [⟨.set key value, none⟩] := by
  have hset : ((MapCache.store c.accepts).set key value).run.run entries
      = (.ok (c.accepts key value), entries.write c.accepts key value) := by
    rw [MapCache.store_set]
    rfl
  show Passes (minuted _ (barred (c.unwritten key value) _)) _ _ _ _
  rw [h]
  exact (Passes.inMap hset world).minuted (.set key value)

theorem passes_set_of_fault (h : c.unwritten key value = some e) :
    Passes (c.collaborators.set key value) ⟨entries, world⟩ (.error e) ⟨entries, world⟩
      [⟨.set key value, some e⟩] := by
  show Passes (minuted _ (barred (c.unwritten key value) _)) _ _ _ _
  rw [h]
  exact (Passes.failed e _).minuted (.set key value)

theorem passes_compute (entries : MapCache) {answer : Except Error (List Annotation)}
    (h : (c.compute t).run.run world = (answer, world')) :
    Passes (c.collaborators.compute t) ⟨entries, world⟩ answer ⟨entries, world'⟩
      [⟨.compute t, failure? answer⟩] :=
  (Passes.inWorld h entries).minuted (.compute t)

/-! ## §4. Walking the times. -/

/-- **The minutes of dating types** one after the other, to the first failure. -/
inductive Round : List Descriptor → Option Error → List Minute → Prop
  | finished : Round [] none []
  | dated {d : Descriptor} {types : List Descriptor} {failure : Option Error} {made : List Minute}
      (rest : Round types failure made) : Round (d :: types) failure (⟨.date d, none⟩ :: made)
  | undated {d : Descriptor} {types : List Descriptor} {e : Error} :
      Round (d :: types) (some e) (stopped [] (.date d) e)

/-- A round without a failure has dated every type, in order. -/
theorem Round.eq_of_finished {types : List Descriptor} {made : List Minute}
    (h : Round types none made) : made = accomplished (types.map .date) := by
  -- That there is no failure is an index of the round, so it is put aside for the induction.
  generalize hfailure : (none : Option Error) = failure at h
  induction h with
  | finished => rfl
  | dated _ ih =>
      rw [ih hfailure]
      rfl
  | undated => cases hfailure

/-- What fails in a round is a type's time, and fails for the reason that is given. -/
theorem Round.failed {types : List Descriptor} {failure : Option Error} {made : List Minute}
    (h : Round types failure made) {errand : Errand} (hmem : ⟨errand, some e⟩ ∈ made) :
    failure = some e ∧ ∃ d, errand = .date d := by
  induction h with
  | finished => cases hmem
  | dated _ ih =>
      rcases List.mem_cons.1 hmem with hfirst | hrest
      · cases hfirst
      · exact ih hrest
  | undated =>
      obtain ⟨rfl, rfl⟩ := mem_stopped_iff.1 hmem
      exact ⟨rfl, _, rfl⟩

/-- **Finding the latest of some times takes a round.** -/
theorem passes_latestOf (entries : MapCache) {types : List Descriptor} {world' : ω}
    {answer : Except Error Int} : ∀ {latest : Int} {world : ω},
      (latestOf c.clock latest types).run.run world = (answer, world') →
        ∃ made, Round types (failure? answer) made
          ∧ Passes (latestOf c.minutedClock latest types) ⟨entries, world⟩ answer
              ⟨entries, world'⟩ made := by
  induction types with
  | nil =>
      intro latest world h
      cases h
      exact ⟨[], .finished, .done latest _⟩
  | cons d types ih =>
      intro latest world h
      unfold latestOf at h ⊢
      rw [List.foldlM_cons, bind_assoc] at h
      rw [List.foldlM_cons, bind_assoc]
      -- The rest is dated in the world that the clock has left.
      cases hclock : (c.clock d).run.run world with
      | mk time mid =>
          have hd := (Passes.inWorld hclock entries).minuted (.date d)
          cases time with
          | error e =>
              rw [run_bind_error hclock] at h
              cases h
              exact ⟨_, .undated, hd.bind_error⟩
          | ok time =>
              rw [run_bind_ok hclock, pure_bind] at h
              obtain ⟨made, hround, hpasses⟩ := ih h
              refine ⟨_, .dated hround, hd.bind ?_⟩
              rw [pure_bind]
              exact hpasses

variable (c) in
/-- **The minutes of finding a last modification**: the closure is not there, or it is
walked and dated. -/
inductive Walk (className : String) : Option Error → List Minute → Prop
  | unresolved {e : Error} (missing : c.registry.closure className = .error e) :
      Walk className (some e) (stopped [] (.latest className) e)
  | resolved {types : List Descriptor} {failure : Option Error} {made : List Minute}
      (closure : c.registry.closure className = .ok types) (round : Round types failure made) :
      Walk className failure (made ++ [⟨.latest className, failure⟩])

/-- The errands of a walk that nothing stops. -/
def walked (types : List Descriptor) (className : String) : List Errand :=
  types.map .date ++ [.latest className]

theorem Walk.eq_of_finished {types : List Descriptor} {made : List Minute}
    (h : c.Walk className none made) (closure : c.registry.closure className = .ok types) :
    made = accomplished (walked types className) := by
  cases h with
  | resolved closure' round =>
      cases closure.symm.trans closure'
      rw [round.eq_of_finished, walked, accomplished_append]
      rfl

/-- What fails in a walk, fails for the reason for which the walk does. -/
theorem Walk.failed {failure : Option Error} {made : List Minute}
    (h : c.Walk className failure made) {errand : Errand} (hmem : ⟨errand, some e⟩ ∈ made) :
    failure = some e ∧ (errand = .latest className ∨ ∃ d, errand = .date d) := by
  cases h with
  | unresolved missing =>
      obtain ⟨rfl, rfl⟩ := mem_stopped_iff.1 hmem
      exact ⟨rfl, .inl rfl⟩
  | resolved closure round =>
      rcases List.mem_append.1 hmem with hround | hlast
      · obtain ⟨hfailure, hdate⟩ := round.failed hround
        exact ⟨hfailure, .inr hdate⟩
      · obtain ⟨rfl, hfailure⟩ := Minute.mk.inj (List.mem_singleton.1 hlast)
        exact ⟨hfailure.symm, .inl rfl⟩

/-- A walk that fails says so. -/
theorem Walk.mem_of_failed {made : List Minute} (h : c.Walk className (some e) made) :
    ⟨.latest className, some e⟩ ∈ made := by
  cases h with
  | unresolved => exact last_mem_stopped
  | resolved => exact List.mem_append_right _ List.mem_cons_self

/-- **Finding a last modification takes a walk.** -/
theorem passes_latest (entries : MapCache) {answer : Except Error Int}
    (h : (c.lastModification className).run.run world = (answer, world')) :
    ∃ made, c.Walk className (failure? answer) made
      ∧ Passes (c.collaborators.latest className) ⟨entries, world⟩ answer ⟨entries, world'⟩
          made := by
  unfold lastModification AnnotationCache.lastModification at h
  show ∃ made, _ ∧ Passes (minuted (.latest className)
    (AnnotationCache.lastModification c.registry c.minutedClock className)) _ _ _ _
  unfold AnnotationCache.lastModification
  cases hclosure : c.registry.closure className with
  | error e =>
      -- Without a closure there is nobody to date.
      rw [hclosure] at h
      cases h
      exact ⟨_, .unresolved hclosure, (Passes.failed e _).minuted _⟩
  | ok types =>
      rw [hclosure] at h
      obtain ⟨made, hround, hpasses⟩ := passes_latestOf entries h
      exact ⟨_, .resolved hclosure hround, hpasses.minuted _⟩

/-! ## §5. Transcripts. -/

section Transcripts

variable (c) (checking : Bool) (t : Target) (entries : MapCache) (world : ω)

/-- **Computing a result and writing it down**, with the time that was found before. -/
inductive Refreshing (last : Int) :
    Except Error (List Annotation) → Room ω → List Minute → Prop
  /-- No result can be computed. -/
  | uncomputed {e : Error} {world' : ω}
      (failed : (c.compute t).run.run world = (.error e, world')) :
      Refreshing last (.error e) ⟨entries, world'⟩ (stopped [] (.compute t) e)
  /-- The result cannot be written. -/
  | unwritten {list : List Annotation} {e : Error} {world' : ω}
      (computed : (c.compute t).run.run world = (.ok list, world'))
      (fault : c.unwritten (CacheKey.ofTarget t).text (.annotations list) = some e) :
      Refreshing last (.error e) ⟨entries, world'⟩
        (stopped [.compute t] (.set (CacheKey.ofTarget t).text (.annotations list)) e)
  /-- The result is written, and its marker cannot be. -/
  | unmarked {list : List Annotation} {e : Error} {world' : ω}
      (computed : (c.compute t).run.run world = (.ok list, world'))
      (written : c.unwritten (CacheKey.ofTarget t).text (.annotations list) = none)
      (fault : c.unwritten (CacheKey.ofTarget t).marker (.timestamp last) = some e) :
      Refreshing last (.error e)
        ⟨entries.write c.accepts (CacheKey.ofTarget t).text (.annotations list), world'⟩
        (stopped [.compute t, .set (CacheKey.ofTarget t).text (.annotations list)]
          (.set (CacheKey.ofTarget t).marker (.timestamp last)) e)
  /-- The result is written, and its marker. -/
  | recorded {list : List Annotation} {world' : ω}
      (computed : (c.compute t).run.run world = (.ok list, world'))
      (written : c.unwritten (CacheKey.ofTarget t).text (.annotations list) = none)
      (marked : c.unwritten (CacheKey.ofTarget t).marker (.timestamp last) = none) :
      Refreshing last (.ok list) ⟨entries.recorded c.accepts t list last, world'⟩
        (accomplished [.compute t, .set (CacheKey.ofTarget t).text (.annotations list),
          .set (CacheKey.ofTarget t).marker (.timestamp last)])

/-- What is looked up before the class is dated: its marker only where there is a
result to check. -/
def lookups : List Errand :=
  .get (CacheKey.ofTarget t).text
    :: if checking ∧ (entries.result? t).isSome then [.get (CacheKey.ofTarget t).marker] else []

/-- **What is asked during a read**, what it answers and what it leaves. -/
inductive Transcript : Except Error (List Annotation) → Room ω → List Minute → Prop
  /-- The cache does not say what is stored. -/
  | unread {e : Error} (fault : c.unread (CacheKey.ofTarget t).text = some e) :
      Transcript (.error e) ⟨entries, world⟩ (stopped [] (.get (CacheKey.ofTarget t).text) e)
  /-- Nobody checks, so the stored result counts. -/
  | trusted {list : List Annotation} (unchecked : checking = false)
      (stored : entries.result? t = some list) :
      Transcript (.ok list) ⟨entries, world⟩ (accomplished [.get (CacheKey.ofTarget t).text])
  /-- The stored result is to be checked, and the cache does not say what its marker is. -/
  | unmarked {list : List Annotation} {e : Error} (checked : checking = true)
      (stored : entries.result? t = some list)
      (fault : c.unread (CacheKey.ofTarget t).marker = some e) :
      Transcript (.error e) ⟨entries, world⟩
        (stopped [.get (CacheKey.ofTarget t).text] (.get (CacheKey.ofTarget t).marker) e)
  /-- The class is asked for its time, and cannot be dated. -/
  | undated {e : Error} {world' : ω} {made : List Minute}
      (unsettled : ∀ old, entries.result? t = some old → checking = true)
      (failed : (c.lastModification t.className).run.run world = (.error e, world'))
      (walk : c.Walk t.className (some e) made) :
      Transcript (.error e) ⟨entries, world'⟩ (accomplished (lookups checking t entries) ++ made)
  /-- The stored result counts because its marker is no older than the class. -/
  | verified {list : List Annotation} {last time : Int} {world' : ω} {made : List Minute}
      (checked : checking = true) (stored : entries.result? t = some list)
      (dated : (c.lastModification t.className).run.run world = (.ok last, world'))
      (walk : c.Walk t.className none made) (marked : entries.marker? t = some time)
      (recent : last ≤ time) :
      Transcript (.ok list) ⟨entries, world'⟩ (accomplished (lookups checking t entries) ++ made)
  /-- Nothing that is stored counts, so the result is computed. -/
  | refreshed {last : Int} {world' : ω} {made made' : List Minute}
      {result : Except Error (List Annotation)} {room : Room ω}
      (outdated : Outdated checking t entries last)
      (dated : (c.lastModification t.className).run.run world = (.ok last, world'))
      (walk : c.Walk t.className none made)
      (rest : c.Refreshing t entries world' last result room made') :
      Transcript result room (accomplished (lookups checking t entries) ++ (made ++ made'))

end Transcripts

/-- **Does a conversation end with this answer**, in this room, with these minutes? -/
abbrev Ends (c : Company ω) (dialogue : Dialogue) (start : Room ω)
    (result : Except Error (List Annotation)) (room : Room ω) (made : List Minute) : Prop :=
  Passes (dialogue.run c.collaborators) start result room made

/-- A refresh goes one of its four ways. -/
theorem refreshing_refresh (c : Company ω) (t : Target) (entries : MapCache) (world : ω)
    (last : Int) :
    ∃ result room made, c.Refreshing t entries world last result room made
      ∧ c.Ends (Dialogue.refresh t last) ⟨entries, world⟩ result room made := by
  cases hcompute : (c.compute t).run.run world with
  | mk answer world' =>
      have hcomputed := passes_compute entries hcompute
      cases answer with
      | error e => exact ⟨_, _, _, .uncomputed hcompute, hcomputed.bind_error⟩
      | ok list =>
          -- The marker is written only when the result has been.
          cases htext : c.unwritten (CacheKey.ofTarget t).text (.annotations list) with
          | some e =>
              exact ⟨_, _, _, .unwritten hcompute htext,
                hcomputed.bind (passes_set_of_fault htext).bind_error⟩
          | none =>
              cases hmarker : c.unwritten (CacheKey.ofTarget t).marker (.timestamp last) with
              | some e =>
                  exact ⟨_, _, _, .unmarked hcompute htext hmarker,
                    hcomputed.bind ((passes_set htext).bind
                      (passes_set_of_fault hmarker).bind_error)⟩
              | none =>
                  exact ⟨_, _, _, .recorded hcompute htext hmarker,
                    hcomputed.bind ((passes_set htext).bind
                      ((passes_set hmarker).bind (.done list _)))⟩

theorem lookups_of_missing (checking : Bool) (h : entries.result? t = none) :
    lookups checking t entries = [.get (CacheKey.ofTarget t).text] := by
  simp [lookups, h]

theorem lookups_of_checked {list : List Annotation} (h : entries.result? t = some list) :
    lookups true t entries
      = [.get (CacheKey.ofTarget t).text, .get (CacheKey.ofTarget t).marker] := by
  simp [lookups, h]

/-- A conversation that begins with a look-up. -/
theorem ends_get {next : Option CacheValue → Dialogue} {result : Except Error (List Annotation)}
    {room : Room ω} {made : List Minute} (h : c.unread key = none)
    (hnext : c.Ends (next (entries.get? key)) ⟨entries, world⟩ result room made) :
    c.Ends (.get key next) ⟨entries, world⟩ result room (⟨.get key, none⟩ :: made) :=
  (passes_get h).bind hnext

/-- Where no result is stored, the class is dated and a result computed. -/
theorem transcript_missing (c : Company ω) (checking : Bool) (world : ω)
    (hread : c.unread (CacheKey.ofTarget t).text = none) (hmissing : entries.result? t = none) :
    ∃ result room made, c.Transcript checking t entries world result room made
      ∧ c.Ends (Dialogue.cachedRead checking t) ⟨entries, world⟩ result room made := by
  have hlookups := lookups_of_missing checking hmissing
  have hgone : ∀ old, entries.result? t ≠ some old := by
    intro old hold
    cases hmissing.symm.trans hold
  -- The first look-up leaves a conversation that asks for the time of the class.
  have hbegins : ∀ {result room made},
      c.Ends (.latest t.className fun last => Dialogue.refresh t last) ⟨entries, world⟩ result
        room made →
      c.Ends (Dialogue.cachedRead checking t) ⟨entries, world⟩ result room
        (accomplished (lookups checking t entries) ++ made) := by
    intro result room made h
    rw [hlookups]
    refine ends_get hread ?_
    rw [show (entries.get? (CacheKey.ofTarget t).text).bind _ = none from hmissing]
    exact h
  cases hlast : (c.lastModification t.className).run.run world with
  | mk answer mid =>
      obtain ⟨walk, hwalk, hlatest⟩ := passes_latest entries hlast
      cases answer with
      | error e =>
          exact ⟨_, _, _, .undated (fun old hold => absurd hold (hgone old)) hlast hwalk,
            hbegins hlatest.bind_error⟩
      | ok last =>
          obtain ⟨result, room, made, hrest, hrefresh⟩ := refreshing_refresh c t entries mid last
          have houtdated : Outdated checking t entries last :=
            fun old hold => absurd hold (hgone old)
          exact ⟨_, _, _, .refreshed houtdated hlast hwalk hrest, hbegins (hlatest.bind hrefresh)⟩

/-- How a read goes on when the marker of a stored result has been looked up and the
class has been dated. -/
abbrev judgement (t : Target) (list : List Annotation) (marker : Option CacheValue) (last : Int) :
    Dialogue :=
  if Dialogue.vouches marker last then .done list else Dialogue.refresh t last

/-- A stored result whose class is dated counts, or is computed again. -/
theorem transcript_judged {list : List Annotation} {last : Int} {mid : ω} {walk : List Minute}
    (hstored : entries.result? t = some list)
    (hdated : (c.lastModification t.className).run.run world = (.ok last, mid))
    (hwalk : c.Walk t.className none walk) :
    ∃ result room made,
      c.Transcript true t entries world result room
          (accomplished (lookups true t entries) ++ (walk ++ made))
        ∧ c.Ends (judgement t list (entries.get? (CacheKey.ofTarget t).marker) last) ⟨entries, mid⟩
            result room made := by
  unfold judgement
  by_cases hvouches : Dialogue.vouches (entries.get? (CacheKey.ofTarget t).marker) last = true
  · obtain ⟨time, hmarked, hrecent⟩ := Sources.vouches_iff.1 hvouches
    rw [if_pos hvouches]
    refine ⟨_, _, [], ?_, .done list _⟩
    rw [List.append_nil]
    exact .verified rfl hstored hdated hwalk hmarked hrecent
  · obtain ⟨result, room, made, hrest, hrefresh⟩ := refreshing_refresh c t entries mid last
    rw [if_neg hvouches]
    have houtdated : Outdated true t entries last := Sources.outdated_of_not_vouches hvouches
    exact ⟨result, room, made, .refreshed houtdated hdated hwalk hrest, hrefresh⟩

/-- Where a result is stored that is to be checked, its marker is looked up and the
class is dated. -/
theorem transcript_checked (c : Company ω) (world : ω) {list : List Annotation}
    (hread : c.unread (CacheKey.ofTarget t).text = none) (hstored : entries.result? t = some list) :
    ∃ result room made, c.Transcript true t entries world result room made
      ∧ c.Ends (Dialogue.cachedRead true t) ⟨entries, world⟩ result room made := by
  -- What is stored is a list, so the next one to be asked for is its marker.
  have hbegins : ∀ {result room made},
      c.Ends (.get (CacheKey.ofTarget t).marker fun marker => .latest t.className fun last =>
          judgement t list marker last) ⟨entries, world⟩ result room made →
      c.Ends (Dialogue.cachedRead true t) ⟨entries, world⟩ result room
        (⟨.get (CacheKey.ofTarget t).text, none⟩ :: made) := by
    intro result room made h
    refine ends_get hread ?_
    rw [show (entries.get? (CacheKey.ofTarget t).text).bind _ = some list from hstored]
    exact h
  cases hmarker : c.unread (CacheKey.ofTarget t).marker with
  | some e =>
      exact ⟨_, _, _, .unmarked rfl hstored hmarker,
        hbegins (passes_get_of_fault hmarker).bind_error⟩
  | none =>
      have hasks : ∀ {result room made},
          c.Ends (.latest t.className fun last =>
              judgement t list (entries.get? (CacheKey.ofTarget t).marker) last) ⟨entries, world⟩
            result room made →
          c.Ends (Dialogue.cachedRead true t) ⟨entries, world⟩ result room
            (accomplished (lookups true t entries) ++ made) := by
        intro result room made h
        rw [lookups_of_checked hstored]
        exact hbegins (ends_get hmarker h)
      cases hlast : (c.lastModification t.className).run.run world with
      | mk answer mid =>
          obtain ⟨walk, hwalk, hlatest⟩ := passes_latest entries hlast
          cases answer with
          | error e =>
              exact ⟨_, _, _, .undated (fun _ _ => rfl) hlast hwalk, hasks hlatest.bind_error⟩
          | ok last =>
              obtain ⟨result, room, made, htranscript, hjudged⟩ :=
                transcript_judged hstored hlast hwalk
              exact ⟨result, room, _, htranscript, hasks (hlatest.bind hjudged)⟩

/-- **A conversation has a transcript.** -/
theorem transcript_cachedRead (c : Company ω) (checking : Bool) (t : Target) (entries : MapCache)
    (world : ω) :
    ∃ result room made, c.Transcript checking t entries world result room made
      ∧ c.Ends (Dialogue.cachedRead checking t) ⟨entries, world⟩ result room made := by
  cases hread : c.unread (CacheKey.ofTarget t).text with
  | some e => exact ⟨_, _, _, .unread hread, (passes_get_of_fault hread).bind_error⟩
  | none =>
      cases hstored : entries.result? t with
      | none => exact transcript_missing c checking world hread hstored
      | some list =>
          cases checking with
          | true => exact transcript_checked c world hread hstored
          | false =>
              refine ⟨_, _, _, .trusted rfl hstored, ends_get hread ?_⟩
              rw [show (entries.get? (CacheKey.ofTarget t).text).bind _ = some list from hstored]
              exact .done list _

/-- **A read of what is not remembered has a transcript.** -/
theorem attend_of_forgotten (c : Company ω) {r : CachedReader} (entries : MapCache) (world : ω)
    (h : r.loaded.get? (CacheKey.ofTarget t).text = none) :
    ∃ result room made, c.Transcript r.checking t entries world result room made
      ∧ c.attend r t ⟨entries, world⟩ = ((result, r.remember t result), room, made) := by
  obtain ⟨result, room, made, htranscript, hends⟩ :=
    transcript_cachedRead c r.checking t entries world
  exact ⟨result, room, made, htranscript, CachedReader.read_of_forgotten h (hends [])⟩

/-- A read of what is remembered has no minutes. -/
theorem attend_of_remembered (c : Company ω) {r : CachedReader} {list : List Annotation}
    (start : Room ω) (h : r.loaded.get? (CacheKey.ofTarget t).text = some list) :
    c.attend r t start = ((.ok list, r), start, []) :=
  CachedReader.read_of_remembered h

end Company

end AnnotationCache

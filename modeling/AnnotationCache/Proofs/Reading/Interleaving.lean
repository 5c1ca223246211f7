/-
  AnnotationCache.Proofs.Reading.Interleaving
  ───────────────────────────────────────────
  **READS THAT TAKE TURNS.**

  Several readers read one target over one map, and the world is edited under
  their hands.  Each request of a read is one turn; turns and edits come in any
  order.  Nothing locks the two entries of the target, and the last write wins:
  so the result of one read may end up beside the marker of another one.

  What is on record has a provenance, the moment at which the result was
  computed and the moment at which its class was dated (`Stage.listFrom`,
  `Stage.markFrom`).  Only a result that is older than its marker can be stale
  and trusted; the two are then from different reads, one of which computed
  before an edit and one of which dated the class after it.

  Main statements:
    * `exists_turns_converse`      — turns of one reader alone are its read;
    * `Stage.Sound.step`           — every turn keeps track of the provenance;
    * `reread_of_interleaved`      — a result that is no older than its marker is
      never stale, in whatever order the turns came;
    * `interleaved_may_be_stale`   — one that is older may be.
-/
import AnnotationCache.Proofs.Reading.Timeline

namespace AnnotationCache

/-! ## §1. Turns of one read. -/

/-- Where a read stands: it still talks, or it has ended. -/
inductive Talk where
  | going (rest : Dialogue)
  | ended (result : Except Error (List Annotation))

namespace Talk

/-- **One turn**: the next request of a read, answered by a world and a map that
keeps every write. -/
def turn (w : World) (ignored : List String) (entries : MapCache) : Talk → Talk × MapCache
  | ended result => (ended result, entries)
  | going (.done list) => (ended (.ok list), entries)
  | going (.get key next) => (going (next (entries.get? key)), entries)
  | going (.latest className next) =>
      match w.lastModification className with
      | .ok time => (going (next time), entries)
      | .error e => (ended (.error e), entries)
  | going (.compute t next) =>
      match (w.declared ignored).read t with
      | .ok list => (going (next list), entries)
      | .error e => (ended (.error e), entries)
  | going (.set key value next) => (going (next true), entries.insert key value)

section Equations

variable {w : World} {ignored : List String} {entries : MapCache}

theorem turn_latest_ok {className : String} {time : Int}
    (h : w.lastModification className = .ok time) (next : Int → Dialogue) :
    (going (.latest className next)).turn w ignored entries = (going (next time), entries) := by
  simp only [turn, h]

theorem turn_latest_error {className : String} {e : Error}
    (h : w.lastModification className = .error e) (next : Int → Dialogue) :
    (going (.latest className next)).turn w ignored entries = (ended (.error e), entries) := by
  simp only [turn, h]

theorem turn_compute_ok {t : Target} {list : List Annotation}
    (h : (w.declared ignored).read t = .ok list) (next : List Annotation → Dialogue) :
    (going (.compute t next)).turn w ignored entries = (going (next list), entries) := by
  simp only [turn, h]

theorem turn_compute_error {t : Target} {e : Error}
    (h : (w.declared ignored).read t = .error e) (next : List Annotation → Dialogue) :
    (going (.compute t next)).turn w ignored entries = (ended (.error e), entries) := by
  simp only [turn, h]

end Equations

/-- So many turns in a row. -/
def turns (w : World) (ignored : List String) : Nat → Talk × MapCache → Talk × MapCache
  | 0, s => s
  | n + 1, s => turns w ignored n (s.1.turn w ignored s.2)

/-- **A read that is left alone** comes to the end that its conversation has, with
the map that the conversation leaves. -/
theorem exists_turns_converse (w : World) (ignored : List String) (dialogue : Dialogue) :
    ∀ entries : MapCache, ∃ n, turns w ignored n (going dialogue, entries)
      = (ended ((w.sources ignored).converse MapCache.keepAll dialogue entries).1,
          ((w.sources ignored).converse MapCache.keepAll dialogue entries).2) := by
  -- Each request takes one turn, and its answer says which conversation goes on.
  induction dialogue with
  | done list =>
      intro entries
      exact ⟨1, rfl⟩
  | get key next ih =>
      intro entries
      obtain ⟨n, hn⟩ := ih (entries.get? key) entries
      exact ⟨n + 1, hn⟩
  | latest className next ih =>
      intro entries
      cases hlatest : (w.sources ignored).latest className with
      | error e =>
          rw [Sources.converse_latest_error hlatest]
          refine ⟨1, ?_⟩
          show (going (.latest className next)).turn w ignored entries = _
          exact turn_latest_error hlatest next
      | ok time =>
          rw [Sources.converse_latest_ok hlatest]
          obtain ⟨n, hn⟩ := ih time entries
          refine ⟨n + 1, ?_⟩
          show turns w ignored n ((going (.latest className next)).turn w ignored entries) = _
          rw [turn_latest_ok hlatest]
          exact hn
  | compute t next ih =>
      intro entries
      cases hcompute : (w.sources ignored).compute t with
      | error e =>
          rw [Sources.converse_compute_error hcompute]
          exact ⟨1, turn_compute_error hcompute next⟩
      | ok list =>
          rw [Sources.converse_compute_ok hcompute]
          obtain ⟨n, hn⟩ := ih list entries
          refine ⟨n + 1, ?_⟩
          show turns w ignored n ((going (.compute t next)).turn w ignored entries) = _
          rw [turn_compute_ok hcompute]
          exact hn
  | set key value next ih =>
      intro entries
      rw [Sources.converse_set]
      obtain ⟨n, hn⟩ := ih true (entries.insert key value)
      exact ⟨n + 1, hn⟩

end Talk

/-! ## §2. Readers on one stage. -/

/-- A reader on the stage: its read, and the moments at which it last dated the
class and last computed a result. -/
structure Player where
  talk : Talk
  dated : Nat := 0
  computed : Nat := 0

/-- **The stage**: the moment, the map, the readers by number, and the moments
that what is on record is from. -/
structure Stage where
  moment : Nat
  entries : MapCache
  players : Nat → Player
  /-- When the result on record was computed. -/
  listFrom : Nat
  /-- When the class was dated for the marker on record. -/
  markFrom : Nat

/-- What can come next. -/
inductive Cue where
  /-- A reader takes a turn. -/
  | turn (player : Nat)
  /-- The world moves on. -/
  | edit
  deriving Repr, DecidableEq

namespace Player

/-- A player after a turn at a moment; it notes the moments of its answers. -/
def moved (p : Player) (moment : Nat) (talk : Talk) : Player :=
  match p.talk with
  | .going (.latest _ _) => { p with talk := talk, dated := moment }
  | .going (.compute _ _) => { p with talk := talk, computed := moment }
  | _ => { p with talk := talk }

/-- When the result on record was computed, after a turn of the player. -/
def listFrom (p : Player) (before : Nat) : Nat :=
  match p.talk with
  | .going (.set _ (.annotations _) _) => p.computed
  | _ => before

/-- When the class was dated for the marker on record, after a turn of the player. -/
def markFrom (p : Player) (before : Nat) : Nat :=
  match p.talk with
  | .going (.set _ (.timestamp _) _) => p.dated
  | _ => before

end Player

namespace Stage

/-- Readers that check and have returned nothing, about to read a target over an
empty map. -/
def opened (t : Target) : Stage where
  moment := 0
  entries := Dict.empty
  players _ := { talk := .going (Dialogue.cachedRead true t) }
  listFrom := 0
  markFrom := 0

/-- **One step of a schedule.** -/
def step (world : Nat → World) (ignored : List String) (s : Stage) : Cue → Stage
  | .edit => { s with moment := s.moment + 1 }
  | .turn i =>
      let p := s.players i
      let (talk, entries) := p.talk.turn (world s.moment) ignored s.entries
      { moment := s.moment
        entries := entries
        players := fun j => if j = i then p.moved s.moment talk else s.players j
        listFrom := p.listFrom s.listFrom
        markFrom := p.markFrom s.markFrom }

/-- **The stage after a schedule.** -/
def play (world : Nat → World) (ignored : List String) (s : Stage) (schedule : List Cue) : Stage :=
  schedule.foldl (step world ignored) s

end Stage

/-! ## §3. The provenance of what is on record. -/

/-- A marker was taken at a moment. -/
def DatedAt (world : Nat → World) (t : Target) (now : Nat) (time : Int) (moment : Nat) : Prop :=
  moment ≤ now ∧ (world moment).lastModification t.className = .ok time

/-- A result was computed at a moment. -/
def ComputedAt (world : Nat → World) (ignored : List String) (t : Target) (now : Nat)
    (list : List Annotation) (moment : Nat) : Prop :=
  moment ≤ now ∧ ((world moment).declared ignored).read t = .ok list

/-- Writes a result, and then its marker. -/
def storing (t : Target) (list : List Annotation) (time : Int) : Dialogue :=
  .set (CacheKey.ofTarget t).text (.annotations list) fun _ =>
    .set (CacheKey.ofTarget t).marker (.timestamp time) fun _ => .done list

/-- Answers a result that a marker vouches for, or computes it again. -/
def settling (t : Target) (list : List Annotation) (marker : Option CacheValue) (time : Int) :
    Dialogue :=
  if Dialogue.vouches marker time then .done list else Dialogue.refresh t time

/-- **Where a reader of a target can stand**, with what it knows by then. -/
inductive Player.Stands (world : Nat → World) (ignored : List String) (t : Target) (now : Nat) :
    Player → Prop
  /-- About to ask for the result. -/
  | asking {p : Player} (h : p.talk = .going (Dialogue.cachedRead true t)) :
      Stands world ignored t now p
  /-- About to ask for the marker. -/
  | found {p : Player} {list : List Annotation}
      (h : p.talk = .going (.get (CacheKey.ofTarget t).marker fun marker =>
        .latest t.className (settling t list marker))) : Stands world ignored t now p
  /-- About to date the class, for a result on record or for none. -/
  | dating {p : Player} {next : Int → Dialogue}
      (hnext : ∀ time, next time = Dialogue.refresh t time ∨ ∃ list, next time = .done list)
      (h : p.talk = .going (.latest t.className next)) : Stands world ignored t now p
  /-- About to compute the result. -/
  | computing {p : Player} {time : Int} (dated : DatedAt world t now time p.dated)
      (h : p.talk = .going (Dialogue.refresh t time)) : Stands world ignored t now p
  /-- About to write the result. -/
  | listing {p : Player} {time : Int} {list : List Annotation}
      (dated : DatedAt world t now time p.dated)
      (computed : ComputedAt world ignored t now list p.computed)
      (h : p.talk = .going (storing t list time)) : Stands world ignored t now p
  /-- About to write the marker. -/
  | marking {p : Player} {time : Int} {list : List Annotation}
      (dated : DatedAt world t now time p.dated)
      (h : p.talk = .going (.set (CacheKey.ofTarget t).marker (.timestamp time) fun _ =>
        .done list)) : Stands world ignored t now p
  /-- About to answer. -/
  | answering {p : Player} {list : List Annotation} (h : p.talk = .going (.done list)) :
      Stands world ignored t now p
  /-- Done. -/
  | ended {p : Player} {result : Except Error (List Annotation)} (h : p.talk = .ended result) :
      Stands world ignored t now p

/-- **What holds all through a schedule**: every reader stands somewhere, and what
is on record is from the moments that are noted for it. -/
structure Stage.Sound (world : Nat → World) (ignored : List String) (t : Target) (s : Stage) :
    Prop where
  players : ∀ i, (s.players i).Stands world ignored t s.moment
  listed : ∀ list, s.entries.result? t = some list →
    ComputedAt world ignored t s.moment list s.listFrom
  marked : ∀ time, s.entries.marker? t = some time → DatedAt world t s.moment time s.markFrom

/-! ## §4. One turn. -/

section Turn

variable {world : Nat → World} {ignored : List String} {t : Target} {now : Nat}

/-- **What a turn can write**: nothing, a result, or a marker, each with the moment
it is from. -/
inductive Player.Writes (world : Nat → World) (ignored : List String) (t : Target) (now : Nat)
    (p : Player) (entries after : MapCache) : Prop
  | nothing (same : after = entries) (list : ∀ m, p.listFrom m = m) (mark : ∀ m, p.markFrom m = m)
  | result {found : List Annotation} (computed : ComputedAt world ignored t now found p.computed)
      (wrote : after = entries.write MapCache.keepAll (CacheKey.ofTarget t).text
        (.annotations found))
      (list : ∀ m, p.listFrom m = p.computed) (mark : ∀ m, p.markFrom m = m)
  | marker {time : Int} (dated : DatedAt world t now time p.dated)
      (wrote : after = entries.write MapCache.keepAll (CacheKey.ofTarget t).marker
        (.timestamp time))
      (list : ∀ m, p.listFrom m = m) (mark : ∀ m, p.markFrom m = p.dated)

/-- With no result on record a read dates the class, to compute a result. -/
theorem Talk.turn_cachedRead_none {w : World} {entries : MapCache}
    (h : (entries.get? (CacheKey.ofTarget t).text).bind CacheValue.asAnnotations = none) :
    (going (Dialogue.cachedRead true t)).turn w ignored entries
      = (going (.latest t.className (Dialogue.refresh t)), entries) := by
  simp only [Talk.turn, Dialogue.cachedRead, h]

/-- With a result on record a read asks for the marker of it. -/
theorem Talk.turn_cachedRead_some {w : World} {entries : MapCache} {list : List Annotation}
    (h : (entries.get? (CacheKey.ofTarget t).text).bind CacheValue.asAnnotations = some list) :
    (going (Dialogue.cachedRead true t)).turn w ignored entries
      = (going (.get (CacheKey.ofTarget t).marker fun marker =>
          .latest t.className (settling t list marker)), entries) := by
  simp only [Talk.turn, Dialogue.cachedRead, h]
  rfl

/-- **One turn** leaves the reader where a reader can stand, and writes what a
reader can write. -/
theorem Player.Stands.turn {p : Player} (hp : p.Stands world ignored t now) (entries : MapCache) :
    (p.moved now (p.talk.turn (world now) ignored entries).1).Stands world ignored t now
      ∧ p.Writes world ignored t now entries (p.talk.turn (world now) ignored entries).2 := by
  obtain ⟨talk, dated, computed⟩ := p
  -- Where a reader stands says what it asks for next, and so what the turn can do.
  cases hp with
  | asking h =>
      cases h
      cases hstored : (entries.get? (CacheKey.ofTarget t).text).bind CacheValue.asAnnotations with
      | none =>
          rw [Talk.turn_cachedRead_none hstored]
          exact ⟨.dating (fun _ => .inl rfl) rfl, .nothing rfl (fun _ => rfl) fun _ => rfl⟩
      | some list =>
          rw [Talk.turn_cachedRead_some hstored]
          exact ⟨.found rfl, .nothing rfl (fun _ => rfl) fun _ => rfl⟩
  | @found list h =>
      cases h
      refine ⟨.dating ?_ rfl, .nothing rfl (fun _ => rfl) fun _ => rfl⟩
      intro time
      unfold settling
      split
      · exact .inr ⟨list, rfl⟩
      · exact .inl rfl
  | @dating next hnext h =>
      cases h
      cases hlatest : (world now).lastModification t.className with
      | error e =>
          rw [Talk.turn_latest_error hlatest]
          exact ⟨.ended rfl, .nothing rfl (fun _ => rfl) fun _ => rfl⟩
      | ok time =>
          rw [Talk.turn_latest_ok hlatest]
          refine ⟨?_, .nothing rfl (fun _ => rfl) fun _ => rfl⟩
          rcases hnext time with hrefresh | ⟨list, hdone⟩
          · exact .computing ⟨Nat.le_refl now, hlatest⟩ (congrArg Talk.going hrefresh)
          · exact .answering (congrArg Talk.going hdone)
  | @computing time hdated h =>
      cases h
      unfold Dialogue.refresh
      cases hcompute : ((world now).declared ignored).read t with
      | error e =>
          rw [Talk.turn_compute_error hcompute]
          exact ⟨.ended rfl, .nothing rfl (fun _ => rfl) fun _ => rfl⟩
      | ok list =>
          rw [Talk.turn_compute_ok hcompute]
          exact ⟨.listing hdated ⟨Nat.le_refl now, hcompute⟩ rfl, .nothing rfl (fun _ => rfl) fun _ => rfl⟩
  | @listing time list hdated hcomputed h =>
      cases h
      exact ⟨.marking hdated rfl, .result hcomputed rfl (fun _ => rfl) fun _ => rfl⟩
  | @marking time list hdated h =>
      cases h
      exact ⟨.answering rfl, .marker hdated rfl (fun _ => rfl) fun _ => rfl⟩
  | answering h =>
      cases h
      exact ⟨.ended rfl, .nothing rfl (fun _ => rfl) fun _ => rfl⟩
  | ended h =>
      cases h
      exact ⟨.ended rfl, .nothing rfl (fun _ => rfl) fun _ => rfl⟩

/-- After what a turn has written the result on record is from when it is said to be. -/
theorem Player.Writes.listed {p : Player} {entries after : MapCache} {before : Nat}
    (h : p.Writes world ignored t now entries after)
    (hbefore : ∀ list, entries.result? t = some list → ComputedAt world ignored t now list before) :
    ∀ list, after.result? t = some list →
      ComputedAt world ignored t now list (p.listFrom before) := by
  cases h with
  | nothing same list mark =>
      rw [same, list]
      exact hbefore
  | result computed wrote list mark =>
      rw [wrote, list, MapCache.result?_write_text]
      intro found hfound
      rw [← Option.some.inj hfound]
      exact computed
  | marker dated wrote list mark =>
      rw [wrote, list, MapCache.result?_write_marker]
      exact hbefore

/-- And so is the marker. -/
theorem Player.Writes.marked {p : Player} {entries after : MapCache} {before : Nat}
    (h : p.Writes world ignored t now entries after)
    (hbefore : ∀ time, entries.marker? t = some time → DatedAt world t now time before) :
    ∀ time, after.marker? t = some time → DatedAt world t now time (p.markFrom before) := by
  cases h with
  | nothing same list mark =>
      rw [same, mark]
      exact hbefore
  | result computed wrote list mark =>
      rw [wrote, mark, MapCache.marker?_write_text]
      exact hbefore
  | marker dated wrote list mark =>
      rw [wrote, mark, MapCache.marker?_write_marker]
      intro time htime
      rw [← Option.some.inj htime]
      exact dated

/-- A reader still stands where it stood when the world has moved on. -/
theorem Player.Stands.later {p : Player} (hp : p.Stands world ignored t now) :
    p.Stands world ignored t (now + 1) := by
  cases hp with
  | asking h => exact .asking h
  | found h => exact .found h
  | dating hnext h => exact .dating hnext h
  | computing hdated h => exact .computing ⟨Nat.le_succ_of_le hdated.1, hdated.2⟩ h
  | listing hdated hcomputed h =>
      exact .listing ⟨Nat.le_succ_of_le hdated.1, hdated.2⟩
        ⟨Nat.le_succ_of_le hcomputed.1, hcomputed.2⟩ h
  | marking hdated h => exact .marking ⟨Nat.le_succ_of_le hdated.1, hdated.2⟩ h
  | answering h => exact .answering h
  | ended h => exact .ended h

end Turn

/-! ## §5. Schedules. -/

namespace Stage

variable {world : Nat → World} {ignored : List String} {t : Target} {s : Stage}

theorem sound_opened (world : Nat → World) (ignored : List String) (t : Target) :
    (opened t).Sound world ignored t where
  players _ := .asking rfl
  listed list hstored := by cases hstored
  marked time hmarked := by cases hmarked

/-- An edit keeps the invariant. -/
theorem Sound.edit (hs : s.Sound world ignored t) :
    (s.step world ignored .edit).Sound world ignored t where
  players i := (hs.players i).later
  listed list hstored :=
    ⟨Nat.le_succ_of_le (hs.listed list hstored).1, (hs.listed list hstored).2⟩
  marked time hmarked :=
    ⟨Nat.le_succ_of_le (hs.marked time hmarked).1, (hs.marked time hmarked).2⟩

/-- A turn keeps the invariant, whoever takes it. -/
theorem Sound.turn (hs : s.Sound world ignored t) (i : Nat) :
    (s.step world ignored (.turn i)).Sound world ignored t := by
  obtain ⟨hstands, hwrites⟩ := (hs.players i).turn s.entries
  refine ⟨?_, hwrites.listed hs.listed, hwrites.marked hs.marked⟩
  intro j
  show Player.Stands world ignored t s.moment (if j = i then _ else s.players j)
  split
  · exact hstands
  · exact hs.players j

/-- **One step of a schedule keeps the invariant.** -/
theorem Sound.step (hs : s.Sound world ignored t) (cue : Cue) :
    (s.step world ignored cue).Sound world ignored t := by
  cases cue with
  | turn i => exact hs.turn i
  | edit => exact hs.edit

/-- **A schedule keeps the invariant.** -/
theorem Sound.play {schedule : List Cue} : ∀ {s : Stage}, s.Sound world ignored t →
    (s.play world ignored schedule).Sound world ignored t := by
  induction schedule with
  | nil => exact fun hs => hs
  | cons cue schedule ih => exact fun hs => ih (hs.step cue)

end Stage

/-- **In whatever order turns and edits came**, a checking read gives what is to be
read now, if the result on record was computed no earlier than its marker was
taken. -/
theorem reread_of_interleaved {world : Nat → World} (h : Timeline world) (ignored : List String)
    (t : Target) (schedule : List Cue) (accepts : MapCache.Rule)
    (hpaired : ((Stage.opened t).play world ignored schedule).markFrom
      ≤ ((Stage.opened t).play world ignored schedule).listFrom) :
    let s := (Stage.opened t).play world ignored schedule
    reread ((world s.moment).sources ignored) accepts s.entries t
      = (world s.moment).truth ignored t := by
  have hsound : ((Stage.opened t).play world ignored schedule).Sound world ignored t :=
    (Stage.sound_opened world ignored t).play
  apply reread_eq_truth h ignored
  intro list time hstored hmarked
  obtain ⟨hlist, hcomputed⟩ := hsound.listed list hstored
  obtain ⟨-, hdated⟩ := hsound.marked time hmarked
  exact ⟨_, _, hpaired, hlist, hdated, hcomputed⟩

/-- The method is a route before the trait is edited, and a template after. -/
def rerouted : Nat → World :=
  beforeAndAfter (routing.editedAt 1) (templating.editedAt 2)

theorem timeline_rerouted : Timeline rerouted := by
  apply timeline_beforeAndAfter
  apply World.editedAt_follows (w := routing) (u := templating) rfl rfl (by decide) (by decide)
  intro v hv
  cases hv

/-- A reader has computed before the edit and writes after it; of the writes of the
other one the result comes last, and of its own the marker. -/
def crossedWrites : List Cue :=
  [.turn 0, .turn 0, .turn 0, .edit, .turn 1, .turn 1, .turn 1,
    .turn 0, .turn 1, .turn 1, .turn 0, .turn 1, .turn 0]

theorem reread_of_crossedWrites :
    Timeline rerouted
      ∧ ((Stage.opened (.ofMethod "App\\Page" "index")).play rerouted [] crossedWrites).markFrom = 0
      ∧ ((Stage.opened (.ofMethod "App\\Page" "index")).play rerouted [] crossedWrites).listFrom = 1
      ∧ reread ((rerouted 1).sources []) MapCache.keepAll
          ((Stage.opened (.ofMethod "App\\Page" "index")).play rerouted [] crossedWrites).entries
          (.ofMethod "App\\Page" "index")
        = .ok [{ name := "Template" }] := by
  have hreread := reread_of_interleaved timeline_rerouted [] (.ofMethod "App\\Page" "index")
    crossedWrites MapCache.keepAll (by decide)
  have htruth : (rerouted 1).truth [] (.ofMethod "App\\Page" "index")
      = .ok [{ name := "Template" }] := rfl
  exact ⟨timeline_rerouted, rfl, rfl, hreread.trans htruth⟩

/-- The same turns, but the other way round: the result of the reader that has
computed before the edit comes last, and the marker of the other one. -/
def tornWrites : List Cue :=
  [.turn 0, .turn 0, .turn 0, .edit, .turn 1, .turn 1, .turn 1,
    .turn 1, .turn 0, .turn 0, .turn 1, .turn 1, .turn 0]

/-- **A result may end up beside a marker that is younger**, and is then trusted
though it is stale: two readers take turns, there is one edit of a type in the
closure, and both readers come to their end. -/
theorem interleaved_may_be_stale :
    ¬ ∀ (world : Nat → World) (ignored : List String) (t : Target) (schedule : List Cue),
      Timeline world → schedule.count .edit = 1 →
        (∀ i, Cue.turn i ∈ schedule → i = 0 ∨ i = 1) →
        (∃ types, ∃ d ∈ types, (world 1).registry.closure t.className = .ok types
          ∧ ¬ (world 0).Has d) →
        (∀ i, i = 0 ∨ i = 1 → ∃ result,
          (((Stage.opened t).play world ignored schedule).players i).talk = .ended result) →
        (∃ time, (world 1).lastModification t.className = .ok time) →
          reread ((world 1).sources ignored) MapCache.keepAll
              ((Stage.opened t).play world ignored schedule).entries t
            = ((world 1).declared ignored).read t := by
  intro hreread
  -- The trait is changed, and with it what the method of the class is given.
  have hedited : ¬ (rerouted 0).Has (shownRoutes "Template") := by
    intro h
    have hsame : shownRoutes "Route" = shownRoutes "Template" := Except.ok.inj h
    have hname : some ["Route"] = some ["Template"] :=
      congrArg (fun d => (d.methods.get? "index").map (List.map Annotation.name)) hsame
    exact absurd hname (by decide)
  have hplayers : ∀ i, Cue.turn i ∈ tornWrites → i = 0 ∨ i = 1 := by
    intro i hi
    simp only [tornWrites, List.mem_cons, Cue.turn.injEq, reduceCtorEq, List.not_mem_nil,
      false_or, or_false] at hi
    omega
  have hended : ∀ i, i = 0 ∨ i = 1 → ∃ result,
      (((Stage.opened (.ofMethod "App\\Page" "index")).play rerouted [] tornWrites).players i).talk
        = .ended result := by
    rintro i (rfl | rfl)
    · exact ⟨_, rfl⟩
    · exact ⟨_, rfl⟩
  have hfresh := hreread rerouted [] (.ofMethod "App\\Page" "index") tornWrites timeline_rerouted
    rfl hplayers ⟨[shownPage, shownRoutes "Template"], _, List.mem_cons_of_mem _
      List.mem_cons_self, rfl, hedited⟩ hended ⟨2, rfl⟩
  -- What is read is what the first reader had computed before the edit.
  have hstale : reread ((rerouted 1).sources []) MapCache.keepAll
      ((Stage.opened (.ofMethod "App\\Page" "index")).play rerouted [] tornWrites).entries
      (.ofMethod "App\\Page" "index") = .ok [{ name := "Route" }] := rfl
  have hsame : [({ name := "Route" } : Annotation)] = [{ name := "Template" }] :=
    Except.ok.inj (hstale.symm.trans hfresh)
  exact absurd (congrArg (List.map Annotation.name) hsame) (by decide)

end AnnotationCache

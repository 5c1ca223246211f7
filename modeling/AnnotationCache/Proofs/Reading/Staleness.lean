/-
  AnnotationCache.Proofs.Reading.Staleness
  ────────────────────────────────────────
  **NO CHECKING READ IS STALE.**

  The world changes between reads: types come, change and go, and what is new
  in a world is younger than everything in the worlds before it.  Readers that
  check what is stored and readers that do not share one map, and the map loses
  entries.  A checking read still gives what is to be read in the world of its
  moment.

  Two facts are carried through a run (`History.Sound`):
    * a type of the present world stands in each earlier one as it is now, and
      was no younger there, or else it is younger than all types there;
    * a list on record under a marker was read in some world of the past in
      which its class was of the marker's age.
  If the marker is no older than the class is now, the second case of the first
  fact is out for every type of the closure.  So the closure is as it was then,
  and the list is what would be read now.

  Main statements:
    * `World.Succeeds.truth_eq`           — a class that is no younger than it
      was in an earlier world is read as it was there;
    * `History.Sound.step`                — one event keeps the two facts;
    * `checked_readings_eq_truth`         — no checking read of a run is stale.
-/
import AnnotationCache.Proofs.Reading.Age

namespace AnnotationCache

open AnnotationCache.Types (Registry Descriptor)

/-! ## §1. Worlds that come after others. -/

/-- **May a world come next?**  A type that stays as it is does not get younger
again; one that is new or has changed is younger than the epoch and than all
types of the worlds so far. -/
structure World.Follows (next now : World) (past : List World) : Prop where
  kept : ∀ d, now.Has d → next.Has d → now.time d ≤ next.time d
  changed : ∀ d, next.Has d → ¬ now.Has d →
    0 < next.time d ∧ ∀ w ∈ now :: past, ∀ e, w.Has e → w.time e < next.time d

/-- **What a world tells of an earlier one**: each of its types stood there as it
is and was no younger, or it is younger than everything there. -/
def World.Succeeds (now w : World) : Prop :=
  ∀ d, now.Has d → (w.Has d ∧ w.time d ≤ now.time d)
    ∨ (0 < now.time d ∧ ∀ e, w.Has e → w.time e < now.time d)

namespace World

theorem Succeeds.refl (w : World) : w.Succeeds w :=
  fun d hd => .inl ⟨hd, Int.le_refl (w.time d)⟩

/-- What the present world tells of an earlier one, the next world tells of it. -/
theorem Follows.succeeds {next now w : World} {past : List World} (h : next.Follows now past)
    (hw : w ∈ now :: past) (hnow : now.Succeeds w) : next.Succeeds w := by
  intro d hd
  by_cases hkept : now.Has d
  · -- The type was there before the edit, and is no younger than it was said to be.
    have hle : now.time d ≤ next.time d := h.kept d hkept hd
    rcases hnow d hkept with ⟨hthere, hold⟩ | ⟨hpos, hyounger⟩
    · left
      exact ⟨hthere, by omega⟩
    · right
      refine ⟨by omega, ?_⟩
      intro e he
      have hlt : w.time e < now.time d := hyounger e he
      omega
  · -- The edit has brought it, so it is younger than everything so far.
    right
    obtain ⟨hpos, hyounger⟩ := h.changed d hd hkept
    exact ⟨hpos, hyounger w hw⟩

/-- What is new since a world that the present one succeeds is younger than it. -/
theorem Succeeds.newSince {now w : World} (h : now.Succeeds w) : now.NewSince w w := by
  intro d hd hnew
  rcases h d hd with ⟨hthere, -⟩ | hyounger
  · exact absurd hthere hnew
  · exact hyounger

/-- **A class that is no younger than it was in an earlier world is read as it
was there.** -/
theorem Succeeds.truth_eq {now w : World} (h : now.Succeeds w) {t : Target}
    {current time : Int} (ignored : List String)
    (hcurrent : now.lastModification t.className = .ok current)
    (htime : w.lastModification t.className = .ok time) (hle : current ≤ time) :
    now.truth ignored t = w.truth ignored t := by
  calc now.truth ignored t
      = (w.declared ignored).read t := h.newSince.truth_eq ignored hcurrent htime hle
    _ = w.truth ignored t := ((w.sources ignored).truth_of_dated htime).symm

end World

/-! ## §2. Histories. -/

/-- The present world, the worlds before it, latest first, and the map. -/
structure History where
  now : World
  past : List World
  entries : MapCache

/-- What can happen. -/
inductive Event where
  /-- The world becomes another one. -/
  | edit (next : World)
  /-- An entry of the map is lost. -/
  | drop (key : String)
  /-- A reader that has returned nothing yet reads a target, checking or not. -/
  | read (checking : Bool) (target : Target)

/-- **A read that was made**: how, of what, in which world, and its result. -/
structure Reading where
  checking : Bool
  target : Target
  world : World
  result : Except Error (List Annotation)

namespace History

/-- A history that begins, with an empty map. -/
def opened (start : World) : History where
  now := start
  past := []
  entries := Dict.empty

/-- **A new reader reads a target**: the read, and the history afterwards. -/
def read (ignored : List String) (h : History) (checking : Bool) (t : Target) :
    Reading × History :=
  let ((result, _), after) :=
    ((CachedReader.opened checking).read (h.now.readers ignored) t).run h.entries
  (⟨checking, t, h.now, result⟩, { h with entries := after })

/-- **One event**: the read, if it is one, and the history afterwards. -/
def step (ignored : List String) (h : History) : Event → Option Reading × History
  | .edit next => (none, { h with now := next, past := h.now :: h.past })
  | .drop key => (none, { h with entries := h.entries.erase key })
  | .read checking t => (some (h.read ignored checking t).1, (h.read ignored checking t).2)

/-- **The reads of a run**, in order. -/
def readings (ignored : List String) : History → List Event → List Reading
  | _, [] => []
  | h, e :: events => (h.step ignored e).1.toList ++ readings ignored (h.step ignored e).2 events

/-- **Is a run permitted?**  Worlds follow each other as they may, and the
targets that are read are plain. -/
def Permitted : World → List World → List Event → Prop
  | _, _, [] => True
  | now, past, .edit next :: events => next.Follows now past ∧ Permitted next (now :: past) events
  | now, past, .drop _ :: events => Permitted now past events
  | now, past, .read _ t :: events => t.Plain ∧ Permitted now past events

/-! ## §3. The invariant. -/

/-- **What holds all through a run.** -/
structure Sound (ignored : List String) (h : History) : Prop where
  /-- The present world tells of all worlds. -/
  succeeds : ∀ w ∈ h.now :: h.past, h.now.Succeeds w
  /-- A list under a marker was read in a world in which the class had that age. -/
  paired : ∀ t : Target, t.Plain → ∀ list time, h.entries.result? t = some list →
    h.entries.marker? t = some time → ∃ w ∈ h.now :: h.past,
      w.lastModification t.className = .ok time ∧ w.truth ignored t = .ok list

theorem sound_opened (ignored : List String) (start : World) :
    (opened start).Sound ignored where
  succeeds w hw := by
    rw [List.mem_singleton.1 hw]
    exact World.Succeeds.refl start
  paired t _ list time hstored := by cases hstored

variable {ignored : List String} {h : History}

/-- A change of the world keeps the invariant. -/
theorem Sound.edit (hsound : h.Sound ignored) {next : World}
    (hnext : next.Follows h.now h.past) : (h.step ignored (.edit next)).2.Sound ignored where
  succeeds w hw := by
    rcases List.mem_cons.1 hw with rfl | hw
    · exact World.Succeeds.refl w
    · exact hnext.succeeds hw (hsound.succeeds w hw)
  paired t ht list time hstored hmarked := by
    obtain ⟨w, hw, hpaired⟩ := hsound.paired t ht list time hstored hmarked
    exact ⟨w, List.mem_cons_of_mem next hw, hpaired⟩

/-- The loss of an entry keeps the invariant. -/
theorem Sound.drop (hsound : h.Sound ignored) (key : String) :
    (h.step ignored (.drop key)).2.Sound ignored where
  succeeds := hsound.succeeds
  paired t ht list time hstored hmarked :=
    hsound.paired t ht list time (MapCache.result?_of_erase hstored)
      (MapCache.marker?_of_erase hmarked)

variable {checking : Bool} {t : Target} {result : Except Error (List Annotation)}
  {after : MapCache}

/-- A read keeps the invariant, whether it checks or not. -/
theorem Sound.read (hsound : h.Sound ignored) (ht : t.Plain)
    (hcourse : Sources.Course (h.now.sources ignored) MapCache.keepAll checking t h.entries
      (result, after)) : Sound ignored { h with entries := after } := by
  refine ⟨hsound.succeeds, ?_⟩
  cases hcourse with
  | trusted | verified | undated | uncomputed => exact hsound.paired
  | @refreshed current list dated computed =>
      intro t' ht' list' time' hstored hmarked
      rcases MapCache.result?_recorded hstored with ⟨hkey, rfl⟩ | ⟨hkey, hbefore⟩
      · -- Both values are the ones just written: they belong to the present world.
        rcases MapCache.marker?_recorded hmarked with ⟨-, rfl⟩ | ⟨hne, -⟩
        · refine ⟨h.now, List.mem_cons_self, ?_, ?_⟩
          · rw [World.lastModification_eq_of_ofTarget_eq ht' ht hkey]
            exact dated
          · rw [World.truth_eq_of_ofTarget_eq ht' ht hkey]
            exact (Sources.truth_of_dated _ dated).trans computed
        · exact absurd hkey hne
      · rcases MapCache.marker?_recorded hmarked with ⟨heq, -⟩ | ⟨-, hmarker⟩
        · exact absurd heq hkey
        · exact hsound.paired t' ht' list' time' hbefore hmarker

/-- **A checking read answers what there is to read now.** -/
theorem Sound.result_eq (hsound : h.Sound ignored) (ht : t.Plain)
    (hcourse : Sources.Course (h.now.sources ignored) MapCache.keepAll true t h.entries
      (result, after)) : result = h.now.truth ignored t := by
  apply hcourse.eq_truth
  intro list hstored hcounts
  obtain ⟨current, time, hcurrent, hmarked, hle⟩ := hcounts rfl
  obtain ⟨w, hw, htime, htruth⟩ := hsound.paired t ht list time hstored hmarked
  exact ((hsound.succeeds w hw).truth_eq ignored hcurrent htime hle).trans htruth

/-- A read in a history takes one of the courses. -/
theorem course_read (ignored : List String) (h : History) (checking : Bool) (t : Target) :
    ∃ result after,
      Sources.Course (h.now.sources ignored) MapCache.keepAll checking t h.entries (result, after)
        ∧ h.read ignored checking t
          = (⟨checking, t, h.now, result⟩, { h with entries := after }) := by
  obtain ⟨result, after, hcourse, hrun⟩ :=
    CachedReader.course_opened MapCache.keepAll (h.now.sources ignored) checking h.entries t
  refine ⟨result, after, hcourse, ?_⟩
  unfold read
  rw [h.now.readers_eq_beside, hrun]

/-! ## §4. Runs. -/

/-- **No checking read of a permitted run is stale.** -/
theorem Sound.readings_eq {events : List Event} : ∀ {h : History}, h.Sound ignored →
    Permitted h.now h.past events → ∀ reading ∈ h.readings ignored events,
      reading.checking = true → reading.result = reading.world.truth ignored reading.target := by
  induction events with
  | nil =>
      intro h _ _ reading hreading
      cases hreading
  | cons e events ih =>
      intro h hsound hpermitted reading hreading hchecking
      -- An edit and a loss give no read; a read gives one, in the present world.
      unfold readings at hreading
      cases e with
      | edit next =>
          exact ih (hsound.edit hpermitted.1) hpermitted.2 reading hreading hchecking
      | drop key => exact ih (hsound.drop key) hpermitted reading hreading hchecking
      | read checking t =>
          obtain ⟨result, after, hcourse, hread⟩ := h.course_read ignored checking t
          have hsplit : reading ∈ [(h.read ignored checking t).1]
              ∨ reading ∈ readings ignored (h.read ignored checking t).2 events :=
            List.mem_append.1 hreading
          rw [hread] at hsplit
          rcases hsplit with hthis | hlater
          · rw [show reading = ⟨checking, t, h.now, result⟩ from List.mem_singleton.1 hthis]
              at hchecking ⊢
            have hchecked : checking = true := hchecking
            subst hchecked
            exact hsound.result_eq hpermitted.1 hcourse
          · exact ih (hsound.read hpermitted.1 hcourse) hpermitted.2 reading hlater hchecking

end History

/-- **No checking read is stale**: in every permitted run that begins with an
empty map, a read that checks gives what a reader without a cache would give in
the world of that moment. -/
theorem checked_readings_eq_truth (ignored : List String) (start : World) (events : List Event)
    (hpermitted : History.Permitted start [] events) :
    ∀ reading ∈ (History.opened start).readings ignored events, reading.checking = true →
      reading.result = reading.world.truth ignored reading.target :=
  (History.sound_opened ignored start).readings_eq hpermitted

/-- A class that takes a method from a trait. -/
def shownPage : Descriptor :=
  { name := "App\\Page", traits := ["App\\Routes"] }

/-- The trait, with an annotation of the method. -/
def shownRoutes (name : String) : Descriptor :=
  { name := "App\\Routes", kind := .traitKind
    methods := Dict.empty.insert "index" [{ name := name }] }

/-- The two of them. -/
def shown (name : String) : Registry :=
  ⟨(Dict.empty.insert "App\\Page" shownPage).insert "App\\Routes" (shownRoutes name)⟩

/-- A world in which the method is a route. -/
def routing : World where
  registry := shown "Route"
  wellFormed := Registry.wellFormed_ofTypes
    (show Registry.ofTypes [shownPage, shownRoutes "Route"] = .ok (shown "Route") from rfl)
  time _ := 1
  fault _ := none

/-- The world in which the trait was edited, and only the trait. -/
def templating : World where
  registry := shown "Template"
  wellFormed := Registry.wellFormed_ofTypes
    (show Registry.ofTypes [shownPage, shownRoutes "Template"] = .ok (shown "Template") from rfl)
  time d := if d.name = "App\\Page" then 1 else 2
  fault _ := none

theorem templating_follows : templating.Follows routing [] where
  kept d _ _ := by
    show (1 : Int) ≤ if d.name = "App\\Page" then 1 else 2
    split <;> decide
  changed d hnext hnow := by
    have hpage : d.name ≠ "App\\Page" := by
      intro hname
      have hd : Except.ok d = (shown "Template").reflect "App\\Page" := hname ▸ hnext.symm
      cases hd
      exact hnow rfl
    show (0 : Int) < (if d.name = "App\\Page" then 1 else 2) ∧ _
    rw [if_neg hpage]
    refine ⟨by decide, ?_⟩
    intro w hw e _
    rw [List.mem_singleton.1 hw]
    show (1 : Int) < if d.name = "App\\Page" then 1 else 2
    rw [if_neg hpage]
    decide

/-- The method is read before and after the edit, with and without checking, and
once more when its marker is lost. -/
def edited : List Event :=
  [.read true (.ofMethod "App\\Page" "index"), .edit templating,
    .read false (.ofMethod "App\\Page" "index"), .read true (.ofMethod "App\\Page" "index"),
    .drop "[C]App.Page#index", .read true (.ofMethod "App\\Page" "index")]

theorem checked_readings_of_edited :
    History.Permitted routing [] edited
      ∧ (∀ reading ∈ (History.opened routing).readings [] edited, reading.checking = true →
          reading.result = reading.world.truth [] reading.target)
      ∧ ((History.opened routing).readings [] edited).map (fun r => (r.checking, r.result))
        = [(true, .ok [{ name := "Route" }]), (false, .ok [{ name := "Route" }]),
            (true, .ok [{ name := "Template" }]), (true, .ok [{ name := "Template" }])] := by
  have hplain : (Target.ofMethod "App\\Page" "index").Plain := by decide
  have hpermitted : History.Permitted routing [] edited :=
    ⟨hplain, templating_follows, hplain, hplain, hplain, trivial⟩
  exact ⟨hpermitted, checked_readings_eq_truth [] routing edited hpermitted, rfl⟩

end AnnotationCache

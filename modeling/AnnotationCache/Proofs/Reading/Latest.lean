/-
  AnnotationCache.Proofs.Reading.Latest
  ─────────────────────────────────────
  **THE LATEST TIME THAT A CLASS REACHES.**

  The last modification of a class is found by walking its closure, but it is a
  matter of what the class reaches only: it is the greatest of the times of these
  types, and of the epoch.  It is there if and only if all of them are registered
  and all of their times can be read.

  So the order in which types are registered does not matter, nor that of the
  lists in them; a type that a class reaches is no younger than the class; and
  types that reach each other are of one age.

  All of this is said of a source of times.  A clock that reads them from somewhere
  gives what its source gives, as long as it changes nothing
  (`lastModification_looking`).

  Main statements:
    * `isGreatest_of_latestOf` — a fold over times finds the greatest one;
    * `latest_eq_ok_iff`       — the last modification of a class, in terms of what
      it reaches;
    * `latest_of_reached`      — what follows.
-/
import Mathlib.Order.Bounds.Basic
import AnnotationCache.Proofs.Reading.Locality
import AnnotationCache.Proofs.Requests
import AnnotationCache.Proofs.Types.Nearest
import AnnotationCache.Proofs.Types.Order

namespace AnnotationCache

open AnnotationCache.Types (Registry Descriptor normalize)

/-! ## §1. The latest of some times. -/

/-- **The clock of a source of times**: it has no effects, but a time may not be there
to read. -/
def Clock.ofSource {m : Type → Type} [Monad m] (source : Descriptor → Except Error Int) :
    Clock m :=
  fun d => MonadExcept.ofExcept (source d)

section

variable {source : Descriptor → Except Error Int} {d : Descriptor} {types : List Descriptor}
  {latest last time : Int}

section Lawful

variable {m : Type → Type} [Monad m] [LawfulMonad m]

theorem latestOf_of_time (h : source d = .ok time) :
    latestOf (m := m) (.ofSource source) latest (d :: types)
      = latestOf (.ofSource source) (max latest time) types := by
  have hclock : Clock.ofSource (m := m) source d = pure time := by
    unfold Clock.ofSource
    rw [h]
    rfl
  unfold latestOf
  rw [List.foldlM_cons, hclock]
  simp only [pure_bind]

theorem latestOf_of_fault {e : Error} (h : source d = .error e) :
    latestOf (m := m) (.ofSource source) latest (d :: types) = throw e := by
  have hclock : Clock.ofSource (m := m) source d = throw e := by
    unfold Clock.ofSource
    rw [h]
    rfl
  unfold latestOf
  rw [List.foldlM_cons, hclock]
  simp only [ExceptT.bind_throw]

/-- A clock without effects gives one answer, whatever else has effects. -/
theorem latestOf_ofSource (source : Descriptor → Except Error Int) (types : List Descriptor) :
    ∀ latest : Int, latestOf (m := m) (.ofSource source) latest types
      = MonadExcept.ofExcept (latestOf (m := Id) (.ofSource source) latest types).run := by
  -- A time that can be read is the next one to compare with; one that cannot ends both.
  induction types with
  | nil => intro latest; rfl
  | cons d types ih =>
      intro latest
      cases htime : source d with
      | error e =>
          rw [latestOf_of_fault htime, latestOf_of_fault htime]
          rfl
      | ok time =>
          rw [latestOf_of_time htime, latestOf_of_time htime]
          exact ih (max latest time)

end Lawful

/-- **A clock that only looks at its state** gives the answer of the times that it
tells there. -/
theorem latestOf_looking {σ : Type} {clock : Clock (StateM σ)} {state : σ}
    (hclock : ∀ d ∈ types, (clock d).run.run state = (source d, state)) :
    ∀ latest : Int, (latestOf clock latest types).run.run state
      = ((latestOf (m := Id) (.ofSource source) latest types).run, state) := by
  induction types with
  | nil => intro latest; rfl
  | cons d types ih =>
      intro latest
      obtain ⟨hd, htypes⟩ := List.forall_mem_cons.1 hclock
      cases htime : source d with
      | error e =>
          rw [htime] at hd
          rw [latestOf_of_fault htime]
          unfold latestOf
          rw [List.foldlM_cons, bind_assoc, run_bind_error hd]
          rfl
      | ok time =>
          rw [htime] at hd
          rw [latestOf_of_time htime]
          unfold latestOf at ih ⊢
          rw [List.foldlM_cons, bind_assoc, run_bind_ok hd, pure_bind]
          exact ih htypes (max latest time)

/-- **There is a latest time if all times can be read.** -/
theorem latestOf_ok_iff :
    (∃ last, (latestOf (m := Id) (.ofSource source) latest types).run = .ok last)
      ↔ ∀ d ∈ types, ∃ time, source d = .ok time := by
  induction types generalizing latest with
  | nil => exact iff_of_true ⟨latest, rfl⟩ (by simp)
  | cons d types ih =>
      rw [List.forall_mem_cons]
      cases htime : source d with
      | error e =>
          rw [latestOf_of_fault htime]
          exact iff_of_false (by rintro ⟨_, ⟨⟩⟩) (by rintro ⟨⟨_, ⟨⟩⟩, _⟩)
      | ok time =>
          rw [latestOf_of_time htime, ih]
          exact ⟨fun hall => ⟨⟨time, rfl⟩, hall⟩, fun hall => hall.2⟩

/-- The greatest of some times is found with the greater one of two of them. -/
theorem isGreatest_insert_max {times : Set Int}
    (h : IsGreatest (insert (max latest time) times) last) :
    IsGreatest (insert latest (insert time times)) last := by
  obtain ⟨hmem, hbound⟩ := h
  have hmax : max latest time ≤ last := hbound (Set.mem_insert _ times)
  constructor
  · rcases hmem with hlast | hlast
    · by_cases hle : latest ≤ time
      · exact .inr (.inl (by omega))
      · exact .inl (by omega)
    · exact .inr (.inr hlast)
  · rintro other (rfl | rfl | hother)
    · omega
    · omega
    · exact hbound (.inr hother)

/-- **It is the greatest of these times** and the time to begin with. -/
theorem isGreatest_of_latestOf
    (h : (latestOf (m := Id) (.ofSource source) latest types).run = .ok last) :
    IsGreatest (insert latest {time | ∃ d ∈ types, source d = .ok time}) last := by
  induction types generalizing latest with
  | nil =>
      cases h
      simp
  | cons d types ih =>
      cases htime : source d with
      | error e =>
          rw [latestOf_of_fault htime] at h
          cases h
      | ok time =>
          -- The first time has gone into the one that the rest is compared with.
          rw [latestOf_of_time htime] at h
          have htimes : {other | ∃ d' ∈ d :: types, source d' = .ok other}
              = insert time {other | ∃ d' ∈ types, source d' = .ok other} := by
            ext other
            simp [htime, eq_comm]
          rw [htimes]
          exact isGreatest_insert_max (ih h)

end

/-! ## §2. The last modification of a class. -/

namespace Types.Registry

/-- **The last modification of a class**, by a source of times. -/
def latest (r : Registry) (source : Descriptor → Except Error Int) (name : String) :
    Except Error Int :=
  (lastModification (m := Id) r (.ofSource source) name).run

/-- **Is this the time of the type of a name?** -/
def ModifiedAt (r : Registry) (source : Descriptor → Except Error Int) (name : String)
    (time : Int) : Prop :=
  ∃ d, r.reflect name = .ok d ∧ source d = .ok time

/-- **The times that count for a name**: the epoch, and those of the types that it
reaches. -/
def timesFrom (r : Registry) (source : Descriptor → Except Error Int) (start : String) :
    Set Int :=
  insert 0 {time | ∃ name, r.Reaches start name ∧ r.ModifiedAt source name time}

variable {r r' : Registry} {source source' : Descriptor → Except Error Int} {name other : String}
  {last : Int}

theorem latest_of_closure {types : List Descriptor} (h : r.closure name = .ok types) :
    r.latest source name = (latestOf (m := Id) (.ofSource source) 0 types).run :=
  congrArg ExceptT.run (lastModification_of_closure h _)

/-- **A source has one answer in every monad.** -/
theorem lastModification_ofSource {m : Type → Type} [Monad m] [LawfulMonad m] (r : Registry)
    (source : Descriptor → Except Error Int) (name : String) :
    lastModification (m := m) r (.ofSource source) name
      = MonadExcept.ofExcept (r.latest source name) := by
  unfold latest lastModification
  cases r.closure name with
  | error e => rfl
  | ok types => exact latestOf_ofSource source types 0

theorem lastModification_looking {σ : Type} {clock : Clock (StateM σ)} {state : σ}
    (hclock : ∀ d, (clock d).run.run state = (source d, state)) (r : Registry) (name : String) :
    (lastModification r clock name).run.run state = (r.latest source name, state) := by
  unfold latest lastModification
  cases r.closure name with
  | error e => rfl
  | ok types => exact latestOf_looking (fun d _ => hclock d) 0

theorem latest_normalize (r : Registry) (source : Descriptor → Except Error Int) (name : String) :
    r.latest source (normalize name) = r.latest source name :=
  congrArg ExceptT.run (lastModification_normalize r _ name)

/-- A class without a closure has no last modification, and for the same reason. -/
theorem latest_of_missing {e : Error} (h : r.closure name = .error e) :
    r.latest source name = .error e := by
  unfold latest lastModification
  rw [h]
  rfl

/-- **There is a last modification** if all that the class reaches is registered, with
a time that can be read. -/
theorem latest_ok_iff (hr : r.WellFormed) :
    (∃ last, r.latest source name = .ok last)
      ↔ ∀ other, r.Reaches (normalize name) other → ∃ time, r.ModifiedAt source other time := by
  cases hclosure : r.closure name with
  | error e =>
      -- The type that is missing is reached, and has no time.
      obtain ⟨missing, count, -, hunknown, hdistance, -⟩ := missing_of_closure hr hclosure
      rw [latest_of_missing hclosure]
      refine iff_of_false (by rintro ⟨_, ⟨⟩⟩) ?_
      intro hall
      obtain ⟨time, d, hd, -⟩ := hall missing ⟨count, hdistance.path⟩
      cases hunknown.symm.trans (contains_eq_true.2 ⟨d, hd⟩)
  | ok types =>
      rw [latest_of_closure hclosure, latestOf_ok_iff,
        (listsReached_of_closure hr hclosure).forall_iff]
      refine forall₂_congr fun other _ => ⟨?_, ?_⟩
      · rintro ⟨d, hd, time, htime⟩
        exact ⟨time, d, hd, htime⟩
      · rintro ⟨time, d, hd, htime⟩
        exact ⟨d, hd, time, htime⟩

/-- **It is the greatest of the times that count.** -/
theorem isGreatest_of_latest (hr : r.WellFormed) (h : r.latest source name = .ok last) :
    IsGreatest (r.timesFrom source (normalize name)) last := by
  cases hclosure : r.closure name with
  | error e =>
      rw [latest_of_missing hclosure] at h
      cases h
  | ok types =>
      rw [latest_of_closure hclosure] at h
      have htimes : r.timesFrom source (normalize name)
          = insert 0 {time | ∃ d ∈ types, source d = .ok time} := by
        unfold timesFrom ModifiedAt
        congr 1
        ext time
        exact ((listsReached_of_closure hr hclosure).exists_iff).symm
      rw [htimes]
      exact isGreatest_of_latestOf h

/-- **The last modification of a class, in terms of what it reaches.** -/
theorem latest_eq_ok_iff (hr : r.WellFormed) :
    r.latest source name = .ok last
      ↔ (∀ other, r.Reaches (normalize name) other → ∃ time, r.ModifiedAt source other time)
        ∧ IsGreatest (r.timesFrom source (normalize name)) last := by
  constructor
  · intro h
    exact ⟨(latest_ok_iff hr).1 ⟨last, h⟩, isGreatest_of_latest hr h⟩
  · -- There is one, and a set has no two greatest times.
    rintro ⟨hall, hgreatest⟩
    obtain ⟨last', h⟩ := (latest_ok_iff hr).2 hall
    rw [h, (isGreatest_of_latest hr h).unique hgreatest]

/-! ## §3. What follows. -/

/-- **A class is no older than what it reaches.** -/
theorem latest_of_reaches (hr : r.WellFormed) (h : r.latest source name = .ok last)
    (hother : r.Reaches (normalize name) other) :
    ∃ time, r.latest source other = .ok time ∧ time ≤ last := by
  have hnormal : normalize other = other :=
    hr.normalize_of_reaches (normalize_normalize name) hother
  obtain ⟨hall, hgreatest⟩ := (latest_eq_ok_iff hr).1 h
  have hbeyond : ∀ next, r.Reaches (normalize other) next → r.Reaches (normalize name) next := by
    intro next hnext
    rw [hnormal] at hnext
    exact hother.trans hnext
  have htimes : r.timesFrom source (normalize other) ⊆ r.timesFrom source (normalize name) := by
    apply Set.insert_subset_insert
    rintro time ⟨next, hnext, htime⟩
    exact ⟨next, hbeyond next hnext, htime⟩
  obtain ⟨time, htime⟩ := (latest_ok_iff hr).2 fun next hnext => hall next (hbeyond next hnext)
  exact ⟨time, htime, (isGreatest_of_latest hr htime).mono hgreatest htimes⟩

/-- **Types that reach each other are of one age.** -/
theorem latest_of_cycle (hr : r.WellFormed) (h : r.latest source name = .ok last)
    (hother : r.Reaches (normalize name) other) (hback : r.Reaches other (normalize name)) :
    r.latest source other = .ok last := by
  obtain ⟨time, htime, hle⟩ := latest_of_reaches hr h hother
  have hnormal : normalize other = other :=
    hr.normalize_of_reaches (normalize_normalize name) hother
  rw [← hnormal] at hback
  obtain ⟨last', hlast', hge⟩ := latest_of_reaches hr htime hback
  rw [latest_normalize] at hlast'
  cases h.symm.trans hlast'
  rw [le_antisymm hle hge] at htime
  exact htime

/-- **Times that are no earlier** give no earlier last modification. -/
theorem latest_mono (hr : r.WellFormed) (h : r.latest source name = .ok last)
    (hlater : ∀ other time, r.Reaches (normalize name) other → r.ModifiedAt source other time →
      ∃ time', time ≤ time' ∧ r.ModifiedAt source' other time') :
    ∃ last', r.latest source' name = .ok last' ∧ last ≤ last' := by
  obtain ⟨hall, hmem, -⟩ := (latest_eq_ok_iff hr).1 h
  obtain ⟨last', h'⟩ := (latest_ok_iff hr).2 fun other hother => by
    obtain ⟨time, htime⟩ := hall other hother
    obtain ⟨time', -, htime'⟩ := hlater other time hother htime
    exact ⟨time', htime'⟩
  refine ⟨last', h', ?_⟩
  have hbound := (isGreatest_of_latest hr h').2
  rcases hmem with rfl | ⟨other, hother, htime⟩
  · exact hbound (Set.mem_insert 0 _)
  · obtain ⟨time', hle, htime'⟩ := hlater other last hother htime
    exact hle.trans (hbound (.inr ⟨other, hother, htime'⟩))

/-- **Registries with the same types** have the same last modifications, for sources
that give each type the same time. -/
theorem latest_rearranged (hr : r.WellFormed) (hr' : r'.WellFormed) (hsame : r.Rearranged r')
    (hsource : ∀ other d d', r.reflect other = .ok d → r'.reflect other = .ok d' →
      source' d' = source d) :
    r'.latest source' name = .ok last ↔ r.latest source name = .ok last := by
  have htime : ∀ other time, r'.ModifiedAt source' other time ↔ r.ModifiedAt source other time := by
    intro other time
    constructor
    · rintro ⟨d', hd', h⟩
      obtain ⟨d, hd, -⟩ := hsame.back hd'
      exact ⟨d, hd, (hsource other d d' hd hd').symm.trans h⟩
    · rintro ⟨d, hd, h⟩
      obtain ⟨d', hd', -⟩ := hsame.there hd
      exact ⟨d', hd', (hsource other d d' hd hd').trans h⟩
  rw [latest_eq_ok_iff hr, latest_eq_ok_iff hr']
  unfold timesFrom
  simp only [hsame.reaches_iff, htime]

/-- **The last modification of a class is the greatest time that it reaches**, or the
epoch.  It is there if and only if the class has a closure and all times can be read;
that there is no closure is reported first.  Neither the order of registering nor that
of lists matters.  Later times never give an earlier one.  No type of the closure is
younger than the class, and those in a cycle with it are of its age. -/
theorem latest_of_reached (hr : r.WellFormed) (source : Descriptor → Except Error Int)
    (name : String) :
    ((∃ last, r.latest source name = .ok last)
        ↔ (∃ types, r.closure name = .ok types)
          ∧ ∀ other, r.Reaches (normalize name) other → ∃ time, r.ModifiedAt source other time)
      ∧ (∀ last, r.latest source name = .ok last →
          IsGreatest (r.timesFrom source (normalize name)) last)
      ∧ (∀ e, r.closure name = .error e →
          ∃ missing, r.Reaches (normalize name) missing ∧ r.contains missing = false
            ∧ r.latest source name = .error (.typeNotFound missing))
      ∧ (∀ types types', ofTypes types = .ok r → Types.Rearranged types types' →
          ∃ r', ofTypes types' = .ok r'
            ∧ ∀ source', (∀ other d d', r.reflect other = .ok d → r'.reflect other = .ok d' →
                source' d' = source d) →
              ∀ last, r'.latest source' name = .ok last ↔ r.latest source name = .ok last)
      ∧ ∀ last, r.latest source name = .ok last →
          (∀ source', (∀ other time, r.Reaches (normalize name) other →
              r.ModifiedAt source other time →
                ∃ time', time ≤ time' ∧ r.ModifiedAt source' other time') →
            ∃ last', r.latest source' name = .ok last' ∧ last ≤ last')
          ∧ (∀ types, r.closure name = .ok types → ∀ d ∈ types,
              ∃ time, r.latest source d.name = .ok time ∧ time ≤ last)
          ∧ ∀ other, r.Reaches (normalize name) other → r.Reaches other (normalize name) →
              r.latest source other = .ok last := by
  refine ⟨?there, fun last h => isGreatest_of_latest hr h, ?missing, ?order, ?age⟩
  case there =>
    rw [latest_ok_iff hr, closure_ok_iff hr]
    refine ⟨fun hall => ⟨?_, hall⟩, fun h => h.2⟩
    intro other hother
    obtain ⟨time, d, hd, -⟩ := hall other hother
    exact contains_eq_true.2 ⟨d, hd⟩
  case missing =>
    intro e he
    obtain ⟨missing, count, rfl, hunknown, hdistance, -⟩ := missing_of_closure hr he
    exact ⟨missing, ⟨count, hdistance.path⟩, hunknown, latest_of_missing he⟩
  case order =>
    intro types types' htypes hrearranged
    obtain ⟨r', htypes', hsame⟩ := ofTypes_rearranged hrearranged htypes
    exact ⟨r', htypes', fun source' hsource last =>
      latest_rearranged hr (wellFormed_ofTypes htypes') hsame hsource⟩
  case age =>
    intro last h
    refine ⟨fun source' hlater => latest_mono hr h hlater, ?_,
      fun other hother hback => latest_of_cycle hr h hother hback⟩
    intro types hclosure d hd
    exact latest_of_reaches hr h ((listsReached_of_closure hr hclosure).reaches hd)

/-- A class with two interfaces, and a trait that uses the class. -/
def routed : List Descriptor :=
  [{ name := "App\\Page", interfaces := ["App\\View", "App\\Shown"], traits := ["App\\Routes"] },
    { name := "App\\Routes", kind := .traitKind, traits := ["App\\Page"] },
    { name := "App\\View", kind := .interfaceKind },
    { name := "App\\Shown", kind := .interfaceKind }]

/-- The same types, the trait first and the interfaces the other way round. -/
def routedAgain : List Descriptor :=
  [{ name := "App\\Routes", kind := .traitKind, traits := ["App\\Page"] },
    { name := "App\\Page", interfaces := ["App\\Shown", "App\\View"], traits := ["App\\Routes"] },
    { name := "App\\View", kind := .interfaceKind },
    { name := "App\\Shown", kind := .interfaceKind }]

/-- The trait was modified last. -/
def routedTimes (d : Descriptor) : Except Error Int :=
  if d.name = "App\\Routes" then .ok 250 else .ok 100

theorem rearranged_routed : Types.Rearranged routed routedAgain := by
  refine ⟨_, ?_, .swap _ _ _⟩
  exact .cons (.mk (.swap _ _ _) (.refl _)) (.cons (.mk (.refl _) (.refl _))
    (.cons (.mk (.refl _) (.refl _)) (.cons (.mk (.refl _) (.refl _)) .nil)))

theorem latest_of_reached_of_routed :
    ∃ r r', ofTypes routed = .ok r ∧ ofTypes routedAgain = .ok r' ∧ r.WellFormed
      ∧ r.latest routedTimes "App\\Page" = .ok 250
      ∧ r'.latest routedTimes "App\\Page" = .ok 250
      ∧ r.latest routedTimes "App\\Routes" = .ok 250
      ∧ ∃ last, r.latest (fun d => (routedTimes d).map (· + 1)) "App\\Page" = .ok last
          ∧ 250 ≤ last := by
  obtain ⟨r, hr⟩ : ∃ r, ofTypes routed = .ok r := ⟨_, rfl⟩
  have hwell : r.WellFormed := wellFormed_ofTypes hr
  obtain ⟨hlast, hthere, hback⟩ : r.latest routedTimes "App\\Page" = .ok 250
      ∧ r.RefersTo "App\\Page" "App\\Routes" ∧ r.RefersTo "App\\Routes" "App\\Page" := by
    cases hr
    have hroutes : "App\\Routes" ∈ ["App\\View", "App\\Shown", "App\\Routes"] := by simp
    have hpage : "App\\Page" ∈ ["App\\Page"] := by simp
    exact ⟨rfl, ⟨_, rfl, hroutes⟩, ⟨_, rfl, hpage⟩⟩
  obtain ⟨-, -, -, horder, hage⟩ := latest_of_reached hwell routedTimes "App\\Page"
  obtain ⟨hlater, -, hcycle⟩ := hage 250 hlast
  obtain ⟨r', hr', hsame⟩ := horder routed routedAgain hr rearranged_routed
  have hwell' : r'.WellFormed := wellFormed_ofTypes hr'
  refine ⟨r, r', hr, hr', hwell, hlast, (hsame routedTimes ?times 250).2 hlast, ?cycle, ?later⟩
  case times =>
    intro other d d' hd hd'
    unfold routedTimes
    rw [hwell'.name_reflect hd', hwell.name_reflect hd]
  case cycle => exact hcycle _ ((Reaches.refl r _).further hthere) ((Reaches.refl r _).further hback)
  case later =>
    apply hlater
    rintro other time - ⟨d, hd, htime⟩
    exact ⟨time + 1, by omega, d, hd, congrArg (Except.map (· + 1)) htime⟩

end Types.Registry

end AnnotationCache

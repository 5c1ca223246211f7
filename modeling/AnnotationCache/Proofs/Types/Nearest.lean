/-
  AnnotationCache.Proofs.Types.Nearest
  ────────────────────────────────────
  **A CLOSURE LISTS WHAT A TYPE REACHES, NEAREST FIRST.**

  The queue of a walk holds two layers of names at most: what is left of the
  names at one distance, and behind it the names one reference farther that were
  met so far (`Layered`).  All names up to the first distance have been seen, and
  so has all that a settled type refers to.  One step keeps that; when the first
  layer is worked off, the second one takes its place.

  So a walk settles names in the order of their distances.  If it comes to a name
  that is not registered, all nearer names are.

  Main statements:
    * `Layered.step`, `Layered.advance` — one step of a walk;
    * `walk_reported`                   — what a whole walk answers;
    * `closure_lists_reached`           — a closure is what the class reaches.
-/
import AnnotationCache.Proofs.Types.Reach
import AnnotationCache.Proofs.Types.Walk

namespace AnnotationCache.Types.Registry

variable {r : Registry} {start name : String} {settled seen near far : List String} {depth : Nat}

/-! ## §1. The layers of a queue. -/

/-- **The layers of a queue**: near names at some distance from the start, and far
ones at the next distance behind them. -/
structure Layered (r : Registry) (start : String) (settled near far : List String)
    (depth : Nat) : Prop where
  near_at : ∀ name ∈ near, r.Distance start name depth
  far_at : ∀ name ∈ far, r.Distance start name (depth + 1)
  /-- A name that is no farther than the near ones is settled or queued. -/
  met : ∀ count name, count ≤ depth → r.Path start count name →
    name ∈ settled ∨ name ∈ near ++ far
  /-- So is every name that a settled type refers to. -/
  followed : ∀ name ∈ settled, ∀ next, r.RefersTo name next →
    next ∈ settled ∨ next ∈ near ++ far

theorem layered_start (r : Registry) (start : String) : r.Layered start [] [start] [] 0 where
  near_at name hname := by
    rw [List.mem_singleton.1 hname]
    exact distance_start r start
  far_at name hname := absurd hname List.not_mem_nil
  met count name hcount hpath := by
    cases hpath with
    | here => simp
    | further _ _ => exact absurd hcount (Nat.not_succ_le_zero _)
  followed name hname := absurd hname List.not_mem_nil

/-- Every queued name is as far as the near ones at least. -/
theorem Layered.le_of_queued (h : r.Layered start settled near far depth)
    (hname : name ∈ near ++ far) {count : Nat} (hpath : r.Path start count name) :
    depth ≤ count := by
  rcases List.mem_append.1 hname with hnear | hfar
  · exact (h.near_at name hnear).shortest count hpath
  · have hle : depth + 1 ≤ count := (h.far_at name hfar).shortest count hpath
    omega

/-- **When the near names are worked off**, the far ones take their place. -/
theorem Layered.advance (h : r.Layered start settled [] far depth) :
    r.Layered start settled far [] (depth + 1) where
  near_at := h.far_at
  far_at name hname := absurd hname List.not_mem_nil
  followed name hname next hnext := by
    simpa using h.followed name hname next hnext
  met := by
    intro count name hcount hpath
    rw [List.append_nil]
    by_cases hle : count ≤ depth
    · exact h.met count name hle hpath
    · cases hpath with
      | here => omega
      | @further before previous _ hbefore hlast =>
          -- The name before it on the path is nearer than the far ones, so it is settled.
          have hsettled : previous ∈ settled := by
            rcases h.met before previous (by omega) hbefore with hset | hfar
            · exact hset
            · have hle : depth + 1 ≤ before :=
                (h.far_at previous hfar).shortest before hbefore
              omega
          exact h.followed previous hsettled name hlast

/-- **A step settles the first near name**, and queues what it refers to behind the
far ones. -/
theorem Layered.step {d : Descriptor} (h : r.Layered start settled (name :: near) far depth)
    (hseen : ∀ n, n ∈ seen ↔ n ∈ settled ∨ n ∈ name :: near ++ far)
    (hd : r.reflect name = .ok d) :
    r.Layered start (name :: settled) near (far ++ unseen seen d.dependencies) depth := by
  -- What was settled or queued before the step still is.
  have hkept : ∀ n, n ∈ settled ∨ n ∈ name :: near ++ far →
      n ∈ name :: settled ∨ n ∈ near ++ (far ++ unseen seen d.dependencies) := by
    intro n hn
    simp only [List.cons_append, List.mem_cons, List.mem_append] at hn ⊢
    tauto
  refine ⟨?near, ?far, ?met, ?followed⟩
  case near => exact fun n hn => h.near_at n (List.mem_cons_of_mem _ hn)
  case met => exact fun count n hcount hpath => hkept n (h.met count n hcount hpath)
  case far =>
    intro n hn
    rcases List.mem_append.1 hn with hfar | hfresh
    · exact h.far_at n hfar
    · obtain ⟨hdep, hnew⟩ := (mem_unseen _ _).1 hfresh
      refine ⟨(h.near_at name List.mem_cons_self).path.further ⟨d, hd, hdep⟩, ?_⟩
      -- A shorter path would have been followed already.
      intro fewer hpath
      apply Nat.succ_le_of_lt
      apply Nat.lt_of_not_le
      intro hle
      exact hnew ((hseen n).2 (h.met fewer n hle hpath))
  case followed =>
    intro n hn next hnext
    rcases List.mem_cons.1 hn with rfl | hset
    · obtain ⟨d', hd', hdep⟩ := hnext
      cases Except.ok.inj (hd'.symm.trans hd)
      by_cases hold : next ∈ seen
      · exact hkept next ((hseen next).1 hold)
      · have hfresh : next ∈ unseen seen d.dependencies := (mem_unseen _ _).2 ⟨hdep, hold⟩
        simp [hfresh]
    · exact hkept next (h.followed n hset next hnext)

/-- A queue that is not empty begins with a near name, seen from the right distance. -/
theorem Layered.exists_front (h : r.Layered start settled near far depth) {queue : List String}
    (hqueue : near ++ far = name :: queue) :
    ∃ near' far' depth', depth ≤ depth' ∧ queue = near' ++ far'
      ∧ r.Layered start settled (name :: near') far' depth' := by
  cases near with
  | nil =>
      rw [List.nil_append] at hqueue
      subst hqueue
      exact ⟨queue, [], depth + 1, Nat.le_succ depth, (List.append_nil queue).symm, h.advance⟩
  | cons first near =>
      obtain ⟨rfl, rfl⟩ := List.cons.inj hqueue
      exact ⟨near, far, depth, Nat.le_refl depth, rfl, h⟩

/-! ## §2. What a walk answers. -/

/-- **Is the first type another one than the second, and no farther from a name?** -/
def Precedes (r : Registry) (start : String) (d e : Descriptor) : Prop :=
  d.name ≠ e.name
    ∧ ∃ count more, r.Distance start d.name count ∧ r.Distance start e.name more ∧ count ≤ more

/-- **What a walk reports** that has settled some names and has come to some
distance. -/
def Reported (r : Registry) (start : String) (settled : List String) (depth : Nat) :
    Except Error (List Descriptor) → Prop
  | .ok types =>
      (∀ d ∈ types, d.name ∉ settled ∧ ∃ count, depth ≤ count ∧ r.Distance start d.name count)
        ∧ types.Pairwise (r.Precedes start)
  | .error e =>
      ∃ missing count, e = .typeNotFound missing ∧ r.contains missing = false
        ∧ r.Distance start missing count
        ∧ ∀ fewer nearer, fewer < count → r.Path start fewer nearer → r.contains nearer = true

variable {answer : Except Error (List Descriptor)}

theorem Reported.from_nearer {farther : Nat} (h : r.Reported start settled farther answer)
    (hle : depth ≤ farther) : r.Reported start settled depth answer := by
  cases answer with
  | error e => exact h
  | ok types =>
      refine ⟨?_, h.2⟩
      intro d hd
      obtain ⟨hnew, count, hcount, hdistance⟩ := h.1 d hd
      exact ⟨hnew, count, Nat.le_trans hle hcount, hdistance⟩

/-- What is reported after a type was settled, is reported with it in front. -/
theorem Reported.cons {d : Descriptor} (h : r.Reported start (d.name :: settled) depth answer)
    (hnew : d.name ∉ settled) (hdistance : r.Distance start d.name depth) :
    r.Reported start settled depth (answer.map (d :: ·)) := by
  cases answer with
  | error e => exact h
  | ok types =>
      obtain ⟨hlater, hordered⟩ := h
      constructor
      · intro e he
        rcases List.mem_cons.1 he with rfl | he
        · exact ⟨hnew, depth, Nat.le_refl depth, hdistance⟩
        · obtain ⟨hother, hcount⟩ := hlater e he
          exact ⟨fun hset => hother (List.mem_cons_of_mem _ hset), hcount⟩
      · refine List.pairwise_cons.2 ⟨?_, hordered⟩
        intro e he
        obtain ⟨hother, count, hcount, hfar⟩ := hlater e he
        exact ⟨fun heq => hother (heq ▸ List.mem_cons_self), depth, count, hdistance, hfar, hcount⟩

/-- A name that is not registered is reported, with all nearer names registered. -/
theorem Layered.reported_error (h : r.Layered start settled (name :: near) far depth)
    (hregistered : ∀ n ∈ settled, r.contains n = true) (hname : normalize name = name) {e : Error}
    (he : r.reflect name = .error e) : r.Reported start settled depth (.error e) := by
  obtain ⟨hmissing, hunknown⟩ := reflect_eq_error he
  rw [hname] at hmissing
  refine ⟨name, depth, hmissing, hunknown, h.near_at name List.mem_cons_self, ?_⟩
  intro fewer nearer hless hpath
  rcases h.met fewer nearer (Nat.le_of_lt hless) hpath with hset | hqueued
  · exact hregistered nearer hset
  · have hle : depth ≤ fewer := h.le_of_queued hqueued hpath
    omega

/-- **What a walk answers**, from any place that it may have come to. -/
theorem walk_reported (hr : r.WellFormed) :
    ∀ {fuel : Nat} {settled seen near far : List String} {depth : Nat},
      r.Walking fuel settled seen (near ++ far) → r.Layered start settled near far depth →
        r.Reported start settled depth (r.walk fuel seen (near ++ far)) := by
  intro fuel
  induction fuel with
  | zero => intro settled seen near far depth h; exact absurd h.fuelled Fuelled.ne_zero
  | succ fuel ih =>
      intro settled seen near far depth h hlayers
      cases hqueue : near ++ far with
      | nil =>
          rw [walk_nil]
          exact ⟨fun d hd => absurd hd List.not_mem_nil, List.Pairwise.nil⟩
      | cons name queue =>
          rw [hqueue] at h
          obtain ⟨near', far', depth', hdepth, rfl, hfront⟩ := hlayers.exists_front hqueue
          have hname : normalize name = name := h.normal name List.mem_cons_self
          apply Reported.from_nearer ?_ hdepth
          cases hd : r.reflect name with
          | error e =>
              rw [walk_of_unregistered hd]
              refine hfront.reported_error ?_ hname hd
              exact fun n hn => hr.contains_of_mem_names (h.fuelled.registered n hn)
          | ok d =>
              have hdname : d.name = name := (hr.name_reflect hd).trans hname
              have hstep := h.step hr hd
              rw [List.append_assoc] at hstep
              rw [walk_of_reflect hd, List.append_assoc]
              apply Reported.cons
              · rw [hdname]
                exact ih hstep (hfront.step h.mem_seen hd)
              · rw [hdname]
                exact h.ahead name List.mem_cons_self
              · rw [hdname]
                exact hfront.near_at name List.mem_cons_self

/-! ## §3. Closures. -/

/-- **The types of a list are what a name reaches**: each of them once, that of the
name first, and the nearer ones before the farther ones. -/
structure ListsReached (r : Registry) (start : String) (types : List Descriptor) : Prop where
  registered : ∀ d ∈ types, r.reflect d.name = .ok d
  head : ∃ d rest, types = d :: rest ∧ d.name = start
  nodup : (types.map Descriptor.name).Nodup
  mem_iff : ∀ name, name ∈ types.map Descriptor.name ↔ r.Reaches start name
  nearest_first : types.Pairwise fun d e =>
    ∃ count more, r.Distance start d.name count ∧ r.Distance start e.name more ∧ count ≤ more

section

variable {types : List Descriptor}

/-- Every name that is reached is that of a type of the list. -/
theorem ListsReached.exists_of_reaches (h : r.ListsReached start types)
    (hname : r.Reaches start name) : ∃ d ∈ types, r.reflect name = .ok d := by
  obtain ⟨d, hd, rfl⟩ := List.mem_map.1 ((h.mem_iff name).2 hname)
  exact ⟨d, hd, h.registered d hd⟩

/-- Every type of the list has a name that is reached. -/
theorem ListsReached.reaches (h : r.ListsReached start types) {d : Descriptor} (hd : d ∈ types) :
    r.Reaches start d.name :=
  (h.mem_iff d.name).1 (List.mem_map_of_mem hd)

/-- What holds of a type of the list holds of one that is reached. -/
theorem ListsReached.exists_iff (h : r.ListsReached start types) {P : Descriptor → Prop} :
    (∃ d ∈ types, P d) ↔ ∃ name, r.Reaches start name ∧ ∃ d, r.reflect name = .ok d ∧ P d := by
  constructor
  · rintro ⟨d, hd, hP⟩
    exact ⟨d.name, h.reaches hd, d, h.registered d hd, hP⟩
  · rintro ⟨name, hname, d, hd, hP⟩
    obtain ⟨d', hd', hreflect⟩ := h.exists_of_reaches hname
    cases Except.ok.inj (hreflect.symm.trans hd)
    exact ⟨d, hd', hP⟩

/-- What holds of all types of the list holds of all that are reached. -/
theorem ListsReached.forall_iff (h : r.ListsReached start types) {P : Descriptor → Prop} :
    (∀ d ∈ types, P d) ↔ ∀ name, r.Reaches start name → ∃ d, r.reflect name = .ok d ∧ P d := by
  constructor
  · intro hall name hname
    obtain ⟨d, hd, hreflect⟩ := h.exists_of_reaches hname
    exact ⟨d, hreflect, hall d hd⟩
  · intro hall d hd
    obtain ⟨d', hd', hP⟩ := hall d.name (h.reaches hd)
    cases Except.ok.inj ((h.registered d hd).symm.trans hd')
    exact hP

/-- What a closed list has the type of, it has the types of all that is reached
from it. -/
theorem Closed.mem_of_reaches (hr : r.WellFormed) (hclosed : r.Closed types)
    (hstart : start ∈ types.map Descriptor.name)
    (hregistered : ∀ d ∈ types, r.reflect d.name = .ok d) (h : r.Reaches start name) :
    name ∈ types.map Descriptor.name := by
  obtain ⟨count, hpath⟩ := h
  induction hpath with
  | here => exact hstart
  | @further _ _ next _ hlast ih =>
      obtain ⟨d, hd, rfl⟩ := List.mem_map.1 ih
      have hnext : normalize next = next := hr.normalize_of_refersTo hlast
      obtain ⟨d', hd', hdep⟩ := hlast
      cases Except.ok.inj (hd'.symm.trans (hregistered d hd))
      obtain ⟨e, he, hreflect⟩ := hclosed d hd next hdep
      exact List.mem_map.2 ⟨e, he, (hr.name_reflect hreflect).trans hnext⟩

/-- What the walk of a closure reports. -/
theorem closure_reported (hr : r.WellFormed) (name : String) :
    r.Reported (normalize name) [] 0 (r.closure name) := by
  have hwalking : r.Walking (r.size + 1) [] [normalize name] ([normalize name] ++ []) :=
    walking_start (Nat.lt_succ_self r.size) name
  exact walk_reported hr hwalking (layered_start r (normalize name))

/-- **A closure that is found** lists what the class reaches. -/
theorem listsReached_of_closure (hr : r.WellFormed) (h : r.closure name = .ok types) :
    r.ListsReached (normalize name) types := by
  have hreported := closure_reported hr name
  rw [h] at hreported
  obtain ⟨hdistance, hordered⟩ := hreported
  have hregistered : ∀ d ∈ types, r.reflect d.name = .ok d :=
    fun d hd => reflect_of_mem_closure hr h hd
  have hhead : ∃ d rest, types = d :: rest ∧ d.name = normalize name := by
    obtain ⟨d, rest, hd, rfl, -⟩ := walk_cons_ok h
    exact ⟨d, rest, rfl, (hr.name_reflect hd).trans (normalize_normalize name)⟩
  refine ⟨hregistered, hhead, ?nodup, ?mem, ?ordered⟩
  case nodup => exact List.pairwise_map.2 (hordered.imp fun hdiffer => hdiffer.1)
  case ordered => exact hordered.imp fun hprecedes => hprecedes.2
  case mem =>
    intro other
    constructor
    · intro hother
      obtain ⟨d, hd, rfl⟩ := List.mem_map.1 hother
      obtain ⟨-, count, -, hcount⟩ := hdistance d hd
      exact ⟨count, hcount.path⟩
    · obtain ⟨d, rest, rfl, hname⟩ := hhead
      apply (closed_closure hr h).mem_of_reaches hr ?_ hregistered
      rw [List.map_cons, hname]
      exact List.mem_cons_self

/-- **If no closure is found**, a type is missing that the class reaches, and none
nearer is. -/
theorem missing_of_closure (hr : r.WellFormed) {e : Error} (h : r.closure name = .error e) :
    ∃ missing count, e = .typeNotFound missing ∧ r.contains missing = false
      ∧ r.Distance (normalize name) missing count
      ∧ ∀ fewer nearer, fewer < count → r.Path (normalize name) fewer nearer →
          r.contains nearer = true := by
  have hreported := closure_reported hr name
  rw [h] at hreported
  exact hreported

/-- A closure is found if everything that the class reaches is registered. -/
theorem closure_ok_iff (hr : r.WellFormed) (name : String) :
    (∃ types, r.closure name = .ok types)
      ↔ ∀ other, r.Reaches (normalize name) other → r.contains other = true := by
  constructor
  · rintro ⟨types, h⟩ other hother
    obtain ⟨d, -, hd⟩ := (listsReached_of_closure hr h).exists_of_reaches hother
    exact contains_eq_true.2 ⟨d, hd⟩
  · intro hall
    cases hclosure : r.closure name with
    | ok types => exact ⟨types, rfl⟩
    | error e =>
        obtain ⟨missing, count, -, hunknown, hdistance, -⟩ := missing_of_closure hr hclosure
        have hknown : r.contains missing = true := hall missing ⟨count, hdistance.path⟩
        exact absurd (hknown.symm.trans hunknown) Bool.noConfusion

end

/-- **A closure is exactly what its class reaches.**  The walk ends however much fuel
it has.  It finds a closure if and only if all that the class reaches is registered,
and lists that, nearest first; otherwise it names a type that is reached and not
registered, and none nearer is missing. -/
theorem closure_lists_reached (hr : r.WellFormed) (name : String) :
    (∀ fuel, r.size < fuel → r.walk fuel [normalize name] [normalize name] = r.closure name)
      ∧ ((∃ types, r.closure name = .ok types)
          ↔ ∀ other, r.Reaches (normalize name) other → r.contains other = true)
      ∧ (∀ types, r.closure name = .ok types → r.ListsReached (normalize name) types)
      ∧ ∀ e, r.closure name = .error e →
          ∃ missing count, e = .typeNotFound missing ∧ r.contains missing = false
            ∧ r.Distance (normalize name) missing count
            ∧ ∀ fewer nearer, fewer < count → r.Path (normalize name) fewer nearer →
                r.contains nearer = true := by
  refine ⟨?ends, closure_ok_iff hr name, fun types h => listsReached_of_closure hr h,
    fun e h => missing_of_closure hr h⟩
  case ends => exact fun fuel hfuel => (closure_eq_walk hr hfuel name).symm

/-- A class whose parent uses a trait that uses the parent; one of its interfaces
extends an interface that is not registered. -/
def knot : List Descriptor :=
  [{ name := "App\\Page", parent := some "App\\Base", interfaces := ["App\\View"] },
    { name := "App\\Base", traits := ["App\\Routes"] },
    { name := "App\\Routes", kind := .traitKind, traits := ["App\\Base"] },
    { name := "App\\View", kind := .interfaceKind, interfaces := ["App\\Gone"] }]

theorem closure_lists_reached_of_knot :
    ∃ r, ofTypes knot = .ok r ∧ r.WellFormed
      ∧ r.ListsReached "App\\Base"
          [{ name := "App\\Base", traits := ["App\\Routes"] },
            { name := "App\\Routes", kind := .traitKind, traits := ["App\\Base"] }]
      ∧ (∃ count, r.Distance "App\\Page" "App\\Gone" count
          ∧ ∀ fewer nearer, fewer < count → r.Path "App\\Page" fewer nearer →
              r.contains nearer = true) := by
  obtain ⟨r, hr⟩ : ∃ r, ofTypes knot = .ok r := ⟨_, rfl⟩
  have hwell : r.WellFormed := wellFormed_ofTypes hr
  refine ⟨r, hr, hwell, ?_, ?_⟩
  · have hclosure : r.closure "\\App\\Base" = .ok
        [{ name := "App\\Base", traits := ["App\\Routes"] },
          { name := "App\\Routes", kind := .traitKind, traits := ["App\\Base"] }] := by
      cases hr
      rfl
    exact (closure_lists_reached hwell "\\App\\Base").2.2.1 _ hclosure
  · have hclosure : r.closure "App\\Page" = .error (.typeNotFound "App\\Gone") := by
      cases hr
      rfl
    obtain ⟨missing, count, hmissing, -, hdistance, hnearer⟩ :=
      (closure_lists_reached hwell "App\\Page").2.2.2 _ hclosure
    cases hmissing
    exact ⟨count, hdistance, hnearer⟩

end AnnotationCache.Types.Registry

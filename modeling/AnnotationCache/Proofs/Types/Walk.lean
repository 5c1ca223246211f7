/-
  AnnotationCache.Proofs.Types.Walk
  ─────────────────────────────────
  **THE WALK THROUGH A CLOSURE.**

  A walk that still has names to work off is described by the names it has
  settled: it has seen these and the queued ones, no name stands in the queue
  twice, and there is fuel for every name that may still come (`Walking`).
  One step keeps that, so

    • the answer does not depend on the fuel (`walk_eq_of_walking`),
    • a closure that is found is closed: it has every type that a type in it
      names (`Closed`, `closed_closure`),
    • two registries that agree on a closure of one of them have the same
      closure there (`walk_congr`).
-/
import Mathlib.Tactic.Tauto
import AnnotationCache.Proofs.Types.Registered
import AnnotationCache.Types.Closure

namespace AnnotationCache.Types.Registry

/-! ## §1. Unseen names. -/

theorem mem_unseen {name : String} :
    ∀ (names seen : List String), name ∈ unseen seen names ↔ name ∈ names ∧ name ∉ seen := by
  intro names
  induction names with
  | nil => intro seen; simp [unseen]
  | cons n names ih =>
      intro seen
      unfold unseen
      by_cases hn : n ∈ seen
      · rw [if_pos hn, ih]
        constructor
        · rintro ⟨hmem, hnew⟩
          exact ⟨List.mem_cons_of_mem _ hmem, hnew⟩
        · rintro ⟨hmem, hnew⟩
          rcases List.mem_cons.1 hmem with rfl | hmem
          · exact absurd hn hnew
          · exact ⟨hmem, hnew⟩
      · rw [if_neg hn, List.mem_cons, ih]
        by_cases hname : name = n
        · subst hname
          simp [hn]
        · simp [hname]

theorem nodup_unseen : ∀ (names seen : List String), (unseen seen names).Nodup := by
  intro names
  induction names with
  | nil => intro seen; exact List.nodup_nil
  | cons n names ih =>
      intro seen
      unfold unseen
      by_cases hn : n ∈ seen
      · rw [if_pos hn]
        exact ih seen
      · rw [if_neg hn, List.nodup_cons, mem_unseen]
        exact ⟨fun h => h.2 List.mem_cons_self, ih (n :: seen)⟩

/-! ## §2. One step. -/

theorem walk_nil (r : Registry) (fuel : Nat) (seen : List String) : r.walk fuel seen [] = .ok [] := by
  cases fuel <;> rfl

theorem walk_of_reflect {r : Registry} {name : String} {d : Descriptor} (hd : r.reflect name = .ok d)
    (fuel : Nat) (seen queue : List String) :
    r.walk (fuel + 1) seen (name :: queue)
      = (r.walk fuel (seen ++ unseen seen d.dependencies)
          (queue ++ unseen seen d.dependencies)).map (d :: ·) := by
  rw [walk, hd]
  rfl

theorem walk_of_unregistered {r : Registry} {name : String} {e : Error}
    (he : r.reflect name = .error e) (fuel : Nat) (seen queue : List String) :
    r.walk (fuel + 1) seen (name :: queue) = .error e := by
  rw [walk, he]
  rfl

/-- **What a step of a walk that succeeds has done.** -/
theorem walk_cons_ok {r : Registry} {fuel : Nat} {seen queue : List String} {name : String}
    {types : List Descriptor} (h : r.walk (fuel + 1) seen (name :: queue) = .ok types) :
    ∃ d rest, r.reflect name = .ok d ∧ types = d :: rest
      ∧ r.walk fuel (seen ++ unseen seen d.dependencies) (queue ++ unseen seen d.dependencies)
          = .ok rest := by
  cases hd : r.reflect name with
  | error e =>
      rw [walk_of_unregistered hd] at h
      cases h
  | ok d =>
      rw [walk_of_reflect hd] at h
      cases hw : r.walk fuel (seen ++ unseen seen d.dependencies)
          (queue ++ unseen seen d.dependencies) with
      | error e => rw [hw] at h; cases h
      | ok rest =>
          rw [hw] at h
          cases h
          exact ⟨d, rest, rfl, rfl, hw⟩

/-- Where a walk stands. -/
structure Walking (r : Registry) (fuel : Nat) (settled seen queue : List String) : Prop where
  mem_seen : ∀ name, name ∈ seen ↔ name ∈ settled ∨ name ∈ queue
  nodup : queue.Nodup
  ahead : ∀ name ∈ queue, name ∉ settled
  normal : ∀ name ∈ queue, normalize name = name
  fuelled : r.Fuelled fuel settled

theorem walking_start {r : Registry} {fuel : Nat} (h : r.size < fuel) (name : String) :
    r.Walking fuel [] [normalize name] [normalize name] where
  mem_seen := by simp
  nodup := by simp
  ahead := by simp
  normal := by simp
  fuelled := fuelled_start h

/-- **A step keeps where a walk stands**: its first name is settled, and what
that type names and was not seen yet is queued. -/
theorem Walking.step {r : Registry} (hr : r.WellFormed) {fuel : Nat}
    {settled seen queue : List String} {name : String} {d : Descriptor}
    (h : r.Walking (fuel + 1) settled seen (name :: queue)) (hd : r.reflect name = .ok d) :
    r.Walking fuel (name :: settled) (seen ++ unseen seen d.dependencies)
      (queue ++ unseen seen d.dependencies) := by
  obtain ⟨hnotin, hqueue⟩ := List.nodup_cons.1 h.nodup
  have hname : name ∈ r.names :=
    mem_names_of_reflect (h.normal name List.mem_cons_self) hd
  have hseen : ∀ n, n ∈ name :: queue → n ∈ seen := fun n hn => (h.mem_seen n).2 (.inr hn)
  refine ⟨?_, ?_, ?_, ?_, h.fuelled.step (h.ahead name List.mem_cons_self) hname⟩
  · intro n
    rw [List.mem_append, List.mem_append, List.mem_cons, h.mem_seen, List.mem_cons]
    tauto
  · rw [List.nodup_append]
    refine ⟨hqueue, nodup_unseen _ _, ?_⟩
    intro a ha b hb hab
    subst hab
    exact ((mem_unseen _ _).1 hb).2 (hseen a (List.mem_cons_of_mem _ ha))
  · intro n hn
    rw [List.mem_cons, not_or]
    rcases List.mem_append.1 hn with hn | hn
    · exact ⟨fun heq => hnotin (heq ▸ hn), h.ahead n (List.mem_cons_of_mem _ hn)⟩
    · have hnew := ((mem_unseen _ _).1 hn).2
      exact ⟨fun heq => hnew (heq ▸ hseen name List.mem_cons_self),
        fun hset => hnew ((h.mem_seen n).2 (.inl hset))⟩
  · intro n hn
    rcases List.mem_append.1 hn with hn | hn
    · exact h.normal n (List.mem_cons_of_mem _ hn)
    · exact hr.normalize_dependency hd ((mem_unseen _ _).1 hn).1

/-! ## §3. The answer does not depend on the fuel. -/

/-- **Any two walks from one place give the same answer.** -/
theorem walk_eq_of_walking {r : Registry} (hr : r.WellFormed) :
    ∀ {fuel fuel' : Nat} {settled seen queue : List String},
      r.Walking fuel settled seen queue → r.Walking fuel' settled seen queue →
        r.walk fuel seen queue = r.walk fuel' seen queue := by
  -- Neither fuel is zero while `Walking` holds, so both walks take the same steps.
  intro fuel
  induction fuel with
  | zero => intro fuel' settled seen queue h; exact absurd h.fuelled Fuelled.ne_zero
  | succ fuel ih =>
      intro fuel' settled seen queue h h'
      cases fuel' with
      | zero => exact absurd h'.fuelled Fuelled.ne_zero
      | succ fuel' =>
          cases queue with
          | nil => rw [walk_nil, walk_nil]
          | cons name queue =>
              cases hd : r.reflect name with
              | error e => rw [walk_of_unregistered hd, walk_of_unregistered hd]
              | ok d => rw [walk_of_reflect hd, walk_of_reflect hd, ih (h.step hr hd) (h'.step hr hd)]

/-- A closure may be walked with any fuel that is enough. -/
theorem closure_eq_walk {r : Registry} (hr : r.WellFormed) {fuel : Nat} (h : r.size < fuel)
    (name : String) : r.closure name = r.walk fuel [normalize name] [normalize name] :=
  walk_eq_of_walking hr (walking_start (Nat.lt_succ_self _) name) (walking_start h name)

theorem closure_normalize (r : Registry) (name : String) :
    r.closure (normalize name) = r.closure name := by
  unfold closure
  rw [normalize_normalize]

/-! ## §4. Closures are closed. -/

/-- A list of types is **closed** when every type that one of them names is
registered and in the list. -/
def Closed (r : Registry) (types : List Descriptor) : Prop :=
  ∀ d ∈ types, ∀ name ∈ d.dependencies, ∃ d' ∈ types, r.reflect name = .ok d'

/-- What a walk has found: the types of all queued names, and of every name
that these types mention unless it was settled before. -/
theorem walk_found {r : Registry} (hr : r.WellFormed) :
    ∀ {fuel : Nat} {settled seen queue : List String} {types : List Descriptor},
      r.Walking fuel settled seen queue → r.walk fuel seen queue = .ok types →
        (∀ name ∈ queue, ∃ d ∈ types, r.reflect name = .ok d)
          ∧ ∀ d ∈ types, ∀ name ∈ d.dependencies,
              name ∈ settled ∨ ∃ d' ∈ types, r.reflect name = .ok d' := by
  -- A step moves the first name from the queue to the settled ones; the induction
  -- needs the settled ones in the conclusion, and at the start there are none.
  intro fuel
  induction fuel with
  | zero => intro settled seen queue types h; exact absurd h.fuelled Fuelled.ne_zero
  | succ fuel ih =>
      intro settled seen queue types h hwalk
      cases queue with
      | nil =>
          rw [walk_nil] at hwalk
          cases hwalk
          exact ⟨by simp, by simp⟩
      | cons name queue =>
          obtain ⟨d, rest, hd, rfl, hrest⟩ := walk_cons_ok hwalk
          obtain ⟨hqueued, hnamed⟩ := ih (h.step hr hd) hrest
          have hfirst : ∃ d' ∈ d :: rest, r.reflect name = .ok d' :=
            ⟨d, List.mem_cons_self, hd⟩
          have hlater : ∀ n ∈ queue ++ unseen seen d.dependencies,
              ∃ d' ∈ d :: rest, r.reflect n = .ok d' := by
            intro n hn
            obtain ⟨d', hd', hn'⟩ := hqueued n hn
            exact ⟨d', List.mem_cons_of_mem _ hd', hn'⟩
          have hwaiting : ∀ n ∈ name :: queue, ∃ d' ∈ d :: rest, r.reflect n = .ok d' := by
            intro n hn
            rcases List.mem_cons.1 hn with rfl | hn
            · exact hfirst
            · exact hlater n (List.mem_append_left _ hn)
          refine ⟨hwaiting, ?_⟩
          intro d' hd' n hn
          rcases List.mem_cons.1 hd' with rfl | hd'
          · -- What the first type names was seen before, or this step queues it.
            by_cases hseen : n ∈ seen
            · exact ((h.mem_seen n).1 hseen).imp_right (hwaiting n)
            · exact .inr (hlater n (List.mem_append_right _ ((mem_unseen _ _).2 ⟨hn, hseen⟩)))
          · rcases hnamed d' hd' n hn with hset | ⟨d'', hd'', hn'⟩
            · rcases List.mem_cons.1 hset with rfl | hset
              · exact .inr hfirst
              · exact .inl hset
            · exact .inr ⟨d'', List.mem_cons_of_mem _ hd'', hn'⟩

section

variable {r : Registry} {name : String} {types : List Descriptor}

/-- The closure of a type has that type. -/
theorem mem_closure_self (hr : r.WellFormed) (h : r.closure name = .ok types) :
    ∃ d ∈ types, r.reflect name = .ok d := by
  have hqueued := (walk_found hr (walking_start (Nat.lt_succ_self _) name) h).1
  simpa using hqueued (normalize name) List.mem_cons_self

/-- **A closure that is found is closed.** -/
theorem closed_closure (hr : r.WellFormed) (h : r.closure name = .ok types) : r.Closed types := by
  intro d hd n hn
  have hnamed := (walk_found hr (walking_start (Nat.lt_succ_self _) name) h).2
  rcases hnamed d hd n hn with hset | hfound
  · cases hset
  · exact hfound

end

/-- A walk finds registered types. -/
theorem exists_reflect_of_mem_walk {r : Registry} :
    ∀ {fuel : Nat} {seen queue : List String} {types : List Descriptor},
      r.walk fuel seen queue = .ok types → ∀ d ∈ types, ∃ name, r.reflect name = .ok d := by
  intro fuel
  induction fuel with
  | zero =>
      intro seen queue types h d hd
      cases queue <;> cases h <;> cases hd
  | succ fuel ih =>
      intro seen queue types h d hd
      cases queue with
      | nil =>
          rw [walk_nil] at h
          cases h
          cases hd
      | cons name queue =>
          obtain ⟨d', rest, hd', rfl, hrest⟩ := walk_cons_ok h
          rcases List.mem_cons.1 hd with rfl | hd
          · exact ⟨name, hd'⟩
          · exact ih hrest d hd

theorem reflect_of_mem_closure {r : Registry} (hr : r.WellFormed) {name : String}
    {types : List Descriptor} (h : r.closure name = .ok types) {d : Descriptor} (hd : d ∈ types) :
    r.reflect d.name = .ok d := by
  obtain ⟨n, hn⟩ := exists_reflect_of_mem_walk h d hd
  exact hr.reflect_name hn

/-! ## §5. Two registries. -/

/-- Registries that agree on the types that a walk finds walk alike. -/
theorem walk_congr {r r' : Registry} (hr : r.WellFormed) :
    ∀ {fuel : Nat} {seen queue : List String} {types : List Descriptor},
      r.walk fuel seen queue = .ok types → (∀ d ∈ types, r'.reflect d.name = .ok d) →
        r'.walk fuel seen queue = .ok types := by
  intro fuel
  induction fuel with
  | zero =>
      intro seen queue types h hsame
      cases queue <;> exact h
  | succ fuel ih =>
      intro seen queue types h hsame
      cases queue with
      | nil =>
          rw [walk_nil] at h ⊢
          exact h
      | cons name queue =>
          obtain ⟨d, rest, hd, rfl, hrest⟩ := walk_cons_ok h
          have hd' : r'.reflect name = .ok d := by
            rw [← reflect_normalize, ← hr.name_reflect hd]
            exact hsame d List.mem_cons_self
          rw [walk_of_reflect hd', ih hrest fun e he => hsame e (List.mem_cons_of_mem _ he)]
          rfl

/-- **A closure is decided by the types in it.** -/
theorem closure_congr {r r' : Registry} (hr : r.WellFormed) (hr' : r'.WellFormed) {name : String}
    {types : List Descriptor} (h : r.closure name = .ok types)
    (hsame : ∀ d ∈ types, r'.reflect d.name = .ok d) : r'.closure name = .ok types := by
  -- The two registries may differ in size; walk both with fuel for either.
  have hfuel : r.size < r.size + r'.size + 1 := by omega
  have hfuel' : r'.size < r.size + r'.size + 1 := by omega
  rw [closure_eq_walk hr hfuel] at h
  rw [closure_eq_walk hr' hfuel']
  exact walk_congr hr h hsame

end AnnotationCache.Types.Registry

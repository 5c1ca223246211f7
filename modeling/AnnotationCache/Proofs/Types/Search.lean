/-
  AnnotationCache.Proofs.Types.Search
  ───────────────────────────────────
  **THE SEARCH FOR A MEMBER.**

  The names that a search has visited are different registered ones, and there
  is fuel for every other name (`Fuelled`).  A search keeps that whatever it
  finds, so what it finds does not depend on the fuel
  (`search_eq_of_fuelled`), and two registries that agree on a set of names
  which the search cannot leave find the same (`search_congr`).  What it finds is
  declared by a registered type (`declared_of_search`).
-/
import AnnotationCache.Proofs.Types.Registered
import AnnotationCache.Types.Member

namespace AnnotationCache.Types.Registry

/-! ## §1. Asking one name after the other. -/

section FirstOf

variable {f g : String → List String → Except Error Search}

theorem firstOf_error {name : String} {visited : List String} {e : Error}
    (h : f name visited = .error e) (names : List String) :
    firstOf f (name :: names) visited = .error e := by
  rw [firstOf, h]
  rfl

theorem firstOf_found {name : String} {visited visited' : List String} {found : List Annotation}
    (h : f name visited = .ok (some found, visited')) (names : List String) :
    firstOf f (name :: names) visited = .ok (some found, visited') := by
  rw [firstOf, h]
  rfl

theorem firstOf_next {name : String} {visited visited' : List String}
    (h : f name visited = .ok (none, visited')) (names : List String) :
    firstOf f (name :: names) visited = firstOf f names visited' := by
  rw [firstOf, h]
  rfl

theorem firstOf_singleton (f : String → List String → Except Error Search) (name : String)
    (visited : List String) : firstOf f [name] visited = f name visited := by
  cases hone : f name visited with
  | error e => exact firstOf_error hone []
  | ok out =>
      obtain ⟨found, visited'⟩ := out
      cases found with
      | some found => exact firstOf_found hone []
      | none => exact firstOf_next hone []

/-- What every single search keeps true of the visited names, all of them keep. -/
theorem firstOf_keeps (kept : List String → Prop) :
    ∀ {names visited : List String} {out : Search},
      (∀ name ∈ names, ∀ v o, kept v → f name v = .ok o → kept o.2) →
        kept visited → firstOf f names visited = .ok out → kept out.2 := by
  intro names
  induction names with
  | nil =>
      intro visited out _ hkept h
      cases h
      exact hkept
  | cons name names ih =>
      intro visited out hf hkept h
      have hname := hf name List.mem_cons_self visited
      cases hone : f name visited with
      | error e =>
          rw [firstOf_error hone] at h
          cases h
      | ok o =>
          obtain ⟨found, visited'⟩ := o
          have hkept' : kept visited' := hname _ hkept hone
          cases found with
          | some found =>
              rw [firstOf_found hone] at h
              cases h
              exact hkept'
          | none =>
              rw [firstOf_next hone] at h
              exact ih (fun n hn => hf n (List.mem_cons_of_mem _ hn)) hkept' h

/-- Asking one name after the other finds nothing, or answers what one of them answers. -/
theorem firstOf_eq (f : String → List String → Except Error Search) (names visited : List String) :
    (∃ visited', firstOf f names visited = .ok (none, visited'))
      ∨ ∃ name ∈ names, ∃ v, firstOf f names visited = f name v := by
  induction names generalizing visited with
  | nil => exact .inl ⟨visited, rfl⟩
  | cons name names ih =>
      have hfirst : ∀ answer, f name visited = answer → firstOf f (name :: names) visited = answer →
          ∃ n ∈ name :: names, ∃ v, firstOf f (name :: names) visited = f n v :=
        fun answer hone hall => ⟨name, List.mem_cons_self, visited, hall.trans hone.symm⟩
      cases hone : f name visited with
      | error e => exact .inr (hfirst _ hone (firstOf_error hone names))
      | ok out =>
          obtain ⟨found, visited'⟩ := out
          cases found with
          | some found => exact .inr (hfirst _ hone (firstOf_found hone names))
          | none =>
              rw [firstOf_next hone]
              refine (ih visited').imp id ?_
              rintro ⟨n, hn, v, heq⟩
              exact ⟨n, List.mem_cons_of_mem _ hn, v, heq⟩

/-- **A list that is found among more names** is found among the first of them, or among
the others after the first were asked in vain. -/
theorem firstOf_append_found {names more visited after : List String} {found : List Annotation}
    (h : firstOf f (names ++ more) visited = .ok (some found, after)) :
    firstOf f names visited = .ok (some found, after)
      ∨ ∃ mid, firstOf f names visited = .ok (none, mid)
          ∧ firstOf f more mid = .ok (some found, after) := by
  induction names generalizing visited with
  | nil => exact .inr ⟨visited, rfl, h⟩
  | cons name names ih =>
      rw [List.cons_append] at h
      cases hone : f name visited with
      | error e =>
          rw [firstOf_error hone] at h
          cases h
      | ok out =>
          obtain ⟨answer, mid⟩ := out
          cases answer with
          | some list =>
              rw [firstOf_found hone] at h ⊢
              exact .inl h
          | none =>
              rw [firstOf_next hone] at h ⊢
              exact ih h

/-- Searches that agree as long as something is kept agree one after the other. -/
theorem firstOf_congr (kept : List String → Prop) :
    ∀ {names visited : List String},
      (∀ name ∈ names, ∀ v, kept v → f name v = g name v) →
        (∀ name ∈ names, ∀ v o, kept v → f name v = .ok o → kept o.2) →
          kept visited → firstOf f names visited = firstOf g names visited := by
  intro names
  induction names with
  | nil => intro visited _ _ _; rfl
  | cons name names ih =>
      intro visited hfg hf hkept
      have hname := hfg name List.mem_cons_self visited hkept
      cases hone : f name visited with
      | error e =>
          rw [firstOf_error hone, firstOf_error (hname ▸ hone)]
      | ok o =>
          obtain ⟨found, visited'⟩ := o
          have hkept' : kept visited' := hf name List.mem_cons_self visited _ hkept hone
          cases found with
          | some found =>
              rw [firstOf_found hone, firstOf_found (hname ▸ hone)]
          | none =>
              rw [firstOf_next hone, firstOf_next (hname ▸ hone)]
              exact ih (fun n hn => hfg n (List.mem_cons_of_mem _ hn))
                (fun n hn => hf n (List.mem_cons_of_mem _ hn)) hkept'

end FirstOf

/-! ## §2. Searching one name. -/

section Search

variable {r : Registry} {kind : MemberKind} {member name : String} {visited : List String}

theorem search_visited (h : name ∈ visited) (fuel : Nat) :
    r.search kind member (fuel + 1) name visited = .ok (none, visited) := by
  rw [search, if_pos h]
  rfl

theorem search_unregistered {e : Error} (h : name ∉ visited) (he : r.reflect name = .error e)
    (fuel : Nat) : r.search kind member (fuel + 1) name visited = .error e := by
  rw [search, if_neg h, he]
  rfl

theorem search_declared {d : Descriptor} {found : List Annotation} (h : name ∉ visited)
    (hd : r.reflect name = .ok d) (hfound : (d.members kind).get? member = some found)
    (fuel : Nat) :
    r.search kind member (fuel + 1) name visited = .ok (some found, name :: visited) := by
  rw [search, if_neg h, hd]
  simp only [bind, Except.bind, hfound]
  rfl

theorem search_descend {d : Descriptor} (h : name ∉ visited) (hd : r.reflect name = .ok d)
    (hnone : (d.members kind).get? member = none) (fuel : Nat) :
    r.search kind member (fuel + 1) name visited
      = firstOf (r.search kind member fuel) d.memberOrder (name :: visited) := by
  rw [search, if_neg h, hd]
  simp only [bind, Except.bind, hnone]

end Search

variable {r : Registry} {kind : MemberKind} {member : String}

/-- The types that a type takes members from are named without separators in
front. -/
theorem WellFormed.normalize_memberOrder (hr : r.WellFormed) {name next : String} {d : Descriptor}
    (hd : r.reflect name = .ok d) (hnext : next ∈ d.memberOrder) : normalize next = next :=
  hr.normalize_dependency hd (Descriptor.mem_memberOrder_iff.1 hnext)

/-- **A search visits different registered names**, and never forgets one. -/
theorem search_keeps_fuelled (hr : r.WellFormed) :
    ∀ {fuel : Nat} {fuel₀ : Nat} {name : String} {visited : List String} {out : Search},
      normalize name = name → r.Fuelled fuel₀ visited →
        r.search kind member fuel name visited = .ok out → r.Fuelled fuel₀ out.2 := by
  -- `fuel` is what the search runs on, `fuel₀` what is left for those after it.
  intro fuel
  induction fuel with
  | zero =>
      intro fuel₀ name visited out _ hfuel h
      cases h
      exact hfuel
  | succ fuel ih =>
      intro fuel₀ name visited out hname hfuel h
      by_cases hv : name ∈ visited
      · rw [search_visited hv] at h
        cases h
        exact hfuel
      cases hd : r.reflect name with
      | error e =>
          rw [search_unregistered hv hd] at h
          cases h
      | ok d =>
          have hmore : r.Fuelled fuel₀ (name :: visited) :=
            hfuel.settle hv (mem_names_of_reflect hname hd)
          cases hm : (d.members kind).get? member with
          | some found =>
              rw [search_declared hv hd hm] at h
              cases h
              exact hmore
          | none =>
              rw [search_descend hv hd hm] at h
              refine firstOf_keeps (r.Fuelled fuel₀) ?_ hmore h
              intro next hnext v o hv' hone
              exact ih (hr.normalize_memberOrder hd hnext) hv' hone

/-! ## §3. What is found does not depend on the fuel. -/

/-- **Any two searches with enough fuel find the same.** -/
theorem search_eq_of_fuelled (hr : r.WellFormed) :
    ∀ {fuel fuel' : Nat} {name : String} {visited : List String},
      normalize name = name → r.Fuelled fuel visited → r.Fuelled fuel' visited →
        r.search kind member fuel name visited = r.search kind member fuel' name visited := by
  intro fuel
  induction fuel with
  | zero => intro fuel' name visited _ h; exact absurd h Fuelled.ne_zero
  | succ fuel ih =>
      intro fuel' name visited hname h h'
      cases fuel' with
      | zero => exact absurd h' Fuelled.ne_zero
      | succ fuel' =>
          by_cases hv : name ∈ visited
          · rw [search_visited hv, search_visited hv]
          cases hd : r.reflect name with
          | error e => rw [search_unregistered hv hd, search_unregistered hv hd]
          | ok d =>
              have hmem : name ∈ r.names := mem_names_of_reflect hname hd
              cases hm : (d.members kind).get? member with
              | some found => rw [search_declared hv hd hm, search_declared hv hd hm]
              | none =>
                  rw [search_descend hv hd hm, search_descend hv hd hm]
                  -- Both fuels must still be enough after each name that was asked.
                  refine firstOf_congr (fun v => r.Fuelled fuel v ∧ r.Fuelled fuel' v) ?_ ?_
                    ⟨h.step hv hmem, h'.step hv hmem⟩
                  · intro next hnext v hv'
                    exact ih (hr.normalize_memberOrder hd hnext) hv'.1 hv'.2
                  · intro next hnext v o hv' hone
                    have hn := hr.normalize_memberOrder hd hnext
                    exact ⟨search_keeps_fuelled hr hn hv'.1 hone,
                      search_keeps_fuelled hr hn hv'.2 hone⟩

/-- A member may be searched with any fuel that is enough. -/
theorem search_eq_of_size_lt (hr : r.WellFormed) {fuel : Nat} (h : r.size < fuel) (name : String) :
    r.search kind member (r.size + 1) (normalize name) []
      = r.search kind member fuel (normalize name) [] :=
  search_eq_of_fuelled hr (normalize_normalize name) (fuelled_start (Nat.lt_succ_self _))
    (fuelled_start h)

/-! ## §4. Two registries. -/

/-- **Registries that agree on names which the search cannot leave find the
same there**, or fail alike. -/
theorem search_congr {r' : Registry} {within : String → Prop}
    (hwithin : ∀ name, within name →
      ∃ d, r.reflect name = .ok d ∧ r'.reflect name = .ok d ∧ ∀ next ∈ d.memberOrder, within next) :
    ∀ {fuel : Nat} {name : String} {visited : List String}, within name →
      r.search kind member fuel name visited = r'.search kind member fuel name visited := by
  intro fuel
  induction fuel with
  | zero => intro name visited _; rfl
  | succ fuel ih =>
      intro name visited hname
      by_cases hv : name ∈ visited
      · rw [search_visited hv, search_visited hv]
      obtain ⟨d, hd, hd', hnext⟩ := hwithin name hname
      cases hm : (d.members kind).get? member with
      | some found => rw [search_declared hv hd hm, search_declared hv hd' hm]
      | none =>
          rw [search_descend hv hd hm, search_descend hv hd' hm]
          exact firstOf_congr (fun _ => True) (fun next hn v _ => ih (hnext next hn))
            (fun _ _ _ _ _ _ => trivial) trivial

/-! ## §5. What is found. -/

/-- **What a search finds is declared** by a registered type. -/
theorem declared_of_search {fuel : Nat} {name : String} {visited : List String} {out : Search}
    (h : r.search kind member fuel name visited = .ok out) {found : List Annotation}
    (hfound : out.1 = some found) :
    ∃ key d, r.types.get? key = some d ∧ (d.members kind).get? member = some found := by
  induction fuel generalizing name visited out found with
  | zero =>
      cases h
      cases hfound
  | succ fuel ih =>
      by_cases hv : name ∈ visited
      · rw [search_visited hv] at h
        cases h
        cases hfound
      · cases hd : r.reflect name with
        | error e =>
            rw [search_unregistered hv hd] at h
            cases h
        | ok d =>
            cases hm : (d.members kind).get? member with
            | some here =>
                rw [search_declared hv hd hm] at h
                cases h
                cases hfound
                exact ⟨_, d, reflect_eq_ok.1 hd, hm⟩
            | none =>
                rw [search_descend hv hd hm] at h
                rcases firstOf_eq (r.search kind member fuel) d.memberOrder (name :: visited)
                  with ⟨v, hnone⟩ | ⟨next, -, v, hnext⟩
                · cases h.symm.trans hnone
                  cases hfound
                · exact ih (hnext.symm.trans h) hfound

/-- What comes of the search is what the search for a member answers. -/
theorem findMember_eq (r : Registry) (kind : MemberKind) (className member : String) :
    r.findMember kind className member
      = match r.search kind member (r.size + 1) (normalize className) [] with
        | .ok (some list, _) => .ok list
        | .ok (none, _) => .error (kind.notFound (normalize className) member)
        | .error e => .error e := by
  unfold findMember
  rcases r.search kind member (r.size + 1) (normalize className) [] with e | ⟨_ | list, visited⟩
    <;> rfl

theorem findMember_normalize (r : Registry) (kind : MemberKind) (name member : String) :
    r.findMember kind (normalize name) member = r.findMember kind name member := by
  unfold findMember
  rw [normalize_normalize]

/-- **The annotations of a member are declared** by a registered type. -/
theorem declared_of_findMember {className : String} {list : List Annotation}
    (h : r.findMember kind className member = .ok list) :
    ∃ key d, r.types.get? key = some d ∧ (d.members kind).get? member = some list := by
  rw [findMember_eq] at h
  split at h
  next hsearch =>
    cases h
    exact declared_of_search hsearch rfl
  next => cases h
  next => cases h

end AnnotationCache.Types.Registry

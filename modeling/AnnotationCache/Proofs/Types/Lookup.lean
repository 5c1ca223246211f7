/-
  AnnotationCache.Proofs.Types.Lookup
  ───────────────────────────────────
  **WHERE A MEMBER IS FOUND.**

  A search for a member passes over names that were visited before, also those
  whose own search is not at its end yet.  So what a search that finds nothing has
  done is not to search the whole hierarchy below its name, but this: whatever it
  has visited is a registered type without the member, and everything that such a
  type takes members from was visited, by this search or before it (`Exhausted`).
  For the search as a whole nothing was visited before; then the visited names are
  closed under references, and with the class they hold all that it reaches.

  Main statements:
    * `exhausted_of_search`  — what a search leaves that finds nothing;
    * `answered_search`      — where an answer of a search comes from;
    * `findMember_complete`  — a member is found if and only if the closure of the
      class has a type that declares it.
-/
import AnnotationCache.Proofs.Types.Nearest
import AnnotationCache.Proofs.Types.Search

namespace AnnotationCache.Types

theorem MemberKind.notFound_ne_typeNotFound (kind : MemberKind)
    (className member missing : String) :
    kind.notFound className member ≠ .typeNotFound missing := by
  cases kind <;> exact Error.noConfusion

namespace Registry

variable {r : Registry} {kind : MemberKind} {member start name : String}
  {visited visited' : List String}

/-! ## §1. A search that finds nothing. -/

/-- **Is what was visited besides searched out?**  Each of its names is that of a
type without the member, and all that this type takes members from was visited. -/
structure Exhausted (r : Registry) (kind : MemberKind) (member : String)
    (visited visited' : List String) : Prop where
  kept : ∀ name ∈ visited, name ∈ visited'
  lacking : ∀ name ∈ visited', name ∉ visited → ∃ d, r.reflect name = .ok d
    ∧ (d.members kind).get? member = none ∧ ∀ next ∈ d.memberOrder, next ∈ visited'

theorem Exhausted.refl (r : Registry) (kind : MemberKind) (member : String)
    (visited : List String) : r.Exhausted kind member visited visited where
  kept _ h := h
  lacking _ h hnew := absurd h hnew

theorem Exhausted.trans {later : List String} (h : r.Exhausted kind member visited visited')
    (h' : r.Exhausted kind member visited' later) : r.Exhausted kind member visited later where
  kept n hn := h'.kept n (h.kept n hn)
  lacking := by
    intro n hn hnew
    by_cases hmid : n ∈ visited'
    · obtain ⟨d, hd, hnone, hnext⟩ := h.lacking n hmid hnew
      exact ⟨d, hd, hnone, fun next hmem => h'.kept next (hnext next hmem)⟩
    · exact h'.lacking n hn hmid

/-- Names that are asked in vain one after the other are visited, and what they lead
to is searched out. -/
theorem exhausted_of_firstOf {fuel : Nat} {f : String → List String → Except Error Search}
    {names : List String}
    (hf : ∀ name ∈ names, ∀ v v', r.Fuelled fuel v → f name v = .ok (none, v') →
      r.Fuelled fuel v' ∧ r.Exhausted kind member v v' ∧ name ∈ v')
    (hfuel : r.Fuelled fuel visited) (h : firstOf f names visited = .ok (none, visited')) :
    r.Exhausted kind member visited visited' ∧ ∀ name ∈ names, name ∈ visited' := by
  induction names generalizing visited with
  | nil =>
      cases h
      exact ⟨.refl r kind member _, fun n hn => absurd hn List.not_mem_nil⟩
  | cons name names ih =>
      obtain ⟨hname, hnames⟩ := List.forall_mem_cons.1 hf
      cases hone : f name visited with
      | error e =>
          rw [firstOf_error hone] at h
          cases h
      | ok out =>
          obtain ⟨found, mid⟩ := out
          cases found with
          | some found =>
              rw [firstOf_found hone] at h
              cases h
          | none =>
              rw [firstOf_next hone] at h
              obtain ⟨hfuel', hmid, hvisited⟩ := hname visited mid hfuel hone
              obtain ⟨hlater, hall⟩ := ih hnames hfuel' h
              exact ⟨hmid.trans hlater,
                List.forall_mem_cons.2 ⟨hlater.kept name hvisited, hall⟩⟩

/-- **A search that finds nothing** has visited its name, and what it has visited
besides is searched out. -/
theorem exhausted_of_search (hr : r.WellFormed) :
    ∀ {fuel : Nat} {name : String} {visited visited' : List String},
      normalize name = name → r.Fuelled fuel visited →
        r.search kind member fuel name visited = .ok (none, visited') →
          r.Exhausted kind member visited visited' ∧ name ∈ visited' := by
  intro fuel
  induction fuel with
  | zero => intro name visited visited' _ hfuel; exact absurd hfuel Fuelled.ne_zero
  | succ fuel ih =>
      intro name visited visited' hname hfuel h
      by_cases hv : name ∈ visited
      · rw [search_visited hv] at h
        cases h
        exact ⟨.refl r kind member visited, hv⟩
      cases hd : r.reflect name with
      | error e =>
          rw [search_unregistered hv hd] at h
          cases h
      | ok d =>
          cases hm : (d.members kind).get? member with
          | some found =>
              rw [search_declared hv hd hm] at h
              cases h
          | none =>
              rw [search_descend hv hd hm] at h
              have hstep := hfuel.step hv (mem_names_of_reflect hname hd)
              obtain ⟨hbelow, hall⟩ := exhausted_of_firstOf (fun next hnext v v' hv' hone => by
                have hnormal := hr.normalize_memberOrder hd hnext
                obtain ⟨hexhausted, hmem⟩ := ih hnormal hv' hone
                exact ⟨search_keeps_fuelled hr hnormal hv' hone, hexhausted, hmem⟩) hstep h
              refine ⟨⟨fun n hn => hbelow.kept n (List.mem_cons_of_mem _ hn), ?_⟩,
                hbelow.kept name List.mem_cons_self⟩
              intro n hn hnew
              by_cases heq : n = name
              · subst heq
                exact ⟨d, hd, hm, hall⟩
              · apply hbelow.lacking n hn
                intro hmem
                rcases List.mem_cons.1 hmem with hself | hbefore
                · exact heq hself
                · exact hnew hbefore

/-- **A search from nothing that finds nothing** has visited all that its name
reaches, and none of that declares the member. -/
theorem Exhausted.of_reaches (h : r.Exhausted kind member [] visited) (hstart : start ∈ visited)
    (hname : r.Reaches start name) :
    ∃ d, r.reflect name = .ok d ∧ (d.members kind).get? member = none := by
  suffices hmem : name ∈ visited by
    obtain ⟨d, hd, hnone, -⟩ := h.lacking name hmem List.not_mem_nil
    exact ⟨d, hd, hnone⟩
  obtain ⟨count, hpath⟩ := hname
  induction hpath with
  | here => exact hstart
  | @further _ before next _ hlast ih =>
      obtain ⟨d, hd, -, hnext⟩ := h.lacking before ih List.not_mem_nil
      obtain ⟨d', hd', hdep⟩ := hlast
      cases Except.ok.inj (hd'.symm.trans hd)
      exact hnext next (Descriptor.mem_memberOrder_iff.2 hdep)

/-! ## §2. Where an answer comes from. -/

/-- **What a search can answer**: nothing, what a type declares that it reaches, or
that a type is not registered that it reaches. -/
inductive Answered (r : Registry) (kind : MemberKind) (member start : String) :
    Except Error Search → Prop where
  | nothing (visited : List String) : Answered r kind member start (.ok (none, visited))
  | declared {name : String} {d : Descriptor} {list : List Annotation} (visited : List String) :
      r.Reaches start name → r.reflect name = .ok d → (d.members kind).get? member = some list →
        Answered r kind member start (.ok (some list, visited))
  | missing {name : String} :
      r.Reaches start name → r.contains name = false →
        Answered r kind member start (.error (.typeNotFound name))

/-- **What a search answers**, from a name that is reached. -/
theorem answered_search (hr : r.WellFormed) (hstart : normalize start = start) :
    ∀ {fuel : Nat} {name : String} {visited : List String}, r.Reaches start name →
      r.Answered kind member start (r.search kind member fuel name visited) := by
  intro fuel
  induction fuel with
  | zero => intro name visited _; exact .nothing visited
  | succ fuel ih =>
      intro name visited hname
      by_cases hv : name ∈ visited
      · rw [search_visited hv]
        exact .nothing visited
      cases hd : r.reflect name with
      | error e =>
          obtain ⟨rfl, hunknown⟩ := reflect_eq_error hd
          rw [search_unregistered hv hd, hr.normalize_of_reaches hstart hname]
          exact .missing hname hunknown
      | ok d =>
          cases hm : (d.members kind).get? member with
          | some found =>
              rw [search_declared hv hd hm]
              exact .declared _ hname hd hm
          | none =>
              rw [search_descend hv hd hm]
              rcases firstOf_eq (r.search kind member fuel) d.memberOrder (name :: visited)
                with ⟨v, hnone⟩ | ⟨next, hnext, v, hone⟩
              · rw [hnone]
                exact .nothing v
              · rw [hone]
                exact ih (hname.further ⟨d, hd, Descriptor.mem_memberOrder_iff.1 hnext⟩)

/-! ## §3. The search for a member. -/

variable {className : String}

/-- **What comes of a search for a member**: the list of a type that is reached, that
no type that is reached declares it, or that such a type is not registered. -/
theorem findMember_cases (hr : r.WellFormed) (kind : MemberKind) (className member : String) :
    (∃ other d list, r.Reaches (normalize className) other ∧ r.reflect other = .ok d
        ∧ (d.members kind).get? member = some list
        ∧ r.findMember kind className member = .ok list)
      ∨ (r.findMember kind className member
            = .error (kind.notFound (normalize className) member)
          ∧ ∀ other, r.Reaches (normalize className) other →
              ∃ d, r.reflect other = .ok d ∧ (d.members kind).get? member = none)
      ∨ ∃ missing, r.Reaches (normalize className) missing ∧ r.contains missing = false
          ∧ r.findMember kind className member = .error (.typeNotFound missing) := by
  have hnormal := normalize_normalize className
  have hanswered : r.Answered kind member (normalize className)
      (r.search kind member (r.size + 1) (normalize className) []) :=
    answered_search hr hnormal (.refl r _)
  rw [findMember_eq]
  cases hsearch : r.search kind member (r.size + 1) (normalize className) [] with
  | error e =>
      rw [hsearch] at hanswered
      cases hanswered with
      | missing hmissing hunknown =>
          exact .inr (.inr ⟨_, hmissing, hunknown, rfl⟩)
  | ok out =>
      rw [hsearch] at hanswered
      cases hanswered with
      | declared _ hother hd hlist =>
          exact .inl ⟨_, _, _, hother, hd, hlist, rfl⟩
      | nothing visited =>
          obtain ⟨hexhausted, hstart⟩ :=
            exhausted_of_search hr hnormal (fuelled_start (Nat.lt_succ_self _)) hsearch
          exact .inr (.inl ⟨rfl, fun other hother => hexhausted.of_reaches hstart hother⟩)

/-- **If the closure of the class is found**, the search finds what one of its types
declares, or none of them declares the member. -/
theorem findMember_of_closure (hr : r.WellFormed) {types : List Descriptor}
    (h : r.closure className = .ok types) (kind : MemberKind) (member : String) :
    (∃ d ∈ types, ∃ list, (d.members kind).get? member = some list
        ∧ r.findMember kind className member = .ok list)
      ∨ ((∀ d ∈ types, (d.members kind).get? member = none)
          ∧ r.findMember kind className member
              = .error (kind.notFound (normalize className) member)) := by
  have hlists := listsReached_of_closure hr h
  rcases findMember_cases hr kind className member with
    ⟨other, d, list, hother, hd, hlist, hfound⟩ | ⟨hnothing, hlacks⟩ | ⟨gone, hgone, hunknown, -⟩
  · have hdeclares : ∃ d ∈ types, (d.members kind).get? member = some list :=
      hlists.exists_iff.2 ⟨other, hother, d, hd, hlist⟩
    obtain ⟨d', hd', hlist'⟩ := hdeclares
    exact .inl ⟨d', hd', list, hlist', hfound⟩
  · exact .inr ⟨hlists.forall_iff.2 hlacks, hnothing⟩
  · -- All that the class reaches is registered, for its closure was found.
    have hknown : r.contains gone = true := (closure_ok_iff hr className).1 ⟨types, h⟩ gone hgone
    exact absurd (hknown.symm.trans hunknown) Bool.noConfusion

/-- **Members are found where they are, and nowhere else.**  The search ends however
much fuel it has.  If the closure of the class is found, the member is if and only if
a type of the closure declares it, as one of them does; if none does, that is the
failure.  A type that the search misses is one that the class reaches. -/
theorem findMember_complete (hr : r.WellFormed) (kind : MemberKind) (className member : String) :
    (∀ fuel, r.size < fuel → r.search kind member fuel (normalize className) []
        = r.search kind member (r.size + 1) (normalize className) [])
      ∧ (∀ types, r.closure className = .ok types →
          ((∃ list, r.findMember kind className member = .ok list)
              ↔ ∃ d ∈ types, ∃ list, (d.members kind).get? member = some list)
            ∧ (∀ list, r.findMember kind className member = .ok list →
                ∃ d ∈ types, (d.members kind).get? member = some list)
            ∧ ((∀ d ∈ types, (d.members kind).get? member = none) →
                r.findMember kind className member
                  = .error (kind.notFound (normalize className) member))
            ∧ ∀ missing, r.findMember kind className member ≠ .error (.typeNotFound missing))
      ∧ ∀ missing, r.findMember kind className member = .error (.typeNotFound missing) →
          r.Reaches (normalize className) missing ∧ r.contains missing = false := by
  refine ⟨fun fuel hfuel => (search_eq_of_size_lt hr hfuel className).symm, ?closed, ?missing⟩
  case closed =>
    intro types hclosure
    rcases findMember_of_closure hr hclosure kind member with
      ⟨d, hd, list, hlist, hfound⟩ | ⟨hlacks, hnothing⟩
    · rw [hfound]
      refine ⟨iff_of_true ⟨list, rfl⟩ ⟨d, hd, list, hlist⟩, ?_, ?_, fun _ h => by cases h⟩
      · rintro _ ⟨⟩
        exact ⟨d, hd, hlist⟩
      · intro hnone
        cases hlist.symm.trans (hnone d hd)
    · rw [hnothing]
      refine ⟨iff_of_false ?_ ?_, ?_, fun _ => rfl, ?_⟩
      · rintro ⟨list, ⟨⟩⟩
      · rintro ⟨d, hd, list, hlist⟩
        cases hlist.symm.trans (hlacks d hd)
      · rintro list ⟨⟩
      · intro missing h
        exact kind.notFound_ne_typeNotFound _ _ _ (Except.error.inj h)
  case missing =>
    intro missing h
    rcases findMember_cases hr kind className member with
      ⟨_, _, _, _, _, _, hfound⟩ | ⟨hnothing, -⟩ | ⟨gone, hreached, hunknown, herror⟩
    · cases h.symm.trans hfound
    · exact absurd (Except.error.inj (hnothing.symm.trans h))
        (kind.notFound_ne_typeNotFound _ _ _)
    · cases Except.error.inj (herror.symm.trans h)
      exact ⟨hreached, hunknown⟩

/-- A class that uses two traits which use each other; the second one declares a
method, and one of the class's interfaces is not registered. -/
def ring : List Descriptor :=
  [{ name := "App\\Page", interfaces := ["App\\Gone"], traits := ["App\\Left", "App\\Right"] },
    { name := "App\\Left", kind := .traitKind, traits := ["App\\Right"] },
    { name := "App\\Right", kind := .traitKind, traits := ["App\\Left"]
      methods := Dict.empty.insert "index" [{ name := "Route" }] }]

theorem findMember_complete_of_ring :
    ∃ r, ofTypes ring = .ok r ∧ r.WellFormed
      ∧ (∃ types, r.closure "App\\Left" = .ok types
          ∧ (∃ d ∈ types, (d.members .method).get? "index" = some [{ name := "Route" }])
          ∧ r.findMember .property "App\\Left" "index"
              = .error (.propertyNotFound "App\\Left" "index"))
      ∧ r.Reaches "App\\Page" "App\\Gone" ∧ r.contains "App\\Gone" = false := by
  obtain ⟨r, hr⟩ : ∃ r, ofTypes ring = .ok r := ⟨_, rfl⟩
  have hwell : r.WellFormed := wellFormed_ofTypes hr
  have hmethod : r.findMember .method "App\\Left" "index" = .ok [{ name := "Route" }] := by
    cases hr
    rfl
  have hmissing : r.findMember .method "App\\Page" "show" = .error (.typeNotFound "App\\Gone") := by
    cases hr
    rfl
  obtain ⟨types, hclosure, hlacks⟩ : ∃ types, r.closure "App\\Left" = .ok types
      ∧ ∀ d ∈ types, (d.members .property).get? "index" = none := by
    cases hr
    refine ⟨_, rfl, ?_⟩
    intro d hd
    simp only [List.mem_cons, List.not_mem_nil, or_false] at hd
    rcases hd with rfl | rfl <;> rfl
  obtain ⟨-, hdeclared, -, -⟩ :=
    (findMember_complete hwell .method "App\\Left" "index").2.1 types hclosure
  obtain ⟨-, -, hnone, -⟩ :=
    (findMember_complete hwell .property "App\\Left" "index").2.1 types hclosure
  exact ⟨r, hr, hwell, ⟨types, hclosure, hdeclared _ hmethod, hnone hlacks⟩,
    (findMember_complete hwell .method "App\\Page" "show").2.2 _ hmissing⟩

end Registry

end AnnotationCache.Types

/-
  AnnotationCache.Proofs.Types.Plain
  ──────────────────────────────────
  **SEARCHING WITHOUT A MEMORY.**

  The plain way to look for a member is to ask a type, then everything that it
  takes members from, each to its end, and to remember nothing.  On a hierarchy
  with cycles that may never end; where no cycle is reached it does, and then the
  names that the search of the registry has visited change nothing.

  In a diamond the two go different ways: the plain search comes to a type once for
  every path.  What makes up for that is that every visited name that is reached
  again was searched in vain before (`Concurs`).  It cannot be one that is still
  being searched, since that would be a cycle.

  Main statements:
    * `PlainSearch.unique` — the plain search comes to one outcome at most;
    * `search_concurs`     — a search with visited names comes to the same one;
    * `findMember_plain`   — so does the search for a member.
-/
import Mathlib.Logic.ExistsUnique
import AnnotationCache.Proofs.Types.Lookup

namespace AnnotationCache.Types.Registry

variable {r : Registry} {kind : MemberKind} {member name next start : String}

/-! ## §1. Hierarchies without cycles. -/

/-- **Does a name reach no cycle?** -/
def Acyclic (r : Registry) (start : String) : Prop :=
  ∀ name, r.Reaches start name → ∀ count, ¬ r.Path name (count + 1) name

/-- A path with one more reference in front. -/
theorem RefersTo.path {last : String} {count : Nat} (h : r.RefersTo name next)
    (hpath : r.Path next count last) : r.Path name (count + 1) last := by
  induction hpath with
  | here => exact .further .here h
  | further _ hlast ih => exact ih.further hlast

theorem Acyclic.below (h : r.Acyclic name) (hnext : r.RefersTo name next) : r.Acyclic next := by
  intro other hother
  exact h other (((Reaches.refl r name).further hnext).trans hother)

/-- What a type refers to does not lead back to it. -/
theorem Acyclic.not_back (h : r.Acyclic name) (hnext : r.RefersTo name next) :
    ¬ r.Reaches next name := by
  rintro ⟨count, hpath⟩
  exact h name (.refl r name) count (hnext.path hpath)

/-- **Types that refer to lower ranks only** reach no cycle. -/
theorem acyclic_of_rank {types : List Descriptor} (h : ofTypes types = .ok r) {rank : String → Nat}
    (hrank : ∀ d ∈ types, ∀ next ∈ d.normalized.dependencies, rank next < rank (normalize d.name))
    (start : String) : r.Acyclic start := by
  have hstep : ∀ {name next}, r.RefersTo name next →
      rank (normalize next) < rank (normalize name) := by
    rintro name next ⟨e, he, hnext⟩
    obtain ⟨d, hd, hname, rfl⟩ := (get?_ofTypes h).1 (reflect_eq_ok.1 he)
    have hnormal : normalize next = next := (wellFormed_ofTypes h).normalize_dependency he hnext
    rw [hnormal, ← hname]
    exact hrank d hd next hnext
  have hpath : ∀ {name last count}, r.Path name count last →
      rank (normalize last) + count ≤ rank (normalize name) := by
    intro name last count hpath
    induction hpath with
    | here => exact Nat.le_refl _
    | further _ hlast ih =>
        have hlower := hstep hlast
        omega
  intro name _ count hcycle
  have hdescends := hpath hcycle
  omega

/-! ## §2. The plain search. -/

/-- **What the plain search comes to**, asking one name after the other: the list that
a type declares, the failure to find a type, or nothing.  A type that lacks the
member is searched through what it takes members from, however often it was searched
before. -/
inductive PlainSearch (r : Registry) (kind : MemberKind) (member : String) :
    List String → Except Error (Option (List Annotation)) → Prop where
  /-- Nobody is left to ask. -/
  | nobody : PlainSearch r kind member [] (.ok none)
  /-- A name that is not registered ends the search. -/
  | unregistered {name : String} {names : List String} {e : Error} :
      r.reflect name = .error e → PlainSearch r kind member (name :: names) (.error e)
  /-- So does a type that declares the member. -/
  | declared {name : String} {names : List String} {d : Descriptor} {list : List Annotation} :
      r.reflect name = .ok d → (d.members kind).get? member = some list →
        PlainSearch r kind member (name :: names) (.ok (some list))
  /-- The search ends below a type that lacks the member. -/
  | inside {name : String} {names : List String} {d : Descriptor}
      {outcome : Except Error (Option (List Annotation))} :
      r.reflect name = .ok d → (d.members kind).get? member = none →
        PlainSearch r kind member d.memberOrder outcome → outcome ≠ .ok none →
          PlainSearch r kind member (name :: names) outcome
  /-- There is nothing below it either, and the next name is asked. -/
  | onward {name : String} {names : List String} {d : Descriptor}
      {outcome : Except Error (Option (List Annotation))} :
      r.reflect name = .ok d → (d.members kind).get? member = none →
        PlainSearch r kind member d.memberOrder (.ok none) →
          PlainSearch r kind member names outcome →
            PlainSearch r kind member (name :: names) outcome

namespace PlainSearch

variable {names : List String} {outcome outcome' : Except Error (Option (List Annotation))}

/-- **The plain search comes to one outcome.** -/
theorem unique (h : r.PlainSearch kind member names outcome)
    (h' : r.PlainSearch kind member names outcome') : outcome = outcome' := by
  induction h generalizing outcome' with
  | nobody => cases h'; rfl
  | unregistered he =>
      cases h' with
      | unregistered he' => cases he.symm.trans he'; rfl
      | declared hd | inside hd | onward hd => cases he.symm.trans hd
  | declared hd hlist =>
      cases h' with
      | unregistered he => cases hd.symm.trans he
      | declared hd' hlist' =>
          cases hd.symm.trans hd'
          cases hlist.symm.trans hlist'
          rfl
      | inside hd' hnone | onward hd' hnone =>
          cases hd.symm.trans hd'
          cases hlist.symm.trans hnone
  | inside hd hnone _ hends ih =>
      cases h' with
      | unregistered he => cases hd.symm.trans he
      | declared hd' hlist =>
          cases hd.symm.trans hd'
          cases hnone.symm.trans hlist
      | inside hd' _ hbelow =>
          cases hd.symm.trans hd'
          exact ih hbelow
      | onward hd' _ hvain =>
          cases hd.symm.trans hd'
          exact absurd (ih hvain) hends
  | onward hd hnone _ _ ihbelow ih =>
      cases h' with
      | unregistered he => cases hd.symm.trans he
      | declared hd' hlist =>
          cases hd.symm.trans hd'
          cases hnone.symm.trans hlist
      | inside hd' _ hbelow hends =>
          cases hd.symm.trans hd'
          exact absurd (ihbelow hbelow).symm hends
      | onward hd' _ _ hnext =>
          cases hd.symm.trans hd'
          exact ih hnext

/-- A plain search only fails over a type that it does not find. -/
theorem error_eq {e : Error} (h : r.PlainSearch kind member names (.error e)) :
    ∃ missing, e = .typeNotFound missing := by
  generalize houtcome : Except.error e = outcome at h
  induction h with
  | nobody | declared => cases houtcome
  | unregistered he =>
      cases houtcome
      exact ⟨_, (reflect_eq_error he).1⟩
  | inside _ _ _ _ ih => exact ih houtcome
  | onward _ _ _ _ _ ih => exact ih houtcome

/-- A type without the member is searched through what it takes members from. -/
theorem of_below {d : Descriptor} (hd : r.reflect name = .ok d)
    (hnone : (d.members kind).get? member = none)
    (h : r.PlainSearch kind member d.memberOrder outcome) :
    r.PlainSearch kind member [name] outcome := by
  by_cases hvain : outcome = .ok none
  · subst hvain
    exact .onward hd hnone h .nobody
  · exact .inside hd hnone h hvain

/-- What ends the search of the first name ends it for all names. -/
theorem of_first (h : r.PlainSearch kind member [name] outcome) (hends : outcome ≠ .ok none)
    (names : List String) : r.PlainSearch kind member (name :: names) outcome := by
  cases h with
  | unregistered he => exact .unregistered he
  | declared hd hlist => exact .declared hd hlist
  | inside hd hnone hbelow => exact .inside hd hnone hbelow hends
  | onward _ _ _ hnobody =>
      cases hnobody
      exact absurd rfl hends

/-- If the first name is searched in vain, the search goes on with the others. -/
theorem of_rest (hvain : r.PlainSearch kind member [name] (.ok none))
    (h : r.PlainSearch kind member names outcome) :
    r.PlainSearch kind member (name :: names) outcome := by
  cases hvain with
  | inside _ _ _ hends => exact absurd rfl hends
  | onward hd hnone hbelow => exact .onward hd hnone hbelow h

end PlainSearch

/-- Is a name searched in vain? -/
def Vain (r : Registry) (kind : MemberKind) (member name : String) : Prop :=
  r.PlainSearch kind member [name] (.ok none)

/-! ## §3. The search with visited names. -/

/-- **Does a search with visited names come to what the plain one comes to**, and visit
nothing besides that is not searched in vain, if it finds nothing? -/
structure Concurs (r : Registry) (kind : MemberKind) (member : String)
    (names visited : List String) (answer : Except Error Search) : Prop where
  outcome : r.PlainSearch kind member names (answer.map Prod.fst)
  vain : ∀ visited', answer = .ok (none, visited') →
    ∀ v ∈ visited', v ∈ visited ∨ r.Vain kind member v

/-- Names that are asked one after the other come to what the plain search comes to,
if each of them does where the visited names that it reaches were searched in vain. -/
theorem firstOf_concurs {fuel : Nat} {f : String → List String → Except Error Search}
    {names visited : List String}
    (hf : ∀ name ∈ names, ∀ visited, r.Fuelled fuel visited →
      (∀ v ∈ visited, r.Reaches name v → r.Vain kind member v) →
        r.Concurs kind member [name] visited (f name visited))
    (hfuelled : ∀ name ∈ names, ∀ v o, r.Fuelled fuel v → f name v = .ok o → r.Fuelled fuel o.2)
    (hfuel : r.Fuelled fuel visited)
    (hvisited : ∀ name ∈ names, ∀ v ∈ visited, r.Reaches name v → r.Vain kind member v) :
    r.Concurs kind member names visited (firstOf f names visited) := by
  induction names generalizing visited with
  | nil =>
      refine ⟨.nobody, ?_⟩
      rintro _ ⟨⟩ v hv
      exact .inl hv
  | cons name names ih =>
      obtain ⟨hname, hnames⟩ := List.forall_mem_cons.1 hf
      obtain ⟨hkeeps, hkeep⟩ := List.forall_mem_cons.1 hfuelled
      obtain ⟨hhere, hlater⟩ := List.forall_mem_cons.1 hvisited
      have hfirst := hname visited hfuel hhere
      cases hone : f name visited with
      | error e =>
          rw [hone] at hfirst
          rw [firstOf_error hone]
          exact ⟨hfirst.outcome.of_first (fun h => by cases h) names, fun _ h => by cases h⟩
      | ok out =>
          obtain ⟨found, mid⟩ := out
          rw [hone] at hfirst
          cases found with
          | some found =>
              rw [firstOf_found hone]
              exact ⟨hfirst.outcome.of_first (fun h => by cases h) names, fun _ h => by cases h⟩
          | none =>
              have hmid : ∀ v ∈ mid, v ∈ visited ∨ r.Vain kind member v := hfirst.vain mid rfl
              rw [firstOf_next hone]
              have hrest := ih hnames hkeep (hkeeps visited _ hfuel hone) (by
                intro n hn v hv hreaches
                rcases hmid v hv with hbefore | hvain
                · exact hlater n hn v hbefore hreaches
                · exact hvain)
              refine ⟨hfirst.outcome.of_rest hrest.outcome, ?_⟩
              intro visited' h v hv
              rcases hrest.vain visited' h v hv with hv | hvain
              · exact hmid v hv
              · exact .inr hvain

/-- **A search comes to what the plain search comes to**, where no cycle is reached and
the visited names that are reached were searched in vain. -/
theorem search_concurs (hr : r.WellFormed) :
    ∀ {fuel : Nat} {name : String} {visited : List String}, normalize name = name →
      r.Acyclic name → r.Fuelled fuel visited →
        (∀ v ∈ visited, r.Reaches name v → r.Vain kind member v) →
          r.Concurs kind member [name] visited (r.search kind member fuel name visited) := by
  intro fuel
  induction fuel with
  | zero => intro name visited _ _ hfuel; exact absurd hfuel Fuelled.ne_zero
  | succ fuel ih =>
      intro name visited hname hacyclic hfuel hvisited
      by_cases hv : name ∈ visited
      · rw [search_visited hv]
        refine ⟨hvisited name hv (.refl r name), ?_⟩
        rintro _ ⟨⟩ v hv
        exact .inl hv
      cases hd : r.reflect name with
      | error e =>
          rw [search_unregistered hv hd]
          exact ⟨.unregistered hd, fun _ h => by cases h⟩
      | ok d =>
          cases hm : (d.members kind).get? member with
          | some found =>
              rw [search_declared hv hd hm]
              exact ⟨.declared hd hm, fun _ h => by cases h⟩
          | none =>
              have hrefers : ∀ next ∈ d.memberOrder, r.RefersTo name next := fun next hnext =>
                ⟨d, hd, Descriptor.mem_memberOrder_iff.1 hnext⟩
              have hstep := hfuel.step hv (mem_names_of_reflect hname hd)
              have hbelow : r.Concurs kind member d.memberOrder (name :: visited)
                  (firstOf (r.search kind member fuel) d.memberOrder (name :: visited)) := by
                apply firstOf_concurs _ _ hstep
                · intro next hnext v hv hreaches
                  rcases List.mem_cons.1 hv with rfl | hv
                  · -- The type itself is visited, but what it refers to does not lead back.
                    exact absurd hreaches (hacyclic.not_back (hrefers next hnext))
                  · exact hvisited v hv
                      (((Reaches.refl r name).further (hrefers next hnext)).trans hreaches)
                · intro next hnext v hfuel' hv'
                  exact ih (hr.normalize_memberOrder hd hnext) (hacyclic.below (hrefers next hnext))
                    hfuel' hv'
                · intro next hnext v o hfuel' hone
                  exact search_keeps_fuelled hr (hr.normalize_memberOrder hd hnext) hfuel' hone
              rw [search_descend hv hd hm]
              refine ⟨hbelow.outcome.of_below hd hm, ?_⟩
              intro visited' h v hv'
              rcases hbelow.vain visited' h v hv' with hv' | hvain
              · rcases List.mem_cons.1 hv' with rfl | hv'
                · -- It was searched in vain, since nothing was found below it.
                  have houtcome := hbelow.outcome
                  rw [h] at houtcome
                  exact .inr (houtcome.of_below hd hm)
                · exact .inl hv'
              · exact .inr hvain

/-! ## §4. The search for a member. -/

/-- **Visited names change nothing but that the search ends.**  Where a class reaches no
cycle, the plain search comes to one outcome, and the search for a member answers that:
the same list, the same missing type, or that there is no such member. -/
theorem findMember_plain (hr : r.WellFormed) {className : String}
    (hacyclic : r.Acyclic (normalize className)) (kind : MemberKind) (member : String) :
    (∃! outcome, r.PlainSearch kind member [normalize className] outcome)
      ∧ (∀ list, r.findMember kind className member = .ok list
          ↔ r.PlainSearch kind member [normalize className] (.ok (some list)))
      ∧ (∀ missing, r.findMember kind className member = .error (.typeNotFound missing)
          ↔ r.PlainSearch kind member [normalize className] (.error (.typeNotFound missing)))
      ∧ (r.findMember kind className member = .error (kind.notFound (normalize className) member)
          ↔ r.PlainSearch kind member [normalize className] (.ok none)) := by
  have hconcurs : r.Concurs kind member [normalize className] []
      (r.search kind member (r.size + 1) (normalize className) []) :=
    search_concurs hr (normalize_normalize className) hacyclic
      (fuelled_start (Nat.lt_succ_self _)) (fun _ h => absurd h List.not_mem_nil)
  have houtcome := hconcurs.outcome
  have hiff : ∀ outcome, r.PlainSearch kind member [normalize className] outcome
      ↔ (r.search kind member (r.size + 1) (normalize className) []).map Prod.fst = outcome :=
    fun outcome => ⟨houtcome.unique, fun h => h ▸ houtcome⟩
  rw [findMember_eq]
  simp only [hiff]
  refine ⟨⟨_, rfl, fun _ h => h.symm⟩, ?_⟩
  rcases hsearch : r.search kind member (r.size + 1) (normalize className) []
    with e | ⟨_ | found, visited⟩
  · rw [hsearch] at houtcome
    obtain ⟨missing, rfl⟩ := houtcome.error_eq
    have hdiffers : Error.typeNotFound missing ≠ kind.notFound (normalize className) member :=
      (kind.notFound_ne_typeNotFound _ _ _).symm
    simp [Except.map, hdiffers]
  · simp [Except.map, kind.notFound_ne_typeNotFound]
  · simp [Except.map]

/-- A class that uses two traits, both of which use a third one.  One of the two
declares a method and has an interface that is not registered. -/
def diamond : List Descriptor :=
  [{ name := "App\\Page", traits := ["App\\Left", "App\\Right"] },
    { name := "App\\Left", kind := .traitKind, traits := ["App\\Shared"] },
    { name := "App\\Right", kind := .traitKind, traits := ["App\\Shared"]
      interfaces := ["App\\Gone"], methods := Dict.empty.insert "index" [{ name := "Route" }] },
    { name := "App\\Shared", kind := .traitKind }]

/-- The class above its two traits, these above what they refer to. -/
def diamondRank (name : String) : Nat :=
  if name = "App\\Page" then 2
  else if name = "App\\Left" ∨ name = "App\\Right" then 1 else 0

theorem findMember_plain_of_diamond :
    ∃ r, ofTypes diamond = .ok r ∧ r.WellFormed
      ∧ (r.Acyclic "App\\Page"
          ∧ r.PlainSearch .method "index" ["App\\Page"] (.ok (some [{ name := "Route" }]))
          ∧ r.PlainSearch .method "show" ["App\\Page"] (.error (.typeNotFound "App\\Gone")))
      ∧ r.Acyclic "App\\Left" ∧ r.PlainSearch .property "index" ["App\\Left"] (.ok none) := by
  obtain ⟨r, hr⟩ : ∃ r, ofTypes diamond = .ok r := ⟨_, rfl⟩
  have hwell : r.WellFormed := wellFormed_ofTypes hr
  have hrank : ∀ d ∈ diamond, ∀ next ∈ d.normalized.dependencies,
      diamondRank next < diamondRank (normalize d.name) := by decide
  have hindex : r.findMember .method "App\\Page" "index" = .ok [{ name := "Route" }] := by
    cases hr
    rfl
  have hshow : r.findMember .method "App\\Page" "show" = .error (.typeNotFound "App\\Gone") := by
    cases hr
    rfl
  have hnothing : r.findMember .property "App\\Left" "index"
      = .error (.propertyNotFound "App\\Left" "index") := by
    cases hr
    rfl
  have hpage : r.Acyclic (normalize "App\\Page") := acyclic_of_rank hr hrank _
  have hleft : r.Acyclic (normalize "App\\Left") := acyclic_of_rank hr hrank _
  exact ⟨r, hr, hwell,
    ⟨hpage, ((findMember_plain hwell hpage .method "index").2.1 _).1 hindex,
      ((findMember_plain hwell hpage .method "show").2.2.1 _).1 hshow⟩,
    hleft, (findMember_plain hwell hleft .property "index").2.2.2.1 hnothing⟩

end AnnotationCache.Types.Registry

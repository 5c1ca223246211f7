/-
  AnnotationCache.Proofs.Types.Precedence
  ───────────────────────────────────────
  **INTERFACES COME LAST.**

  The list of a member is one that the class itself declares; if it declares none, one
  of its traits; if these declare none, one of its parents or their traits; and only if
  there is none either, one of the interfaces.  Traits have no parents and no interfaces
  here (`PlainTraits`); cycles are allowed.

  The search decides that at each type for itself: the interfaces of a parent are asked
  before those of its child.  What makes it hold for the hierarchy as a whole is that
  interfaces are only asked where the chain of parents ends.  Everything visited up to
  there lacks the member, and what its types have as traits and parents was visited too
  (`Settled`); so that is all that the class reaches without an interface.

  Main statements:
    * `Settled.exhausted`     — searching out what is pending keeps a set settled;
    * `ancestry_first`        — interfaces are asked when all ancestors are settled;
    * `findMember_precedence` — where the list of a member comes from.
-/
import Mathlib.Logic.Relation
import AnnotationCache.Proofs.Types.Lookup

namespace AnnotationCache.Types

namespace Descriptor

/-- The types that a type gets members from without an interface: its traits, and its
parent. -/
def ancestry (d : Descriptor) : List String :=
  d.traits ++ d.parent.toList

theorem mem_ancestry_of_traits (d : Descriptor) : ∀ next ∈ d.traits, next ∈ d.ancestry :=
  fun _ h => List.mem_append_left _ h

theorem mem_memberOrder_of_ancestry (d : Descriptor) : ∀ next ∈ d.ancestry, next ∈ d.memberOrder :=
  fun _ h => List.mem_append_left _ h

theorem mem_memberOrder_of_traits (d : Descriptor) : ∀ next ∈ d.traits, next ∈ d.memberOrder :=
  fun next h => d.mem_memberOrder_of_ancestry next (d.mem_ancestry_of_traits next h)

/-- A type without a parent and interfaces refers to its traits only. -/
theorem mem_traits_of_dependencies {d : Descriptor} (hparent : d.parent = none)
    (hinterfaces : d.interfaces = []) {next : String} (h : next ∈ d.dependencies) :
    next ∈ d.traits := by
  simpa [dependencies, hparent, hinterfaces] using h

end Descriptor

namespace Registry

open Descriptor

variable {r : Registry} {kind : MemberKind} {member start name : String}
  {lists : Descriptor → List String} {visited visited' pending : List String}
  {list : List Annotation}

/-! ## §1. Which way a type is reached. -/

/-- **Is a name reached along certain references only?** -/
def Leads (r : Registry) (lists : Descriptor → List String) : String → String → Prop :=
  Relation.ReflTransGen fun name next => ∃ d, r.reflect name = .ok d ∧ next ∈ lists d

/-- What is reached along some references is reached along more of them. -/
theorem Leads.mono {more : Descriptor → List String}
    (hmore : ∀ d : Descriptor, ∀ next ∈ lists d, next ∈ more d) (h : r.Leads lists start name) :
    r.Leads more start name := by
  refine Relation.ReflTransGen.mono ?_ start name h
  rintro name next ⟨d, hd, hnext⟩
  exact ⟨d, hd, hmore d next hnext⟩

/-- Is a name reached by a path that has an interface on it? -/
def ThroughInterface (r : Registry) (start name : String) : Prop :=
  ∃ implementor d interface, r.Reaches start implementor ∧ r.reflect implementor = .ok d
    ∧ interface ∈ d.interfaces ∧ r.Reaches interface name

/-- **Does every type that is reached by a path with a trait on it have traits only**,
and neither a parent nor interfaces? -/
def PlainTraits (r : Registry) (start : String) : Prop :=
  ∀ user d trait name e, r.Reaches start user → r.reflect user = .ok d → trait ∈ d.traits →
    r.Reaches trait name → r.reflect name = .ok e → e.parent = none ∧ e.interfaces = []

/-- Below a trait there are traits of traits. -/
theorem PlainTraits.leads (h : r.PlainTraits start) {user trait : String} {d : Descriptor}
    (huser : r.Reaches start user) (hd : r.reflect user = .ok d) (htrait : trait ∈ d.traits)
    (hname : r.Reaches trait name) : r.Leads Descriptor.traits user name := by
  obtain ⟨count, hpath⟩ := hname
  induction hpath with
  | here => exact .single ⟨d, hd, htrait⟩
  | @further count before next hbefore hlast ih =>
      obtain ⟨e, he, hnext⟩ := hlast
      obtain ⟨hparent, hinterfaces⟩ :=
        h user d trait before e huser hd htrait ⟨count, hbefore⟩ he
      exact ih.tail ⟨e, he, mem_traits_of_dependencies hparent hinterfaces hnext⟩

/-- **If names are known to be those of traits**, and types by these names have neither
parents nor interfaces, then traits are plain. -/
theorem plainTraits_of_names {types : List Descriptor} (h : ofTypes types = .ok r)
    (isTrait : String → Prop)
    (hused : ∀ d ∈ types, ∀ trait ∈ d.normalized.traits, isTrait trait)
    (hplain : ∀ d ∈ types, isTrait (normalize d.name) → d.parent = none ∧ d.interfaces = [])
    (start : String) : r.PlainTraits start := by
  have hdeclared : ∀ {name e}, r.reflect name = .ok e →
      ∃ d ∈ types, normalize d.name = normalize name ∧ d.normalized = e :=
    fun he => (get?_ofTypes h).1 (reflect_eq_ok.1 he)
  have hbare : ∀ {name e}, isTrait (normalize name) → r.reflect name = .ok e →
      e.parent = none ∧ e.interfaces = [] := by
    intro name e hname he
    obtain ⟨d, hd, hsame, rfl⟩ := hdeclared he
    rw [← hsame] at hname
    obtain ⟨hparent, hinterfaces⟩ := hplain d hd hname
    simp [Descriptor.normalized, hparent, hinterfaces]
  have hnormal : ∀ {name e next}, r.reflect name = .ok e → next ∈ e.traits →
      isTrait (normalize next) := by
    intro name e next he hnext
    have hdep : next ∈ e.dependencies := List.mem_append_right _ hnext
    rw [(wellFormed_ofTypes h).normalize_dependency he hdep]
    obtain ⟨d, hd, -, rfl⟩ := hdeclared he
    exact hused d hd next hnext
  intro user d trait name e _ hd htrait hname he
  suffices hreached : isTrait (normalize name) from hbare hreached he
  clear he
  obtain ⟨count, hpath⟩ := hname
  induction hpath with
  | here => exact hnormal hd htrait
  | further _ hlast ih =>
      obtain ⟨e, he, hnext⟩ := hlast
      obtain ⟨hparent, hinterfaces⟩ := hbare ih he
      exact hnormal he (mem_traits_of_dependencies hparent hinterfaces hnext)

/-- Does a type declare the member with a list? -/
def Declares (r : Registry) (kind : MemberKind) (member name : String) (list : List Annotation) :
    Prop :=
  ∃ d, r.reflect name = .ok d ∧ (d.members kind).get? member = some list

/-- **Where the list of a member comes from**: the class, else its traits, else its
parents and their traits, else an interface. -/
inductive Precedence (r : Registry) (kind : MemberKind) (member start : String)
    (list : List Annotation) : Prop where
  | own : r.Declares kind member start list → Precedence r kind member start list
  | trait {name : String} :
      (∀ other, ¬ r.Declares kind member start other) →
        r.Leads Descriptor.traits start name → r.Declares kind member name list →
          Precedence r kind member start list
  | ancestor {name : String} :
      (∀ nearer, r.Leads Descriptor.traits start nearer →
        ∀ other, ¬ r.Declares kind member nearer other) →
        r.Leads Descriptor.ancestry start name → r.Declares kind member name list →
          Precedence r kind member start list
  | interface {name : String} :
      (∀ nearer, r.Leads Descriptor.ancestry start nearer →
        ∀ other, ¬ r.Declares kind member nearer other) →
        r.ThroughInterface start name → r.Declares kind member name list →
          Precedence r kind member start list

/-! ## §2. Settled names. -/

/-- **Is what was visited settled along certain references?**  Each name is that of a type
without the member, and what that type refers to there was visited or is pending. -/
def Settled (r : Registry) (kind : MemberKind) (member : String)
    (lists : Descriptor → List String) (visited pending : List String) : Prop :=
  ∀ name ∈ visited, ∃ d, r.reflect name = .ok d ∧ (d.members kind).get? member = none
    ∧ ∀ next ∈ lists d, next ∈ visited ∨ next ∈ pending

/-- A type without the member is visited, and what it refers to is pending. -/
theorem Settled.visit (h : r.Settled kind member lists visited [name]) {d : Descriptor}
    (hd : r.reflect name = .ok d) (hnone : (d.members kind).get? member = none) :
    r.Settled kind member lists (name :: visited) (lists d) := by
  intro n hn
  rcases List.mem_cons.1 hn with rfl | hn
  · exact ⟨d, hd, hnone, fun next hnext => .inr hnext⟩
  · obtain ⟨e, he, hlacks, hnexts⟩ := h n hn
    refine ⟨e, he, hlacks, fun next hnext => .inl ?_⟩
    rcases hnexts next hnext with hbefore | hname
    · exact List.mem_cons_of_mem _ hbefore
    · rw [List.mem_singleton.1 hname]
      exact List.mem_cons_self

/-- **Searching out what is pending** keeps what was visited settled. -/
theorem Settled.exhausted {asked : List String}
    (hlists : ∀ d : Descriptor, ∀ next ∈ lists d, next ∈ d.memberOrder)
    (h : r.Settled kind member lists visited (asked ++ pending))
    (hexhausted : r.Exhausted kind member visited visited') (hasked : ∀ n ∈ asked, n ∈ visited') :
    r.Settled kind member lists visited' pending := by
  intro n hn
  by_cases hbefore : n ∈ visited
  · obtain ⟨d, hd, hnone, hnexts⟩ := h n hbefore
    refine ⟨d, hd, hnone, fun next hnext => ?_⟩
    rcases hnexts next hnext with hvisited | hpending
    · exact .inl (hexhausted.kept next hvisited)
    · exact (List.mem_append.1 hpending).imp_left (hasked next)
  · obtain ⟨d, hd, hnone, hnexts⟩ := hexhausted.lacking n hn hbefore
    exact ⟨d, hd, hnone, fun next hnext => .inl (hnexts next (hlists d next hnext))⟩

/-- **Where nothing is pending**, nothing declares the member that is reached along these
references. -/
theorem Settled.lacks (h : r.Settled kind member lists visited []) (hstart : start ∈ visited)
    (hname : r.Leads lists start name) (other : List Annotation) :
    ¬ r.Declares kind member name other := by
  have hvisited : name ∈ visited := by
    induction hname with
    | refl => exact hstart
    | tail _ hlast ih =>
        obtain ⟨d, hd, hnext⟩ := hlast
        obtain ⟨e, he, -, hnexts⟩ := h _ ih
        cases hd.symm.trans he
        rcases hnexts _ hnext with hvisited | hpending
        · exact hvisited
        · cases hpending
  obtain ⟨d, hd, hnone, -⟩ := h name hvisited
  rintro ⟨e, he, hother⟩
  cases hd.symm.trans he
  cases hnone.symm.trans hother

/-! ## §3. One type of a search. -/

/-- Names that are searched in vain one after the other are searched out. -/
theorem exhausted_of_names (hr : r.WellFormed) {fuel : Nat} {names : List String}
    (hnormal : ∀ n ∈ names, normalize n = n) (hfuel : r.Fuelled fuel visited)
    (h : firstOf (r.search kind member fuel) names visited = .ok (none, visited')) :
    r.Exhausted kind member visited visited' ∧ (∀ n ∈ names, n ∈ visited')
      ∧ r.Fuelled fuel visited' := by
  have hsearch : ∀ n ∈ names, ∀ v v', r.Fuelled fuel v →
      r.search kind member fuel n v = .ok (none, v') →
        r.Fuelled fuel v' ∧ r.Exhausted kind member v v' ∧ n ∈ v' := by
    intro n hn v v' hv hone
    obtain ⟨hexhausted, hmem⟩ := exhausted_of_search hr (hnormal n hn) hv hone
    exact ⟨search_keeps_fuelled hr (hnormal n hn) hv hone, hexhausted, hmem⟩
  obtain ⟨hexhausted, hasked⟩ := exhausted_of_firstOf hsearch hfuel h
  refine ⟨hexhausted, hasked, firstOf_keeps (r.Fuelled fuel) ?_ hfuel h⟩
  intro n hn v o hv hone
  exact search_keeps_fuelled hr (hnormal n hn) hv hone

/-- A list that is found among names is declared by what one of them reaches. -/
theorem declares_of_names (hr : r.WellFormed) {fuel : Nat} {names after : List String}
    (hnormal : ∀ n ∈ names, normalize n = n)
    (h : firstOf (r.search kind member fuel) names visited = .ok (some list, after)) :
    ∃ n ∈ names, ∃ other, r.Reaches n other ∧ r.Declares kind member other list := by
  rcases firstOf_eq (r.search kind member fuel) names visited with ⟨v, hnone⟩ | ⟨n, hn, v, hone⟩
  · cases h.symm.trans hnone
  · have hanswered : r.Answered kind member n (r.search kind member fuel n v) :=
      answered_search hr (hnormal n hn) (.refl r n)
    rw [← hone, h] at hanswered
    cases hanswered with
    | declared _ hother hd hlist => exact ⟨n, hn, _, hother, _, hd, hlist⟩

/-- **How a search that finds a list begins**: the type declares it, or lacks the member
and then what it takes members from is asked. -/
theorem search_found {fuel : Nat} {after : List String}
    (h : r.search kind member (fuel + 1) name visited = .ok (some list, after)) :
    name ∉ visited ∧ ∃ d, r.reflect name = .ok d
      ∧ ((d.members kind).get? member = some list
        ∨ (d.members kind).get? member = none
          ∧ firstOf (r.search kind member fuel) d.memberOrder (name :: visited)
              = .ok (some list, after)) := by
  have hv : name ∉ visited := by
    intro hv
    rw [search_visited hv] at h
    cases h
  refine ⟨hv, ?_⟩
  cases hd : r.reflect name with
  | error e =>
      rw [search_unregistered hv hd] at h
      cases h
  | ok d =>
      refine ⟨d, rfl, ?_⟩
      cases hm : (d.members kind).get? member with
      | some found =>
          rw [search_declared hv hd hm] at h
          cases h
          exact .inl rfl
      | none =>
          rw [search_descend hv hd hm] at h
          exact .inr ⟨rfl, h⟩

/-! ## §4. Interfaces come last. -/

/-- What is reached through an interface from what a type refers to, is so from the type. -/
theorem ThroughInterface.of_refersTo {next : String} (hnext : r.RefersTo name next)
    (h : r.ThroughInterface next start) : r.ThroughInterface name start := by
  obtain ⟨implementor, d, interface, himplementor, hd, hinterface, hstart⟩ := h
  exact ⟨implementor, d, interface, ((Reaches.refl r name).further hnext).trans himplementor, hd,
    hinterface, hstart⟩

/-- **A list that comes through an interface**, with everything settled that is reached
without one. -/
def LeftToInterfaces (r : Registry) (kind : MemberKind) (member name : String)
    (visited : List String) (list : List Annotation) : Prop :=
  ∃ settled, (∀ v ∈ visited, v ∈ settled) ∧ r.Settled kind member Descriptor.ancestry settled []
    ∧ ∃ other, r.ThroughInterface name other ∧ r.Declares kind member other list

/-- What is left to interfaces by a parent is left to them by its child. -/
theorem LeftToInterfaces.of_refersTo {next : String} {mid : List String}
    (h : r.LeftToInterfaces kind member next mid list) (hnext : r.RefersTo name next)
    (hkept : ∀ v ∈ visited, v ∈ mid) : r.LeftToInterfaces kind member name visited list := by
  obtain ⟨settled, hmid, hall, other, hthrough, hdeclares⟩ := h
  exact ⟨settled, fun v hv => hmid v (hkept v hv), hall, other, hthrough.of_refersTo hnext,
    hdeclares⟩

/-- A list that is found among the interfaces of a type, after its traits and its parent
were searched in vain. -/
theorem leftToInterfaces_of_interfaces (hr : r.WellFormed) {fuel : Nat} {d : Descriptor}
    {mid after : List String} (hd : r.reflect name = .ok d) (hfuel : r.Fuelled fuel visited)
    (hpending : r.Settled kind member Descriptor.ancestry visited d.ancestry)
    (hkin : firstOf (r.search kind member fuel) d.ancestry visited = .ok (none, mid))
    (hinterfaces : firstOf (r.search kind member fuel) d.interfaces mid = .ok (some list, after)) :
    r.LeftToInterfaces kind member name visited list := by
  obtain ⟨interface, hinterface, other, hother, hdeclares⟩ := declares_of_names hr
    (fun n hn => hr.normalize_memberOrder hd (List.mem_append_right _ hn)) hinterfaces
  obtain ⟨hexhausted, hasked, -⟩ := exhausted_of_names hr
    (fun n hn => hr.normalize_memberOrder hd (mem_memberOrder_of_ancestry d n hn)) hfuel hkin
  rw [← List.append_nil d.ancestry] at hpending
  exact ⟨mid, hexhausted.kept, hpending.exhausted mem_memberOrder_of_ancestry hexhausted hasked,
    other, ⟨name, d, interface, .refl r name, hd, hinterface, hother⟩, hdeclares⟩

/-- **Interfaces are asked when all ancestors are settled.**  What a search finds is
declared by an ancestor of its type, or it is reached through an interface, and then
everything visited is settled and so are all ancestors. -/
theorem ancestry_first (hr : r.WellFormed) (hplain : r.PlainTraits start)
    (hnormal : normalize start = start) :
    ∀ {fuel : Nat} {name : String} {visited after : List String}, r.Reaches start name →
      r.Fuelled fuel visited → r.Settled kind member Descriptor.ancestry visited [name] →
        r.search kind member fuel name visited = .ok (some list, after) →
          (∃ other, r.Leads Descriptor.ancestry name other ∧ r.Declares kind member other list)
            ∨ r.LeftToInterfaces kind member name (name :: visited) list := by
  -- The induction climbs the chain of parents.
  intro fuel
  induction fuel with
  | zero => intro name visited after _ hfuel; exact absurd hfuel Fuelled.ne_zero
  | succ fuel ih =>
      intro name visited after hname hfuel hsettled h
      obtain ⟨hv, d, hd, hdeclared | ⟨hnone, hfirst⟩⟩ := search_found h
      · exact .inl ⟨name, .refl, d, hd, hdeclared⟩
      have htrait : ∀ n ∈ d.traits, normalize n = n :=
        fun n hn => hr.normalize_memberOrder hd (mem_memberOrder_of_traits d n hn)
      have hstep : r.Fuelled fuel (name :: visited) :=
        hfuel.step hv (mem_names_of_reflect (hr.normalize_of_reaches hnormal hname) hd)
      have hpending : r.Settled kind member Descriptor.ancestry (name :: visited) d.ancestry :=
        hsettled.visit hd hnone
      rcases firstOf_append_found hfirst with hkin | ⟨settled, hkin, hinterfaces⟩
      · rcases firstOf_append_found hkin with htraits | ⟨mid, htraits, hparent⟩
        · obtain ⟨trait, hmem, other, hother, hdeclares⟩ := declares_of_names hr htrait htraits
          have hleads := hplain.leads hname hd hmem hother
          exact .inl ⟨other, hleads.mono mem_ancestry_of_traits, hdeclares⟩
        · -- The traits are settled, and the parent, which is the only one pending, is asked.
          obtain ⟨hexhausted, hasked, hfuel'⟩ := exhausted_of_names hr htrait hstep htraits
          have hmid : r.Settled kind member Descriptor.ancestry mid d.parent.toList :=
            hpending.exhausted mem_memberOrder_of_ancestry hexhausted hasked
          cases hp : d.parent with
          | none =>
              rw [hp] at hparent
              cases hparent
          | some parent =>
              rw [hp] at hparent hmid
              have hancestor : parent ∈ d.ancestry := by simp [Descriptor.ancestry, hp]
              have hrefers : r.RefersTo name parent := ⟨d, hd,
                Descriptor.mem_memberOrder_iff.1 (mem_memberOrder_of_ancestry d _ hancestor)⟩
              rw [Option.toList_some, firstOf_singleton] at hparent
              rcases ih (hname.further hrefers) hfuel' hmid hparent with
                ⟨other, hleads, hdeclares⟩ | hleft
              · exact .inl ⟨other, hleads.head ⟨d, hd, hancestor⟩, hdeclares⟩
              · exact .inr (hleft.of_refersTo hrefers fun v hv =>
                  List.mem_cons_of_mem _ (hexhausted.kept v hv))
      · exact .inr (leftToInterfaces_of_interfaces hr hd hstep hpending hkin hinterfaces)

/-- **Where the list of a member comes from**, whatever the cycles.  It is the list of the
class, if it declares one; else of a trait of it, if one does; else of a parent or a trait
of a parent, if one does; and only else of a type that is reached through an interface. -/
theorem findMember_precedence (hr : r.WellFormed) {className : String}
    (hplain : r.PlainTraits (normalize className))
    (h : r.findMember kind className member = .ok list) :
    r.Precedence kind member (normalize className) list := by
  have hnormal := normalize_normalize className
  have hfuel : r.Fuelled (r.size + 1) [] := fuelled_start (Nat.lt_succ_self _)
  obtain ⟨after, hsearch⟩ : ∃ after, r.search kind member (r.size + 1) (normalize className) []
      = .ok (some list, after) := by
    rw [findMember_eq] at h
    split at h
    next after hsearch =>
      cases h
      exact ⟨after, hsearch⟩
    next => cases h
    next => cases h
  obtain ⟨hv, d, hd, hdeclared | ⟨hnone, hfirst⟩⟩ := search_found hsearch
  · exact .own ⟨d, hd, hdeclared⟩
  have htrait : ∀ n ∈ d.traits, normalize n = n :=
    fun n hn => hr.normalize_memberOrder hd (mem_memberOrder_of_traits d n hn)
  rw [Descriptor.memberOrder, List.append_assoc] at hfirst
  rcases firstOf_append_found hfirst with htraits | ⟨mid, htraits, -⟩
  · obtain ⟨trait, hmem, other, hother, hdeclares⟩ := declares_of_names hr htrait htraits
    refine .trait ?_ (hplain.leads (.refl r _) hd hmem hother) hdeclares
    rintro own ⟨e, he, hown⟩
    cases hd.symm.trans he
    cases hnone.symm.trans hown
  · -- The traits were searched in vain, so they are settled, and none of them declares it.
    have hstep := hfuel.step hv (mem_names_of_reflect hnormal hd)
    obtain ⟨hexhausted, hasked, -⟩ := exhausted_of_names hr htrait hstep htraits
    have hstart :
        r.Settled kind member Descriptor.traits [normalize className] (d.traits ++ []) := by
      rw [List.append_nil]
      exact Settled.visit (fun _ h => absurd h List.not_mem_nil) hd hnone
    have hsettled := hstart.exhausted mem_memberOrder_of_traits hexhausted hasked
    have hkept : normalize className ∈ mid := hexhausted.kept _ List.mem_cons_self
    rcases ancestry_first hr hplain hnormal (.refl r _) hfuel
        (fun _ h => absurd h List.not_mem_nil) hsearch with
      ⟨other, hleads, hdeclares⟩ | ⟨settled, hvisited, hall, other, hthrough, hdeclares⟩
    · exact .ancestor (fun _ hnearer => hsettled.lacks hkept hnearer) hleads hdeclares
    · exact .interface (fun _ hnearer => hall.lacks (hvisited _ List.mem_cons_self) hnearer)
        hthrough hdeclares

/-- A class with a parent that has a parent.  The two traits use each other, the class and
its parent each have an interface, and the last parent and both interfaces declare a
method; another one is declared by the interfaces only. -/
def family : List Descriptor :=
  [{ name := "App\\Child", parent := some "App\\Base", interfaces := ["App\\Card"],
      traits := ["App\\Left"] },
    { name := "App\\Base", parent := some "App\\Root", interfaces := ["App\\View"],
      traits := ["App\\Right"] },
    { name := "App\\Root", methods := Dict.empty.insert "show" [{ name := "Route" }] },
    { name := "App\\Left", kind := .traitKind, traits := ["App\\Right"] },
    { name := "App\\Right", kind := .traitKind, traits := ["App\\Left"] },
    { name := "App\\Card", kind := .interfaceKind,
      methods := (Dict.empty.insert "show" []).insert "index" [] },
    { name := "App\\View", kind := .interfaceKind,
      methods := (Dict.empty.insert "show" []).insert "index" [{ name := "Template" }] }]

theorem findMember_precedence_of_family :
    ∃ r, ofTypes family = .ok r ∧ r.WellFormed ∧ r.PlainTraits "App\\Child"
      ∧ (r.findMember .method "App\\Child" "show" = .ok [{ name := "Route" }]
          ∧ r.Precedence .method "show" "App\\Child" [{ name := "Route" }])
      ∧ r.findMember .method "App\\Child" "index" = .ok [{ name := "Template" }]
      ∧ r.Precedence .method "index" "App\\Child" [{ name := "Template" }] := by
  obtain ⟨r, hr⟩ : ∃ r, ofTypes family = .ok r := ⟨_, rfl⟩
  have hwell : r.WellFormed := wellFormed_ofTypes hr
  have hplain : r.PlainTraits (normalize "App\\Child") := by
    apply plainTraits_of_names hr fun name => name = "App\\Left" ∨ name = "App\\Right"
    · decide
    · decide
  have hshow : r.findMember .method "App\\Child" "show" = .ok [{ name := "Route" }] := by
    cases hr
    rfl
  have hindex : r.findMember .method "App\\Child" "index" = .ok [{ name := "Template" }] := by
    cases hr
    rfl
  exact ⟨r, hr, hwell, hplain, ⟨hshow, findMember_precedence hwell hplain hshow⟩,
    hindex, findMember_precedence hwell hplain hindex⟩

end Registry

end AnnotationCache.Types

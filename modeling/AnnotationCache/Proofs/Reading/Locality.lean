/-
  AnnotationCache.Proofs.Reading.Locality
  ───────────────────────────────────────
  **WHAT A READ LOOKS AT.**

  The closure of a class is all that can matter for reading it.  A registry
  that has the types of the closure has the same closure, finds the same
  members through it and dates it the same: the search for a member takes
  another way through the types than the walk of the closure, but it follows
  no name that the walk does not follow.
-/
import AnnotationCache.Proofs.Types.Search
import AnnotationCache.Proofs.Types.Walk
import AnnotationCache.Reading.Declared
import AnnotationCache.Reading.Freshness

namespace AnnotationCache

open AnnotationCache.Types (Registry Descriptor MemberKind normalize)

/-! ## §1. Members. -/

namespace Types.Registry

variable {r r' : Registry} {types : List Descriptor}

/-- The types of a closed list keep a search among themselves, in every
registry that has them. -/
theorem Closed.within (hr : r.WellFormed) (hclosed : r.Closed types)
    (hsame : ∀ d ∈ types, r'.reflect d.name = .ok d) {name : String}
    (hname : ∃ d ∈ types, r.reflect name = .ok d) :
    ∃ d, r.reflect name = .ok d ∧ r'.reflect name = .ok d
      ∧ ∀ next ∈ d.memberOrder, ∃ d' ∈ types, r.reflect next = .ok d' := by
  obtain ⟨d, hd, hreflect⟩ := hname
  refine ⟨d, hreflect, ?_, ?_⟩
  · rw [← reflect_normalize, ← hr.name_reflect hreflect]
    exact hsame d hd
  · intro next hnext
    exact hclosed d hd next (Descriptor.mem_memberOrder_iff.1 hnext)

/-- **Registries that agree on a closure find the same members through it.** -/
theorem findMember_congr (hr : r.WellFormed) (hr' : r'.WellFormed) {name : String}
    (hclosure : r.closure name = .ok types) (hsame : ∀ d ∈ types, r'.reflect d.name = .ok d)
    (kind : MemberKind) (member : String) :
    r.findMember kind name member = r'.findMember kind name member := by
  -- The search is not the walk; all it shares with it is that it stays within.
  have hfuel : r.size < r.size + r'.size + 1 := by omega
  have hfuel' : r'.size < r.size + r'.size + 1 := by omega
  have hwithin : ∃ d ∈ types, r.reflect (normalize name) = .ok d := by
    rw [reflect_normalize]
    exact mem_closure_self hr hclosure
  have hsearch : r.search kind member (r.size + 1) (normalize name) []
      = r'.search kind member (r'.size + 1) (normalize name) [] := by
    rw [search_eq_of_size_lt hr hfuel, search_eq_of_size_lt hr' hfuel']
    exact search_congr (fun _ => (closed_closure hr hclosure).within hr hsame) hwithin
  unfold findMember
  rw [hsearch]

end Types.Registry

/-! ## §2. Reads. -/

namespace DeclaredReader

theorem read_ofClass (r : DeclaredReader) (c : String) :
    r.read (.ofClass c) = (r.registry.reflect c).map fun d => r.kept d.annotations := by
  show (r.registry.reflect c >>= fun d => pure (r.kept d.annotations)) = _
  cases r.registry.reflect c <;> rfl

theorem read_ofMethod (r : DeclaredReader) (c m : String) :
    r.read (.ofMethod c m) = (r.registry.findMember .method c m).map r.kept := by
  show (r.registry.findMember .method c m >>= fun found => pure (r.kept found)) = _
  cases r.registry.findMember .method c m <;> rfl

theorem read_ofProperty (r : DeclaredReader) (c p : String) :
    r.read (.ofProperty c p) = (r.registry.findMember .property c p).map r.kept := by
  show (r.registry.findMember .property c p >>= fun found => pure (r.kept found)) = _
  cases r.registry.findMember .property c p <;> rfl

/-- **Registries that agree on the closure of a class are read alike there.** -/
theorem read_congr {r r' : Registry} (hr : r.WellFormed) (hr' : r'.WellFormed)
    {target : Target} {types : List Descriptor} (hclosure : r.closure target.className = .ok types)
    (hsame : ∀ d ∈ types, r'.reflect d.name = .ok d) (ignored : List String) :
    (mk r ignored).read target = (mk r' ignored).read target := by
  have hmember := Registry.findMember_congr hr hr' hclosure hsame
  cases target with
  | ofClass c =>
      obtain ⟨d, hd, hreflect⟩ := Registry.mem_closure_self hr hclosure
      have hreflect' : r'.reflect c = .ok d := by
        rw [← Registry.reflect_normalize, ← show d.name = normalize c from hr.name_reflect hreflect]
        exact hsame d hd
      rw [read_ofClass, read_ofClass, show r.reflect c = .ok d from hreflect, hreflect']
      rfl
  | ofMethod c m =>
      rw [read_ofMethod, read_ofMethod, show r.findMember .method c m = _ from hmember .method m]
      rfl
  | ofProperty c p =>
      rw [read_ofProperty, read_ofProperty,
        show r.findMember .property c p = _ from hmember .property p]
      rfl

end DeclaredReader

/-! ## §3. Times. -/

section Clocks

variable {m : Type → Type} [Monad m]

theorem latestOf_congr {clock clock' : Clock m} {types : List Descriptor}
    (h : ∀ d ∈ types, clock d = clock' d) :
    ∀ latest : Int, latestOf clock latest types = latestOf clock' latest types := by
  induction types with
  | nil => intro latest; rfl
  | cons d types ih =>
      intro latest
      unfold latestOf
      rw [List.foldlM_cons, List.foldlM_cons, h d List.mem_cons_self]
      congr 1
      funext next
      exact ih (fun e he => h e (List.mem_cons_of_mem _ he)) next

theorem lastModification_of_closure {r : Registry} {name : String} {types : List Descriptor}
    (h : r.closure name = .ok types) (clock : Clock m) :
    lastModification r clock name = latestOf clock 0 types := by
  unfold lastModification
  rw [h]

theorem lastModification_normalize (r : Registry) (clock : Clock m) (name : String) :
    lastModification r clock (normalize name) = lastModification r clock name := by
  unfold lastModification
  rw [Registry.closure_normalize]

end Clocks

/-! ## §4. The closure covers a read. -/

/-- **The closure covers everything that a read looks at.**  A registry that
has every type of a closure has the same closure, reads every target of the
class alike, and dates the class alike by clocks that agree on the closure. -/
theorem closure_covers_reads {r r' : Registry} (hr : r.WellFormed) (hr' : r'.WellFormed)
    {name : String} {types : List Descriptor} (hclosure : r.closure name = .ok types)
    (hsame : ∀ d ∈ types, r'.reflect d.name = .ok d) :
    r'.closure name = .ok types
      ∧ (∀ (ignored : List String) (target : Target), target.className = name →
          (DeclaredReader.mk r ignored).read target = (DeclaredReader.mk r' ignored).read target)
      ∧ ∀ {m : Type → Type} [Monad m] (clock clock' : Clock m),
          (∀ d ∈ types, clock d = clock' d) →
            lastModification r clock name = lastModification r' clock' name := by
  have hclosure' := Registry.closure_congr hr hr' hclosure hsame
  refine ⟨hclosure', ?_, ?_⟩
  · intro ignored target htarget
    subst htarget
    exact DeclaredReader.read_congr hr hr' hclosure hsame ignored
  · intro m _ clock clock' hclock
    rw [lastModification_of_closure hclosure, lastModification_of_closure hclosure']
    exact latestOf_congr hclock 0

/-- A class that uses a trait which uses the class. -/
def tiedPage : Descriptor :=
  { name := "App\\Page", traits := ["App\\Routes"] }

/-- The trait; it declares a method. -/
def tiedRoutes : Descriptor :=
  { name := "App\\Routes", kind := .traitKind, traits := ["App\\Page"]
    methods := Dict.empty.insert "index" [{ name := "Route" }] }

/-- The two of them, and one more type that has nothing to do with them. -/
def tiedWith (bystander : String) : Registry :=
  ⟨((Dict.empty.insert "App\\Page" tiedPage).insert "App\\Routes" tiedRoutes).insert bystander
    { name := bystander }⟩

theorem closure_covers_reads_of_tied :
    (tiedWith "App\\Gone").WellFormed ∧ (tiedWith "App\\Late").WellFormed
      ∧ (tiedWith "App\\Gone").closure "\\App\\Page" = .ok [tiedPage, tiedRoutes]
      ∧ (∀ d ∈ [tiedPage, tiedRoutes], (tiedWith "App\\Late").reflect d.name = .ok d)
      ∧ (tiedWith "App\\Late").closure "\\App\\Page" = .ok [tiedPage, tiedRoutes]
      ∧ (DeclaredReader.mk (tiedWith "App\\Gone") []).read (.ofMethod "\\App\\Page" "index")
          = (DeclaredReader.mk (tiedWith "App\\Late") []).read (.ofMethod "\\App\\Page" "index")
      ∧ lastModification (tiedWith "App\\Gone") (m := Id) (fun _ => pure 7) "\\App\\Page"
          = lastModification (tiedWith "App\\Late") (m := Id)
              (fun d => pure (if d.name = "App\\Late" then 9 else 7)) "\\App\\Page" := by
  have hgone : Registry.ofTypes [tiedPage, tiedRoutes, { name := "App\\Gone" }]
      = .ok (tiedWith "App\\Gone") := rfl
  have hlate : Registry.ofTypes [tiedPage, tiedRoutes, { name := "App\\Late" }]
      = .ok (tiedWith "App\\Late") := rfl
  have hr := Registry.wellFormed_ofTypes hgone
  have hr' := Registry.wellFormed_ofTypes hlate
  have hclosure : (tiedWith "App\\Gone").closure "\\App\\Page" = .ok [tiedPage, tiedRoutes] := rfl
  have hsame : ∀ d ∈ [tiedPage, tiedRoutes], (tiedWith "App\\Late").reflect d.name = .ok d := by
    intro d hd
    rcases List.mem_cons.1 hd with rfl | hd
    · rfl
    · rw [List.mem_singleton.1 hd]
      rfl
  obtain ⟨hclosure', hread, hlast⟩ := closure_covers_reads hr hr' hclosure hsame
  refine ⟨hr, hr', hclosure, hsame, hclosure', hread [] _ rfl, hlast _ _ ?_⟩
  intro d hd
  rcases List.mem_cons.1 hd with rfl | hd
  · rfl
  · rw [List.mem_singleton.1 hd]
    rfl

end AnnotationCache

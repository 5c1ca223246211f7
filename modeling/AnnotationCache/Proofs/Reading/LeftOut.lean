/-
  AnnotationCache.Proofs.Reading.LeftOut
  ──────────────────────────────────────
  **NAMES THAT ARE LEFT OUT, AND LISTS THAT ARE FOUND.**

  Readers share a cache, and each of them has its own names to leave out.  A name
  is left out when a list is computed; the key of a list and its marker say
  nothing of it.  So a reader that finds a list which another one has computed
  returns it as it is, with the names that the other one does not leave out, even
  if it checks.

  What can be relied on is where a list comes from.  Every list in the cache or in
  a memo was computed under its key by an earlier read, which has left out what its
  own delegate ignores (`Hall.Traced`).  One event keeps that, and so does a run.

  Main statements:
    * `Hall.Traced.serve`     — a read returns what it has found or computed;
    * `Hall.Traced.attend`    — a run leaves all lists traced to reads;
    * `left_out_or_found`     — a read leaves out what its delegate ignores, or it
      has found the list of a delegate that does not ignore that;
    * `found_though_left_out` — and the latter does happen.
-/
import AnnotationCache.Proofs.Reading.Trusted
import AnnotationCache.Proofs.Record

namespace AnnotationCache

/-! ## §1. What a delegate computes. -/

/-- **A delegate leaves out what it ignores.** -/
theorem DeclaredReader.not_ignored_of_read {r : DeclaredReader} {t : Target}
    {list : List Annotation} (h : r.read t = .ok list) : ∀ a ∈ list, r.isIgnored a.name = false := by
  suffices hkept : ∃ declared, list = r.kept declared by
    obtain ⟨declared, rfl⟩ := hkept
    intro a ha
    simpa using (List.mem_filter.1 ha).2
  cases t with
  | ofClass c =>
      obtain ⟨d, -, hlist⟩ := bind_eq_ok h
      exact ⟨d.annotations, (Except.ok.inj hlist).symm⟩
  | ofMethod c m =>
      obtain ⟨declared, -, hlist⟩ := bind_eq_ok h
      exact ⟨declared, (Except.ok.inj hlist).symm⟩
  | ofProperty c p =>
      obtain ⟨declared, -, hlist⟩ := bind_eq_ok h
      exact ⟨declared, (Except.ok.inj hlist).symm⟩

/-! ## §2. Reads. -/

/-- **A read that was made**: by which reader, in which world, of what, and its
result. -/
structure Served where
  reader : Nat
  world : World
  target : Target
  result : Except Error (List Annotation)

/-- What can happen to readers that share a cache. -/
inductive Occasion where
  /-- A reader reads a target, in the world of the moment. -/
  | read (reader : Nat) (world : World) (target : Target)
  /-- A reader forgets what it remembers. -/
  | forget (reader : Nat)
  /-- An entry of the cache is lost. -/
  | drop (key : String)

/-- **The delegate of a reader**: it reads what is declared in the world of the moment,
and leaves out the documentation tags and the names that this reader ignores. -/
def World.delegate (w : World) (ignored : Nat → List String) (reader : Nat) : DeclaredReader :=
  .ofRegistry w.registry (ignored reader)

namespace Hall

variable (accepts : MapCache.Rule) (ignored : Nat → List String)

/-- **A reader reads a target**: the result, and the hall afterwards. -/
def serve (h : Hall) (i : Nat) (w : World) (t : Target) :
    Except Error (List Annotation) × Hall :=
  let ((result, r), after) := ((h.readers i).read
    (.ofStore (MapCache.store accepts) w.clock (w.delegate ignored i)) t).run h.entries
  (result, { readers := replaced h.readers i r, entries := after })

/-- **One event**: the read, if it is one, and the hall afterwards. -/
def attendOne (h : Hall) : Occasion → Option Served × Hall
  | .read i w t =>
      (some ⟨i, w, t, (h.serve accepts ignored i w t).1⟩, (h.serve accepts ignored i w t).2)
  | .forget i => (none, { h with readers := replaced h.readers i (h.readers i).forget })
  | .drop key => (none, { h with entries := h.entries.erase key })

/-- **A run**: the reads in it, in order, and the hall afterwards. -/
def attend : Hall → List Occasion → List Served × Hall
  | h, [] => ([], h)
  | h, x :: run =>
      ((h.attendOne accepts ignored x).1.toList
          ++ (attend (h.attendOne accepts ignored x).2 run).1,
        (attend (h.attendOne accepts ignored x).2 run).2)

end Hall

variable {accepts : MapCache.Rule} {ignored : Nat → List String} {h : Hall} {i : Nat} {w : World}
  {t : Target} {list : List Annotation} {result : Except Error (List Annotation)}

namespace Hall

/-- **Has the reader found a list**, in its memo, or on record with a marker that is no
older than the class? -/
def Found (h : Hall) (i : Nat) (w : World) (t : Target) (list : List Annotation) : Prop :=
  (h.readers i).loaded.get? (CacheKey.ofTarget t).text = some list
    ∨ (h.entries.result? t = some list ∧ ∃ current time, h.entries.marker? t = some time
        ∧ w.lastModification t.className = .ok current ∧ current ≤ time)

/-- **What a read does**: it returns what its reader remembers, or it takes one of the
courses. -/
theorem serve_cases (accepts : MapCache.Rule) (ignored : Nat → List String) (h : Hall) (i : Nat)
    (w : World) (t : Target) :
    (∃ list, (h.readers i).loaded.get? (CacheKey.ofTarget t).text = some list
        ∧ h.serve accepts ignored i w t
          = (.ok list, { h with readers := replaced h.readers i (h.readers i) }))
      ∨ ∃ result after, Sources.Course (w.sources (documentationTags ++ ignored i)) accepts
          (h.readers i).checking t h.entries (result, after)
        ∧ h.serve accepts ignored i w t
          = (result, ⟨replaced h.readers i ((h.readers i).remember t result), after⟩) := by
  have hsources : Dialogue.Collaborators.ofStore (MapCache.store accepts) w.clock
      (w.delegate ignored i)
        = (w.sources (documentationTags ++ ignored i)).beside (MapCache.store accepts) :=
    w.ofStore_eq_beside (documentationTags ++ ignored i) (MapCache.store accepts)
  unfold serve
  rw [hsources]
  cases hloaded : (h.readers i).loaded.get? (CacheKey.ofTarget t).text with
  | some list =>
      rw [CachedReader.read_of_remembered hloaded]
      exact .inl ⟨list, rfl, rfl⟩
  | none =>
      obtain ⟨result, after, hcourse, hrun⟩ := CachedReader.course_of_forgotten accepts
        (w.sources (documentationTags ++ ignored i)) h.entries hloaded
      rw [hrun]
      exact .inr ⟨result, after, hcourse, rfl⟩

/-- **A list that a checking reader returns** it has found, or its delegate has
computed it. -/
theorem found_or_computed (hchecking : (h.readers i).checking = true)
    (hresult : (h.serve accepts ignored i w t).1 = .ok list) :
    h.Found i w t list ∨ (w.delegate ignored i).read t = .ok list := by
  rcases h.serve_cases accepts ignored i w t with
    ⟨list', hloaded, hserve⟩ | ⟨result, after, hcourse, hserve⟩
  · rw [hserve] at hresult
    cases hresult
    exact .inl (.inl hloaded)
  · rw [hserve] at hresult
    cases hresult
    rw [hchecking] at hcourse
    cases hcourse with
    | trusted unchecked => cases unchecked
    | verified _ stored dated marked recent =>
        exact .inl (.inr ⟨stored, _, _, marked, dated, recent⟩)
    | refreshed _ computed => exact .inr computed

end Hall

/-! ## §3. Where lists come from. -/

/-- **Has the delegate of a read computed a list**, which belongs under a key? -/
structure Served.Computed (ignored : Nat → List String) (g : Served) (key : String)
    (list : List Annotation) : Prop where
  key_eq : (CacheKey.ofTarget g.target).text = key
  returned : g.result = .ok list
  computed : (g.world.delegate ignored g.reader).read g.target = .ok list

/-- **Was a list computed by a read of the past**, under its key? -/
def ComputedIn (ignored : Nat → List String) (past : List Served) (key : String)
    (list : List Annotation) : Prop :=
  ∃ g ∈ past, g.Computed ignored key list

/-- **Does a reader check, and remember only what was computed?** -/
structure CachedReader.Traced (ignored : Nat → List String) (past : List Served)
    (r : CachedReader) : Prop where
  checking : r.checking = true
  memo : ∀ key list, r.loaded.get? key = some list → ComputedIn ignored past key list

/-- **Was every list in the cache or in a memo computed**, and do all readers check? -/
structure Hall.Traced (ignored : Nat → List String) (past : List Served) (h : Hall) : Prop where
  readers : ∀ i, (h.readers i).Traced ignored past
  entries : ∀ key list, h.entries.get? key = some (.annotations list) →
    ComputedIn ignored past key list

variable {past : List Served}

theorem ComputedIn.later {key : String} (h : ComputedIn ignored past key list)
    (reads : List Served) : ComputedIn ignored (past ++ reads) key list := by
  obtain ⟨g, hg, hcomputed⟩ := h
  exact ⟨g, List.mem_append_left reads hg, hcomputed⟩

theorem CachedReader.Traced.later {r : CachedReader} (h : r.Traced ignored past)
    (reads : List Served) : r.Traced ignored (past ++ reads) where
  checking := h.checking
  memo key list hloaded := (h.memo key list hloaded).later reads

namespace Hall

theorem traced_opened (ignored : Nat → List String) : Traced ignored [] (opened fun _ => true) where
  readers _ := ⟨rfl, fun _ _ h => by cases h⟩
  entries _ _ h := by cases h

/-- What a reader has found was computed by a read of the past. -/
theorem Traced.of_found (htraced : h.Traced ignored past) (hfound : h.Found i w t list) :
    ComputedIn ignored past (CacheKey.ofTarget t).text list := by
  rcases hfound with hloaded | ⟨hstored, -⟩
  · exact (htraced.readers i).memo _ list hloaded
  · exact htraced.entries _ list (MapCache.stores_iff.2 hstored)

/-- **One read** returns what was computed by a read of the past or by itself, and
leaves all lists traced. -/
theorem Traced.serve (htraced : h.Traced ignored past) {after : Hall}
    (hserve : h.serve accepts ignored i w t = (result, after)) :
    after.Traced ignored (past ++ [⟨i, w, t, result⟩]) := by
  have hreturned : ∀ list, result = .ok list →
      ComputedIn ignored (past ++ [⟨i, w, t, result⟩]) (CacheKey.ofTarget t).text list := by
    rintro list rfl
    have hresult : (h.serve accepts ignored i w t).1 = .ok list := congrArg Prod.fst hserve
    rcases found_or_computed (htraced.readers i).checking hresult with hfound | hcomputed
    · exact (htraced.of_found hfound).later _
    · exact ⟨_, List.mem_append_right past List.mem_cons_self, rfl, rfl, hcomputed⟩
  have hothers : ∀ j, (h.readers j).Traced ignored (past ++ [⟨i, w, t, result⟩]) :=
    fun j => (htraced.readers j).later _
  rcases h.serve_cases accepts ignored i w t with
    ⟨list, hloaded, hremembered⟩ | ⟨result', entries, hcourse, hcoursed⟩
  · -- What is remembered is returned, and nothing changes.
    obtain ⟨rfl, rfl⟩ := Prod.mk.inj (hserve.symm.trans hremembered)
    exact ⟨forall_replaced hothers (hothers i) i,
      fun key list hstored => (htraced.entries key list hstored).later _⟩
  · obtain ⟨rfl, rfl⟩ := Prod.mk.inj (hserve.symm.trans hcoursed)
    refine ⟨forall_replaced hothers ⟨?checking, ?memo⟩ i, ?entries⟩
    case checking => cases result <;> exact (htraced.readers i).checking
    case memo =>
      intro key list hloaded
      rcases CachedReader.loaded_remember hloaded with ⟨rfl, hresult⟩ | hbefore
      · exact hreturned list hresult
      · exact (hothers i).memo key list hbefore
    case entries =>
      intro key list hstored
      cases hcourse with
      | trusted | verified | undated | uncomputed => exact (htraced.entries key list hstored).later _
      | refreshed =>
          -- Two values were written, but a marker is no list.
          rcases MapCache.annotations_recorded hstored with ⟨rfl, rfl⟩ | hbefore
          · exact hreturned list rfl
          · exact (htraced.entries key list hbefore).later _

/-- **One event** leaves all lists traced. -/
theorem Traced.attendOne (htraced : h.Traced ignored past) (x : Occasion) :
    (h.attendOne accepts ignored x).2.Traced ignored
      (past ++ (h.attendOne accepts ignored x).1.toList) := by
  cases x with
  | read i w t => exact htraced.serve rfl
  | forget i =>
      have hforgotten : (h.readers i).forget.Traced ignored past :=
        ⟨(htraced.readers i).checking, fun key list hloaded => by cases hloaded⟩
      show Traced ignored (past ++ []) _
      rw [List.append_nil]
      exact ⟨forall_replaced htraced.readers hforgotten i, htraced.entries⟩
  | drop key =>
      show Traced ignored (past ++ []) _
      rw [List.append_nil]
      refine ⟨htraced.readers, ?_⟩
      intro other list hstored
      have herased : (h.entries.erase key).get? other = some (.annotations list) := hstored
      rw [Dict.get?_erase] at herased
      split at herased
      next => cases herased
      next => exact htraced.entries other list herased

/-- **A run** leaves all lists traced. -/
theorem Traced.attend {run : List Occasion} : ∀ {h : Hall} {past : List Served},
    h.Traced ignored past →
      (h.attend accepts ignored run).2.Traced ignored
        (past ++ (h.attend accepts ignored run).1) := by
  induction run with
  | nil =>
      intro h past htraced
      show Traced ignored (past ++ []) h
      rwa [List.append_nil]
  | cons x run ih =>
      intro h past htraced
      unfold Hall.attend
      rw [← List.append_assoc]
      exact ih (htraced.attendOne x)

end Hall

/-! ## §4. What a read leaves out. -/

/-- No delegate returns documentation tags. -/
theorem not_documentation_of_read (h : (w.delegate ignored i).read t = .ok list) :
    ∀ a ∈ list, a.name ∉ documentationTags := by
  intro a ha htag
  have hignored : (w.delegate ignored i).isIgnored a.name = true :=
    decide_eq_true (List.mem_append_left (ignored i) htag)
  cases hignored.symm.trans (DeclaredReader.not_ignored_of_read h a ha)

/-- **A read leaves out what its delegate ignores, or it has not asked its delegate.**
Readers that all check share a cache that was empty, each with its own names to ignore.
After any run, no list that a read returns has a documentation tag in it; and either
it has no name that the delegate of the read ignores, or the reader has found it, in
its memo or on record with a marker that is recent enough, and an earlier read under
the same key has computed it with a delegate that ignores none of its names. -/
theorem left_out_or_found (accepts : MapCache.Rule) (ignored : Nat → List String)
    (run : List Occasion) {reads : List Served}
    (hrun : (Hall.opened fun _ => true).attend accepts ignored run = (reads, h))
    (hresult : (h.serve accepts ignored i w t).1 = .ok list) :
    (∀ a ∈ list, a.name ∉ documentationTags)
      ∧ ((∀ a ∈ list, (w.delegate ignored i).isIgnored a.name = false)
        ∨ (h.Found i w t list ∧ ∃ g ∈ reads, g.Computed ignored (CacheKey.ofTarget t).text list
            ∧ ∀ a ∈ list, (g.world.delegate ignored g.reader).isIgnored a.name = false)) := by
  have htraced : h.Traced ignored reads := by
    have hattend : ((Hall.opened fun _ => true).attend accepts ignored run).2.Traced ignored
        ([] ++ ((Hall.opened fun _ => true).attend accepts ignored run).1) :=
      (Hall.traced_opened ignored).attend
    rw [hrun] at hattend
    exact hattend
  rcases Hall.found_or_computed (htraced.readers i).checking hresult with hfound | hcomputed
  · obtain ⟨g, hg, hcomputed⟩ := htraced.of_found hfound
    exact ⟨not_documentation_of_read hcomputed.computed,
      .inr ⟨hfound, g, hg, hcomputed, DeclaredReader.not_ignored_of_read hcomputed.computed⟩⟩
  · exact ⟨not_documentation_of_read hcomputed,
      .inl (DeclaredReader.not_ignored_of_read hcomputed)⟩

/-- All readers but the first one leave out routes. -/
def routesLeftOut (reader : Nat) : List String :=
  if reader = 0 then [] else ["Route"]

/-- The hall after the first reader has read a class that has a route. -/
def afterRoutes : List Served × Hall :=
  (Hall.opened fun _ => true).attend MapCache.keepAll routesLeftOut
    [.forget 1, .read 0 bracketedWorld (.ofClass "A")]

theorem left_out_or_found_of_routes :
    (afterRoutes.2.serve MapCache.keepAll routesLeftOut 1 bracketedWorld (.ofClass "\\A")).1
        = .ok [{ name := "Route" }]
      ∧ ∃ g ∈ afterRoutes.1, g.Computed routesLeftOut "A" [{ name := "Route" }] := by
  have hresult : (afterRoutes.2.serve MapCache.keepAll routesLeftOut 1 bracketedWorld
      (.ofClass "\\A")).1 = .ok [{ name := "Route" }] := rfl
  refine ⟨hresult, ?_⟩
  obtain ⟨-, hkept | ⟨-, g, hg, hcomputed, -⟩⟩ :=
    left_out_or_found MapCache.keepAll routesLeftOut _ rfl hresult
  · -- The second reader's own delegate would have left the route out.
    cases hkept { name := "Route" } List.mem_cons_self
  · exact ⟨g, hg, hcomputed⟩

/-- **A checking reader may return what its delegate ignores**: the first reader has put
the route on record, and neither the key nor the marker says that it did not ignore
routes. -/
theorem found_though_left_out :
    (afterRoutes.2.serve MapCache.keepAll routesLeftOut 1 bracketedWorld (.ofClass "A")).1
        = .ok [{ name := "Route" }]
      ∧ (bracketedWorld.delegate routesLeftOut 1).isIgnored "Route" = true
      ∧ (bracketedWorld.delegate routesLeftOut 1).read (.ofClass "A") = .ok [] :=
  ⟨rfl, rfl, rfl⟩

end AnnotationCache

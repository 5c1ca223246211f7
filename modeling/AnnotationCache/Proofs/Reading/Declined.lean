/-
  AnnotationCache.Proofs.Reading.Declined
  ───────────────────────────────────────
  **READING AGAIN AFTER A DECLINED WRITE.**

  A checking read that goes to the sources tells the cache two things, the
  result and then its marker, and each of the two may be declined.  Where the
  result is declined and the marker is not, an older result may be left under
  a marker that was meant for the new one; the next read then finds it
  verified.  This is the only way in which two checking reads in a row differ.
-/
import AnnotationCache.Proofs.Reading.Course
import AnnotationCache.Reading.Declared

namespace AnnotationCache

open MapCache (Rule)
open Sources (Course)

/-- **An older result is left under the marker of a newer one**: the write of
the result is declined, that of the marker is not. -/
structure Mispaired (accepts : Rule) (entries : MapCache) (t : Target) (list : List Annotation)
    (current : Int) (old : List Annotation) : Prop where
  stored : entries.result? t = some old
  differs : old ≠ list
  declined : accepts (CacheKey.ofTarget t).text (.annotations list) = false
  accepted : accepts (CacheKey.ofTarget t).marker (.timestamp current) = true

namespace Sources.Course

variable {s : Sources} {accepts : Rule} {entries after : MapCache} {t : Target}
  {list : List Annotation} {result : Except Error (List Annotation)} {current : Int}

/-! ## §1. What the next read finds. -/

/-- A checking read answers what stands under a marker that is recent enough. -/
theorem eq_of_recent (h : Course s accepts true t entries (result, after))
    (hdated : s.latest t.className = .ok current) {time : Int}
    (hstored : entries.result? t = some list) (hmarked : entries.marker? t = some time)
    (hrecent : current ≤ time) : result = .ok list := by
  cases h with
  | trusted unchecked => cases unchecked
  | verified _ stored => rw [Option.some.inj (hstored.symm.trans stored)]
  | undated _ failed => cases hdated.symm.trans failed
  | uncomputed dated _ outdated
  | refreshed dated _ outdated =>
      have hearlier := (outdated list hstored).2 time hmarked
      have heq := Except.ok.inj (hdated.symm.trans dated)
      omega

/-- **What a checking read answers stands on record afterwards**, under a marker
that is recent enough. -/
theorem vouched (h : Course s MapCache.keepAll true t entries (.ok list, after))
    (hdated : s.latest t.className = .ok current) :
    ∃ time, after.record? t = some (list, time) ∧ current ≤ time := by
  cases h with
  | trusted unchecked => cases unchecked
  | verified _ stored dated marked recent =>
      have hsame := Except.ok.inj (hdated.symm.trans dated)
      exact ⟨_, MapCache.record?_eq_some.2 ⟨stored, marked⟩, hsame ▸ recent⟩
  | refreshed dated computed =>
      have hsame := Except.ok.inj (hdated.symm.trans dated)
      refine ⟨_, MapCache.record?_eq_some.2 ⟨?_, ?_⟩, Int.le_of_eq hsame⟩
      · exact (MapCache.result?_recorded_self _ entries t list _).trans (if_pos rfl)
      · exact (MapCache.marker?_recorded_self _ entries t list _).trans (if_pos rfl)

/-- A read answers the result that can be computed, if that is on record or
nothing is that counts. -/
theorem eq_of_computed (h : Course s accepts true t entries (result, after))
    (hdated : s.latest t.className = .ok current) (hcomputed : s.compute t = .ok list)
    (hrecord : entries.result? t = some list ∨ Outdated true t entries current) :
    result = .ok list := by
  cases h with
  | trusted unchecked => cases unchecked
  | undated _ failed => cases hdated.symm.trans failed
  | uncomputed _ failed => cases hcomputed.symm.trans failed
  | refreshed _ computed => exact computed.symm.trans hcomputed
  | verified _ stored dated marked recent =>
      rcases hrecord with hstored | houtdated
      · rw [Option.some.inj (hstored.symm.trans stored)]
      · -- A marker that is recent enough leaves nothing outdated.
        have hearlier := (houtdated _ stored).2 _ marked
        have heq := Except.ok.inj (hdated.symm.trans dated)
        omega

/-- **The read after a refresh** answers the same, unless the refresh has left an
older result under the marker of the newer one. -/
theorem after_refresh {accepts' : Rule}
    (h : Course s accepts' true t (entries.recorded accepts t list current) (result, after))
    (hdated : s.latest t.className = .ok current) (hcomputed : s.compute t = .ok list)
    (houtdated : Outdated true t entries current) :
    (∀ old, Mispaired accepts entries t list current old → result = .ok old)
      ∧ ((∀ old, ¬ Mispaired accepts entries t list current old) → result = .ok list) := by
  have hresult := MapCache.result?_recorded_self accepts entries t list current
  have hmarker := MapCache.marker?_recorded_self accepts entries t list current
  refine ⟨?_, ?_⟩
  · intro old hmis
    rw [hmis.declined, if_neg Bool.false_ne_true, hmis.stored] at hresult
    rw [hmis.accepted, if_pos rfl] at hmarker
    exact h.eq_of_recent hdated hresult hmarker (Int.le_refl current)
  · intro hnone
    apply h.eq_of_computed hdated hcomputed
    cases hdeclined : accepts (CacheKey.ofTarget t).text (.annotations list) with
    | true =>
        left
        rw [hresult, if_pos hdeclined]
    | false =>
        rw [hdeclined, if_neg Bool.false_ne_true] at hresult
        cases haccepted : accepts (CacheKey.ofTarget t).marker (.timestamp current) with
        | false =>
            -- Neither write was accepted: what was outdated still is.
            right
            rw [haccepted, if_neg Bool.false_ne_true] at hmarker
            intro old hold
            rw [hresult] at hold
            rw [hmarker]
            exact houtdated old hold
        | true =>
            cases hstored : entries.result? t with
            | none =>
                right
                intro old hold
                rw [hresult, hstored] at hold
                cases hold
            | some old =>
                left
                have hsame : old = list := by
                  apply Classical.byContradiction
                  intro hdiffers
                  exact hnone old ⟨hstored, hdiffers, hdeclined, haccepted⟩
                rw [hresult, hstored, hsame]

end Sources.Course

/-! ## §2. Two reads in a row. -/

/-- What a new reader that checks answers over a map. -/
def reread (s : Sources) (accepts : Rule) (entries : MapCache) (t : Target) :
    Except Error (List Annotation) :=
  (((CachedReader.opened true).read (s.beside (MapCache.store accepts)) t).run entries).1.1

/-- **A second checking read answers what the first one did, except where the
first one's writes have left an older result under the newer marker**; then it
answers the older result.  Which writes the second read may do does not matter. -/
theorem reread_eq_iff {s : Sources} {accepts : Rule} {entries after : MapCache} {t : Target}
    {list : List Annotation} {reader : CachedReader}
    (hread : ((CachedReader.opened true).read (s.beside (MapCache.store accepts)) t).run entries
      = ((.ok list, reader), after)) (accepts' : Rule) :
    ∃ current, s.latest t.className = .ok current
      ∧ (∀ old, Mispaired accepts entries t list current old →
          reread s accepts' after t = .ok old)
      ∧ (reread s accepts' after t = .ok list
          ↔ ∀ old, ¬ Mispaired accepts entries t list current old) := by
  obtain ⟨first, mid, hfirst, hrun⟩ := CachedReader.course_opened accepts s true entries t
  obtain ⟨second, last, hsecond, hrerun⟩ := CachedReader.course_opened accepts' s true after t
  have hreread : reread s accepts' after t = second := by
    unfold reread
    rw [hrerun]
  rw [hrun, Prod.mk.injEq, Prod.mk.injEq] at hread
  obtain ⟨⟨rfl, -⟩, rfl⟩ := hread
  rw [hreread]
  cases hfirst with
  | trusted unchecked => cases unchecked
  | @verified _ current time _ stored dated marked recent =>
      -- Nothing was written, and what was verified once is verified again.
      have hmis : ∀ old, ¬ Mispaired accepts entries t list current old := fun old hmis =>
        hmis.differs (Option.some.inj (hmis.stored.symm.trans stored))
      have hsame : second = .ok list := hsecond.eq_of_recent dated stored marked recent
      exact ⟨current, dated, fun old h => absurd h (hmis old), iff_of_true hsame hmis⟩
  | @refreshed current _ dated computed outdated =>
      obtain ⟨hstale, hsame⟩ := hsecond.after_refresh dated computed outdated
      refine ⟨current, dated, hstale, ?_, hsame⟩
      intro heq old hmis
      -- The second read answers the older result, so the two would be the same.
      exact hmis.differs (Except.ok.inj ((hstale old hmis).symm.trans heq))

/-- A controller whose class carries a route, last modified at time `100`. -/
def routed : Sources where
  latest _ := .ok 100
  compute := (DeclaredReader.mk ⟨Dict.empty.insert "App\\Controller"
    { name := "App\\Controller", annotations := [{ name := "Route" }] }⟩ []).read

/-- A map that still has the controller without its route, under a marker of old. -/
def unrouted : MapCache :=
  (Dict.empty.insert "App.Controller" (.annotations [])).insert "[C]App.Controller" (.timestamp 1)

/-- The rule that declines results of the controller. -/
def declineController : Rule := fun key _ => key ≠ "App.Controller"

/-- The map after the first read: nothing but the marker has changed. -/
def unroutedAt100 : MapCache :=
  unrouted.insert "[C]App.Controller" (.timestamp 100)

theorem reread_routed_of_declined :
    ((CachedReader.opened true).read (routed.beside (MapCache.store declineController))
        (.ofClass "App\\Controller")).run unrouted
      = ((.ok [{ name := "Route" }],
          (CachedReader.opened true).remember (.ofClass "App\\Controller")
            (.ok [{ name := "Route" }])), unroutedAt100)
      ∧ reread routed MapCache.keepAll unroutedAt100 (.ofClass "App\\Controller") = .ok [] := by
  have hread : ((CachedReader.opened true).read (routed.beside (MapCache.store declineController))
        (.ofClass "App\\Controller")).run unrouted
      = ((.ok [{ name := "Route" }],
          (CachedReader.opened true).remember (.ofClass "App\\Controller")
            (.ok [{ name := "Route" }])), unroutedAt100) := rfl
  obtain ⟨current, hdated, hstale, -⟩ := reread_eq_iff hread MapCache.keepAll
  refine ⟨hread, hstale [] ⟨rfl, ?_, rfl, ?_⟩⟩
  · intro h
    cases h
  · rfl

/-- **A declined write can make an old result look fresh.** -/
theorem reread_may_differ :
    ¬ ∀ (s : Sources) (accepts accepts' : Rule) (entries after : MapCache) (t : Target)
        (list : List Annotation) (reader : CachedReader),
      ((CachedReader.opened true).read (s.beside (MapCache.store accepts)) t).run entries
          = ((.ok list, reader), after) →
        reread s accepts' after t = .ok list := by
  intro hreread
  -- The second read would answer the route that the first one computed; the map says there is none.
  have hroute : reread routed MapCache.keepAll unroutedAt100 (.ofClass "App\\Controller")
      = .ok [{ name := "Route" }] :=
    hreread routed declineController MapCache.keepAll unrouted unroutedAt100 _ _ _ rfl
  have hnothing : reread routed MapCache.keepAll unroutedAt100 (.ofClass "App\\Controller")
      = .ok [] := rfl
  cases hnothing.symm.trans hroute

end AnnotationCache

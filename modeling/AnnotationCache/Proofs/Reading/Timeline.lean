/-
  AnnotationCache.Proofs.Reading.Timeline
  ───────────────────────────────────────
  **A READ THAT EDITS CUT IN TWO.**

  A read dates its class first and computes the result after that, and the
  world may change in between.  So the marker that it leaves may be older than
  the result beside it, which does no harm: the worlds stand on a timeline, and
  what is new since the result was computed is younger than everything that
  there was when the class was dated.

  Main statements:
    * `Timeline.newSince`       — that relation between any three moments;
    * `reread_eq_truth`         — a checking read over a result that is on record
      from one moment, under a marker of no later moment, is not stale;
    * `reread_after_straddling` — nor is one after a read that edits cut in two.
-/
import AnnotationCache.Proofs.Reading.Declined
import AnnotationCache.Proofs.Reading.Staleness

namespace AnnotationCache

open AnnotationCache.Types (Registry Descriptor)

/-! ## §1. Timelines. -/

/-- The worlds before a moment, latest first. -/
def pastWorlds (world : Nat → World) : Nat → List World
  | 0 => []
  | n + 1 => world n :: pastWorlds world n

/-- **A timeline**: the worlds of all moments, each of which may come after
those before it. -/
def Timeline (world : Nat → World) : Prop :=
  ∀ n, (world (n + 1)).Follows (world n) (pastWorlds world n)

/-- Every world before a moment is in its past. -/
theorem mem_pastWorlds {world : Nat → World} {i n : Nat} (h : i < n) :
    world i ∈ pastWorlds world n := by
  induction n with
  | zero => omega
  | succ n ih =>
      by_cases hlast : i = n
      · subst hlast
        exact List.mem_cons_self
      · exact List.mem_cons_of_mem _ (ih (by omega))

/-- **What is new since a moment is younger than all that there was by then.** -/
theorem Timeline.newSince {world : Nat → World} (h : Timeline world) {i j k : Nat} (hij : i ≤ j)
    (hjk : j ≤ k) : (world k).NewSince (world j) (world i) := by
  induction hjk with
  | refl =>
      intro d hd hnew
      exact absurd hd hnew
  | @step k hjk ih =>
      show (world (k + 1)).NewSince (world j) (world i)
      intro d hd hnew
      by_cases hkept : (world k).Has d
      · -- It came with an edit before the last one and has not got younger since.
        have hle : (world k).time d ≤ (world (k + 1)).time d := (h k).kept d hkept hd
        obtain ⟨hpos, hyounger⟩ := ih d hkept hnew
        refine ⟨by omega, ?_⟩
        intro e he
        have hlt : (world i).time e < (world k).time d := hyounger e he
        omega
      · obtain ⟨hpos, hyounger⟩ := (h k).changed d hd hkept
        have hmem : world i ∈ pastWorlds world (k + 1) :=
          mem_pastWorlds (Nat.lt_succ_of_le (Nat.le_trans hij hjk))
        exact ⟨hpos, hyounger (world i) hmem⟩

/-- A world may stay as it is. -/
theorem World.follows_self (w : World) (past : List World) : w.Follows w past where
  kept d _ _ := Int.le_refl (w.time d)
  changed _ hnext hnow := absurd hnext hnow

/-- One edit: the world before it, and the world ever after. -/
def beforeAndAfter (before after : World) : Nat → World
  | 0 => before
  | _ + 1 => after

/-- One edit that is permitted makes a timeline. -/
theorem timeline_beforeAndAfter {before after : World} (h : after.Follows before []) :
    Timeline (beforeAndAfter before after)
  | 0 => h
  | n + 1 => after.follows_self (pastWorlds (beforeAndAfter before after) (n + 1))

/-! ## §2. Results and markers of different moments. -/

/-- **A checking read is not stale** if what is on record for its target was
computed at one moment and dated at no later one. -/
theorem reread_eq_truth {world : Nat → World} (h : Timeline world) (ignored : List String)
    {k : Nat} {entries : MapCache} {t : Target}
    (hrecord : ∀ list time, entries.result? t = some list → entries.marker? t = some time →
      ∃ i j, i ≤ j ∧ j ≤ k ∧ (world i).lastModification t.className = .ok time
        ∧ ((world j).declared ignored).read t = .ok list)
    (accepts : MapCache.Rule) :
    reread ((world k).sources ignored) accepts entries t = (world k).truth ignored t := by
  obtain ⟨result, after, hcourse, hrun⟩ :=
    CachedReader.course_opened accepts ((world k).sources ignored) true entries t
  have hresult : result = (world k).truth ignored t := by
    apply hcourse.eq_truth
    intro list hstored hcounts
    obtain ⟨current, time, hcurrent, hmarked, hle⟩ := hcounts rfl
    obtain ⟨i, j, hij, hjk, hdated, hcomputed⟩ := hrecord list time hstored hmarked
    exact ((h.newSince hij hjk).truth_eq ignored hcurrent hdated hle).trans hcomputed
  unfold reread
  rw [hrun]
  exact hresult

/-! ## §3. A read across edits. -/

/-- The sources of a read that dates the class in one world and computes the
result in another one. -/
def Sources.straddling (dated computed : World) (ignored : List String) : Sources where
  latest := dated.lastModification
  compute := (computed.declared ignored).read

/-- What a read leaves on record that finds nothing that counts. -/
theorem recorded_of_outdated {s : Sources} {r r' : CachedReader} {t : Target}
    {entries after : MapCache} {current : Int} {list : List Annotation}
    (hforgotten : r.loaded.get? (CacheKey.ofTarget t).text = none)
    (hdated : s.latest t.className = .ok current)
    (houtdated : Sources.Outdated r.checking t entries current)
    (hread : (r.read (s.beside (MapCache.store MapCache.keepAll)) t).run entries
      = ((.ok list, r'), after)) :
    s.compute t = .ok list ∧ after = entries.recorded MapCache.keepAll t list current := by
  obtain ⟨result, mid, hcourse, hrun⟩ :=
    CachedReader.course_of_forgotten MapCache.keepAll s entries hforgotten
  rw [hrun, Prod.mk.injEq, Prod.mk.injEq] at hread
  obtain ⟨⟨rfl, -⟩, rfl⟩ := hread
  cases hcourse with
  | trusted unchecked stored => exact absurd (houtdated _ stored).1 (by simp [unchecked])
  | verified _ stored dated marked recent =>
      have hearlier := (houtdated _ stored).2 _ marked
      have heq := Except.ok.inj (hdated.symm.trans dated)
      omega
  | refreshed dated computed =>
      rw [Except.ok.inj (hdated.symm.trans dated)]
      exact ⟨computed, rfl⟩

/-- **An edit that lands in the middle of a read is not lost.**  A read finds
nothing that counts, dates the class in one world and computes the result in a
later one.  As long as what it has put on record stays there, a checking read
in any later world gives what is to be read then. -/
theorem reread_after_straddling {world : Nat → World} (h : Timeline world) {i j k : Nat}
    (hij : i ≤ j) (hjk : j ≤ k) (ignored : List String) {r r' : CachedReader} {t : Target}
    {entries after later : MapCache} {current : Int} {list : List Annotation}
    (hforgotten : r.loaded.get? (CacheKey.ofTarget t).text = none)
    (hdated : (world i).lastModification t.className = .ok current)
    (houtdated : Sources.Outdated r.checking t entries current)
    (hread : (r.read ((Sources.straddling (world i) (world j) ignored).beside
      (MapCache.store MapCache.keepAll)) t).run entries = ((.ok list, r'), after))
    (hresult : later.get? (CacheKey.ofTarget t).text = after.get? (CacheKey.ofTarget t).text)
    (hmarker : later.get? (CacheKey.ofTarget t).marker = after.get? (CacheKey.ofTarget t).marker)
    (accepts : MapCache.Rule) :
    reread ((world k).sources ignored) accepts later t = (world k).truth ignored t := by
  obtain ⟨hcomputed, rfl⟩ := recorded_of_outdated hforgotten hdated houtdated hread
  -- The marker is no younger than the list, which is all that a later read relies on.
  apply reread_eq_truth h ignored
  intro found time hstored hmarked
  have hlist : later.result? t = some list := by
    unfold MapCache.result?
    rw [hresult]
    exact (MapCache.result?_recorded_self _ entries t list current).trans (if_pos rfl)
  have htime : later.marker? t = some current := by
    unfold MapCache.marker?
    rw [hmarker]
    exact (MapCache.marker?_recorded_self _ entries t list current).trans (if_pos rfl)
  rw [Option.some.inj (hstored.symm.trans hlist), Option.some.inj (hmarked.symm.trans htime)]
  exact ⟨i, j, hij, hjk, hdated, hcomputed⟩

/-- A world in which the page was made at time `1`, and all else edited at another. -/
def World.editedAt (w : World) (edited : Int) : World :=
  { w with time := fun d => if d.name = "App\\Page" then 1 else edited }

/-- Whatever stands beside the page may be edited at any later time. -/
theorem World.editedAt_follows {w u : World} (hw : w.Has shownPage) (hu : u.Has shownPage)
    {edited edited' : Int} {past : List World} (hpos : 1 ≤ edited) (hlater : edited < edited')
    (hpast : ∀ v ∈ past, ∀ d, v.time d ≤ edited) :
    (u.editedAt edited').Follows (w.editedAt edited) past where
  kept d _ _ := by
    show (if d.name = "App\\Page" then 1 else edited) ≤ if d.name = "App\\Page" then 1 else edited'
    split <;> omega
  changed d hnext hnow := by
    -- The page is the same in both worlds, so what was changed is beside it.
    have hpage : d.name ≠ "App\\Page" := by
      intro hname
      have hd : d = shownPage := by
        have hreflect : u.registry.reflect d.name = .ok shownPage := hname ▸ hu
        exact Except.ok.inj (hnext.symm.trans hreflect)
      exact hnow (hd ▸ hw)
    show (0 : Int) < (if d.name = "App\\Page" then 1 else edited') ∧
      ∀ v ∈ w.editedAt edited :: past, ∀ e, v.Has e → v.time e < if d.name = "App\\Page" then 1 else edited'
    rw [if_neg hpage]
    refine ⟨by omega, ?_⟩
    intro v hv e _
    rcases List.mem_cons.1 hv with rfl | hv
    · show (if e.name = "App\\Page" then 1 else edited) < edited'
      split <;> omega
    · have hle := hpast v hv e
      omega

/-- The trait is changed, and then changed back. -/
def changedBack : Nat → World
  | 0 => routing.editedAt 1
  | 1 => templating.editedAt 2
  | _ + 2 => routing.editedAt 3

theorem timeline_changedBack : Timeline changedBack
  | 0 => by
      apply World.editedAt_follows (w := routing) (u := templating) rfl rfl (by decide) (by decide)
      intro v hv
      cases hv
  | 1 => by
      apply World.editedAt_follows (w := templating) (u := routing) rfl rfl (by decide) (by decide)
      intro v hv d
      rw [List.mem_singleton.1 hv]
      show (if d.name = "App\\Page" then (1 : Int) else 1) ≤ 2
      split <;> decide
  | n + 2 => (routing.editedAt 3).follows_self (pastWorlds changedBack (n + 2))

/-- What a read has left that dated the class before the first change and
computed the result after it. -/
def straddled : MapCache :=
  MapCache.recorded MapCache.keepAll Dict.empty (.ofMethod "App\\Page" "index")
    [{ name := "Template" }] 1

/-- A read that dates the page at the first moment and computes at the second. -/
theorem read_straddled :
    ((CachedReader.opened true).read ((Sources.straddling (changedBack 0) (changedBack 1)
          []).beside (MapCache.store MapCache.keepAll)) (.ofMethod "App\\Page" "index")).run
        Dict.empty
      = ((.ok [{ name := "Template" }], (CachedReader.opened true).remember
          (.ofMethod "App\\Page" "index") (.ok [{ name := "Template" }])), straddled) := by
  unfold changedBack
  rfl

theorem reread_after_straddling_of_changedBack :
    Timeline changedBack
      ∧ (changedBack 0).lastModification "App\\Page" = .ok 1
      ∧ Sources.Outdated true (.ofMethod "App\\Page" "index") Dict.empty 1
      ∧ reread ((changedBack 2).sources []) MapCache.keepAll straddled
            (.ofMethod "App\\Page" "index")
          = .ok [{ name := "Route" }] := by
  have houtdated : Sources.Outdated true (.ofMethod "App\\Page" "index") Dict.empty 1 := by
    intro old hold
    cases hold
  have hdated : (changedBack 0).lastModification "App\\Page" = .ok 1 := rfl
  have htruth : (changedBack 2).truth [] (.ofMethod "App\\Page" "index")
      = .ok [{ name := "Route" }] := rfl
  have hreread := reread_after_straddling timeline_changedBack (Nat.zero_le 1) (Nat.le_succ 1) []
    (r := .opened true) (t := .ofMethod "App\\Page" "index") rfl hdated houtdated read_straddled
    (Eq.refl (straddled.get? _)) (Eq.refl (straddled.get? _)) MapCache.keepAll
  exact ⟨timeline_changedBack, hdated, houtdated, hreread.trans htruth⟩

end AnnotationCache

/-
  AnnotationCache.Proofs.Reading.Setback
  ──────────────────────────────────────
  **WHAT A FAILED READ LEAVES BEHIND.**

  Whoever fails during a read, the read fails with the same error, the reader
  remembers nothing of it, and nothing has been written; with one exception.  If the
  last request fails, that of writing the marker, the new result stands on record
  already, next to whatever marker was there.

  A marker that did not vouch for the old result does not vouch for the new one
  either, as long as the class has not become older.  So a reader that checks
  computes the result again, and the half of a pair that was written is never trusted
  by it.  Where no result was on record the marker was not looked at, and nothing can
  be said of it.

  Main statements:
    * `Transcript.failed` — what follows from a failure that is in the minutes;
    * `recomputes_of_outdated` — what is outdated is computed again;
    * `failed_read`       — a failed read leaves nothing behind that matters.
-/
import AnnotationCache.Proofs.Reading.Protocol

namespace AnnotationCache.Company

open Sources (Outdated)

variable {ω : Type} {c : Company ω} {t : Target} {entries : MapCache} {world : ω} {last : Int}
  {checking : Bool} {result : Except Error (List Annotation)} {room : Room ω}
  {made : List Minute} {errand : Errand} {e : Error}

/-! ## §1. Failures in the minutes. -/

/-- Is this the errand of writing the marker of a target? -/
def Marks (t : Target) (errand : Errand) : Prop :=
  ∃ value, errand = .set (CacheKey.ofTarget t).marker value

/-- The errand of writing a result is not that of writing its marker. -/
theorem not_marks_set_text (value : CacheValue) :
    ¬ Marks t (.set (CacheKey.ofTarget t).text value) := by
  rintro ⟨value', h⟩
  exact CacheKey.marker_ne_text (CacheKey.ofTarget t) (Errand.set.inj h).1.symm

/-- **The new result is on record without its marker.** -/
structure HalfRecorded (c : Company ω) (t : Target) (entries : MapCache) (world : ω)
    (list : List Annotation) (room : Room ω) : Prop where
  computed : (c.compute t).run.run world = (.ok list, room.world)
  written : room.entries = entries.write c.accepts (CacheKey.ofTarget t).text (.annotations list)

/-- A failure while a result is computed and put on record. -/
theorem Refreshing.failed (h : c.Refreshing t entries world last result room made)
    (hmem : ⟨errand, some e⟩ ∈ made) :
    result = .error e
      ∧ ((¬ Marks t errand ∧ room.entries = entries)
        ∨ (errand = .set (CacheKey.ofTarget t).marker (.timestamp last)
            ∧ ∃ list, c.HalfRecorded t entries world list room)) := by
  cases h with
  | uncomputed failed =>
      obtain ⟨rfl, rfl⟩ := mem_stopped_iff.1 hmem
      exact ⟨rfl, .inl ⟨by rintro ⟨_, ⟨⟩⟩, rfl⟩⟩
  | unwritten computed fault =>
      obtain ⟨rfl, rfl⟩ := mem_stopped_iff.1 hmem
      exact ⟨rfl, .inl ⟨not_marks_set_text _, rfl⟩⟩
  | unmarked computed written fault =>
      obtain ⟨rfl, rfl⟩ := mem_stopped_iff.1 hmem
      exact ⟨rfl, .inr ⟨rfl, _, computed, rfl⟩⟩
  | recorded => exact absurd hmem not_mem_accomplished

/-- A read that computes a result fails only with a failure that is in the minutes. -/
theorem Refreshing.mem_of_failed (h : c.Refreshing t entries world last (.error e) room made) :
    ∃ errand, ⟨errand, some e⟩ ∈ made := by
  cases h with
  | uncomputed | unwritten | unmarked => exact ⟨_, last_mem_stopped⟩

/-- **A failure in the minutes** is what the read fails with.  The map is as it was,
unless the failure was in writing the marker. -/
theorem Transcript.failed (h : c.Transcript checking t entries world result room made)
    (hmem : ⟨errand, some e⟩ ∈ made) :
    result = .error e
      ∧ ((¬ Marks t errand ∧ room.entries = entries)
        ∨ ∃ last mid list, errand = .set (CacheKey.ofTarget t).marker (.timestamp last)
            ∧ Outdated checking t entries last
            ∧ (c.lastModification t.className).run.run world = (.ok last, mid)
            ∧ c.HalfRecorded t entries mid list room) := by
  cases h with
  | unread fault =>
      obtain ⟨rfl, rfl⟩ := mem_stopped_iff.1 hmem
      exact ⟨rfl, .inl ⟨by rintro ⟨_, ⟨⟩⟩, rfl⟩⟩
  | trusted => exact absurd hmem not_mem_accomplished
  | unmarked _ _ fault =>
      obtain ⟨rfl, rfl⟩ := mem_stopped_iff.1 hmem
      exact ⟨rfl, .inl ⟨by rintro ⟨_, ⟨⟩⟩, rfl⟩⟩
  | undated _ _ walk =>
      rcases List.mem_append.1 hmem with hlookup | hwalk
      · exact absurd hlookup not_mem_accomplished
      · obtain ⟨hfailure, herrand⟩ := walk.failed hwalk
        cases hfailure
        refine ⟨rfl, .inl ⟨?_, rfl⟩⟩
        rcases herrand with rfl | ⟨d, rfl⟩ <;> rintro ⟨_, ⟨⟩⟩
  | verified _ _ _ walk =>
      -- A walk that came to an end has failed at nothing.
      rcases List.mem_append.1 hmem with hlookup | hwalk
      · exact absurd hlookup not_mem_accomplished
      · cases (walk.failed hwalk).1
  | refreshed outdated dated walk rest =>
      rcases List.mem_append.1 hmem with hlookup | hmem
      · exact absurd hlookup not_mem_accomplished
      · rcases List.mem_append.1 hmem with hwalk | hrest
        · cases (walk.failed hwalk).1
        · obtain ⟨hresult, hkept | ⟨herrand, list, hhalf⟩⟩ := rest.failed hrest
          · exact ⟨hresult, .inl hkept⟩
          · exact ⟨hresult, .inr ⟨_, _, list, herrand, outdated, dated, hhalf⟩⟩

/-- **A read fails only with a failure that is in the minutes.** -/
theorem Transcript.mem_of_failed (h : c.Transcript checking t entries world (.error e) room made) :
    ∃ errand, ⟨errand, some e⟩ ∈ made := by
  cases h with
  | unread | unmarked => exact ⟨_, last_mem_stopped⟩
  | undated _ _ walk => exact ⟨_, List.mem_append_right _ walk.mem_of_failed⟩
  | refreshed _ _ _ rest =>
      obtain ⟨errand, hmem⟩ := rest.mem_of_failed
      exact ⟨errand, List.mem_append_right _ (List.mem_append_right _ hmem)⟩

/-! ## §2. The read after it. -/

/-- **Is a target computed again** by every reader that checks and does not remember it,
where its class is no older than this? -/
def Recomputes (ω : Type) (entries : MapCache) (t : Target) (last : Int) : Prop :=
  ∀ (c : Company ω) (r : CachedReader) (world mid : ω) (now : Int),
    r.checking = true → r.loaded.get? (CacheKey.ofTarget t).text = none →
      (∀ key, c.unread key = none) →
        (c.lastModification t.className).run.run world = (.ok now, mid) → last ≤ now →
          ∃ result r' room made, c.attend r t ⟨entries, world⟩ = ((result, r'), room, made)
            ∧ (∃ failure, ⟨.compute t, failure⟩ ∈ made)
            ∧ ∀ list, result = .ok list → (c.compute t).run.run mid = (.ok list, room.world)

theorem Refreshing.computes (h : c.Refreshing t entries world last result room made) :
    (∃ failure, ⟨.compute t, failure⟩ ∈ made)
      ∧ ∀ list, result = .ok list → (c.compute t).run.run world = (.ok list, room.world) := by
  cases h with
  | uncomputed | unwritten | unmarked =>
      refine ⟨⟨_, List.mem_cons_self⟩, ?_⟩
      rintro list ⟨⟩
  | recorded computed =>
      refine ⟨⟨_, List.mem_cons_self⟩, ?_⟩
      rintro list ⟨⟩
      exact computed

/-- **What is outdated is computed again**, and stays so while the class gets no older. -/
theorem recomputes_of_outdated (h : Outdated true t entries last) :
    Recomputes ω entries t last := by
  intro c r world mid now hchecking hforgotten hread hdated hnow
  obtain ⟨result, room, made, htranscript, hattend⟩ :=
    attend_of_forgotten c entries world hforgotten
  rw [hchecking] at htranscript
  refine ⟨result, _, room, made, hattend, ?_⟩
  cases htranscript with
  | unread fault => cases (hread _).symm.trans fault
  | trusted unchecked => cases unchecked
  | unmarked _ _ fault => cases (hread _).symm.trans fault
  | undated _ failed => cases hdated.symm.trans failed
  | verified _ stored dated _ marked recent =>
      cases hdated.symm.trans dated
      have hearlier := (h _ stored).2 _ marked
      omega
  | refreshed _ dated _ rest =>
      cases hdated.symm.trans dated
      obtain ⟨⟨failure, hmem⟩, hcomputed⟩ := rest.computes
      exact ⟨⟨failure, List.mem_append_right _ (List.mem_append_right _ hmem)⟩, hcomputed⟩

/-- A new result under a marker that was too old for the one before it is outdated. -/
theorem outdated_write_text {stored : List Annotation} (h : Outdated checking t entries last)
    (hstored : entries.result? t = some stored) (accepts : MapCache.Rule) (value : CacheValue) :
    Outdated true t (entries.write accepts (CacheKey.ofTarget t).text value) last := by
  intro old _
  refine ⟨rfl, ?_⟩
  -- The marker has a key of its own, so it is the one that was too old before.
  rw [MapCache.marker?_write_text]
  exact (h stored hstored).2

/-! ## §3. Failed reads. -/

/-- **A failed read leaves nothing behind that matters.**  A read fails if and only if
somebody fails whom it turns to, and with the very same error.  The reader is then as it
was, and so is the map, unless it was the marker that could not be written.  In that case
the result that was computed is on record, if the map does not decline it, and everything
else there is as it was; and if there was a result on record before, every read that
checks computes it again in a world in which the class is no older. -/
theorem failed_read {r r' : CachedReader} {after : MapCache} {world' : ω}
    (hread : c.attend r t ⟨entries, world⟩ = ((result, r'), ⟨after, world'⟩, made)) :
    (∀ e, result = .error e → ∃ errand, ⟨errand, some e⟩ ∈ made)
      ∧ ∀ errand e, ⟨errand, some e⟩ ∈ made →
          result = .error e ∧ r' = r
            ∧ ((∀ value, errand ≠ .set (CacheKey.ofTarget t).marker value) → after = entries)
            ∧ ∀ value, errand = .set (CacheKey.ofTarget t).marker value →
                ∃ last mid list, value = .timestamp last
                  ∧ (c.lastModification t.className).run.run world = (.ok last, mid)
                  ∧ (c.compute t).run.run mid = (.ok list, world')
                  ∧ after.get? (CacheKey.ofTarget t).text
                      = (if c.accepts (CacheKey.ofTarget t).text (.annotations list)
                          then some (.annotations list)
                          else entries.get? (CacheKey.ofTarget t).text)
                  ∧ (∀ key, key ≠ (CacheKey.ofTarget t).text → after.get? key = entries.get? key)
                  ∧ ∀ stored, entries.result? t = some stored → Recomputes ω after t last := by
  cases hloaded : r.loaded.get? (CacheKey.ofTarget t).text with
  | some known =>
      -- What is remembered is asked of nobody, so nobody fails.
      rw [attend_of_remembered c _ hloaded] at hread
      cases hread
      refine ⟨by rintro e ⟨⟩, ?_⟩
      intro errand e hmem
      cases hmem
  | none =>
      obtain ⟨result', room, made', htranscript, hattend⟩ :=
        attend_of_forgotten c entries world hloaded
      rw [hattend] at hread
      cases hread
      refine ⟨?_, ?_⟩
      · rintro e rfl
        exact htranscript.mem_of_failed
      · intro errand e hmem
        obtain ⟨rfl, hkept | hhalf⟩ := htranscript.failed hmem
        · refine ⟨rfl, rfl, fun _ => hkept.2, ?_⟩
          intro value herrand
          exact absurd ⟨value, herrand⟩ hkept.1
        · -- The result is written, and the marker is not.
          obtain ⟨last, mid, list, herrand, houtdated, hdated, hcomputed, hwritten⟩ := hhalf
          refine ⟨rfl, rfl, fun hnot => absurd herrand (hnot _), ?_⟩
          intro value hvalue
          have hlast : value = .timestamp last :=
            ((Errand.set.inj (herrand.symm.trans hvalue)).2).symm
          have hafter : after = _ := hwritten
          refine ⟨last, mid, list, hlast, hdated, hcomputed, ?_, ?_, ?_⟩
          · rw [hafter, MapCache.get?_write]
            simp
          · intro key hkey
            rw [hafter, MapCache.get?_write, if_neg fun h => hkey h.1]
          · intro stored hstored
            rw [hafter]
            exact recomputes_of_outdated
              (outdated_write_text houtdated hstored c.accepts (.annotations list))

/-- The company that is asked while things are being written, before a cache that cannot
write the controller's marker. -/
def interrupted : Company Int :=
  { drafting with
    unwritten := fun key _ => if key = "[C]App.Controller" then some (.backend "down") else none }

/-- The map after the failure: the new result under the old marker. -/
def halfDrafted : MapCache :=
  undrafted.insert "App.Controller" (.annotations [{ name := "Route" }])

theorem failed_read_of_interrupted :
    (interrupted.attend (CachedReader.opened true) (.ofClass "App\\Controller") ⟨undrafted, 100⟩).1
        = (.error (.backend "down"), CachedReader.opened true)
      ∧ halfDrafted.get? "App.Controller" = some (.annotations [{ name := "Route" }])
      ∧ halfDrafted.get? "[C]App.Controller" = some (.timestamp 70)
      ∧ ∃ failure, ⟨.compute (.ofClass "App\\Controller"), failure⟩ ∈
          (drafting.attend (CachedReader.opened true) (.ofClass "App\\Controller")
            ⟨halfDrafted, 100⟩).2.2 := by
  have hread : interrupted.attend (CachedReader.opened true) (.ofClass "App\\Controller")
        ⟨undrafted, 100⟩
      = ((.error (.backend "down"), CachedReader.opened true), ⟨halfDrafted, 150⟩,
          stopped [.get "App.Controller", .get "[C]App.Controller", .date drafted,
              .date draftedRoutes, .latest "App\\Controller", .compute (.ofClass "App\\Controller"),
              .set "App.Controller" (.annotations [{ name := "Route" }])]
            (.set "[C]App.Controller" (.timestamp 100)) (.backend "down")) := rfl
  obtain ⟨-, hfailed⟩ := failed_read hread
  obtain ⟨-, -, -, hhalf⟩ := hfailed _ _ last_mem_stopped
  obtain ⟨last, mid, list, hlast, -, hcomputed, htext, hothers, hagain⟩ := hhalf _ rfl
  cases hlast
  refine ⟨by rw [hread], ?_, ?_, ?_⟩
  · have hlist : [{ name := "Route" }] = list := Except.ok.inj (Prod.mk.inj hcomputed).1
    rw [← hlist] at htext
    exact htext
  · rw [hothers _ (by decide)]
    rfl
  · obtain ⟨result, r', room, made, hattend, hcomputes, -⟩ :=
      hagain [] rfl drafting (CachedReader.opened true) 100 100 100 rfl rfl (fun _ => rfl) rfl
        (Int.le_refl 100)
    rw [hattend]
    exact hcomputes

end AnnotationCache.Company

/-
  AnnotationCache.Proofs.Reading.Editions
  ───────────────────────────────────────
  **READERS OF AN OLDER MANIFEST BESIDE READERS OF A NEWER ONE.**

  A manifest is edited, and readers that were made from it before go on reading
  beside those that are made from it now.  All of them check, and share one
  cache and the live files.  What a reader of the older edition has put on
  record before the edit does no harm, for the files of what was edited are
  younger.  But what it puts there after the edit has the old annotations under
  the new times, and a reader of the newer edition has no way to tell.

  The invariant names the source of what is on record (`Editions.Sourced`): one
  of the three worlds that a reader of the newer edition may rely on, or else
  the older edition after the edit, which must then have been the last to
  change the record.

  Main statements:
    * `Editions.Sourced.turn`    — a read keeps the invariant;
    * `newer_read_eq_declared`   — a reader of the newer edition gives what is
      declared in it, but for that one case;
    * `newer_read_may_be_older`  — in that case it may not.
-/
import AnnotationCache.Proofs.Reading.Age
import AnnotationCache.Proofs.Reading.Declined
import AnnotationCache.Proofs.Reading.LiveFiles
import AnnotationCache.Proofs.Files.Walk

namespace AnnotationCache

open AnnotationCache.Files (Disk)
open AnnotationCache.Types (Registry Descriptor)

/-- Two editions of one manifest, and the names that readers of both ignore. -/
structure Editions where
  older : Edition
  newer : Edition
  ignored : List String

namespace Editions

/-- What is asked of a reader of the newer edition or of the older one. -/
structure Query where
  newer : Bool
  target : Target
  deriving DecidableEq, Repr

/-- **A read that was made**: of which edition, its result, and the cache as it
was found and left. -/
structure Turn where
  newer : Bool
  target : Target
  result : Except Error (List Annotation)
  found : MapCache
  left : MapCache

variable (p : Editions)

/-- The edition that a query is about. -/
def edition (newer : Bool) : Edition :=
  if newer then p.newer else p.older

/-! ## §1. Runs. -/

/-- What a new reader that checks answers to a query, and the desk afterwards. -/
def ask (desk : Desk) (q : Query) : (Except Error (List Annotation) × CachedReader) × Desk :=
  ((CachedReader.opened true).read ((p.edition q.newer).readers p.ignored) q.target).run desk

/-- **One read.** -/
def turn (desk : Desk) (q : Query) : Turn where
  newer := q.newer
  target := q.target
  result := (p.ask desk q).1.1
  found := desk.cache
  left := (p.ask desk q).2.cache

/-- **The reads of a run.** -/
def turns : Desk → List Query → List Turn
  | _, [] => []
  | desk, q :: queries => p.turn desk q :: turns (p.ask desk q).2 queries

/-- The desk after a run. -/
def afterwards : Desk → List Query → Desk
  | desk, [] => desk
  | desk, q :: queries => afterwards (p.ask desk q).2 queries

/-- The desk as it is when the manifest was edited, after some reads over an
empty cache: the files have changed, the cache has not. -/
def edited (before after : Disk) (earlier : List Query) : Desk where
  cache := (p.afterwards ⟨Dict.empty, before⟩ earlier).cache
  disk := after

/-! ## §2. Who has left the record of a target. -/

/-- Has a read changed the record of a target? -/
def Turn.Changes (v : Turn) (t : Target) : Prop :=
  CacheKey.ofTarget v.target = CacheKey.ofTarget t ∧ v.left.record? t ≠ v.found.record? t

/-- **Was a reader of the older edition the last to change the record?** -/
def OlderLeft (t : Target) (turns : List Turn) : Prop :=
  ∃ before v since, turns = before ++ v :: since ∧ v.newer = false ∧ v.Changes t
    ∧ ∀ u ∈ since, ¬ u.Changes t

variable {p} {t : Target} {turns : List Turn} {v : Turn}

theorem OlderLeft.concat (h : OlderLeft t turns) (hv : ¬ v.Changes t) :
    OlderLeft t (turns ++ [v]) := by
  obtain ⟨before, u, since, rfl, hold, hchanges, hsince⟩ := h
  refine ⟨before, u, since ++ [v], ?_, hold, hchanges, ?_⟩
  · rw [List.append_assoc, List.cons_append]
  · intro w hw
    rcases List.mem_append.1 hw with hw | hw
    · exact hsince w hw
    · exact List.mem_singleton.1 hw ▸ hv

theorem olderLeft_concat (hold : v.newer = false) (hv : v.Changes t) :
    OlderLeft t (turns ++ [v]) :=
  ⟨turns, v, [], rfl, hold, hv, fun _ hu => absurd hu List.not_mem_nil⟩

/-- Where only readers of the newer edition have read, no other one was the last. -/
theorem not_olderLeft (h : ∀ v ∈ turns, v.newer = true) : ¬ OlderLeft t turns := by
  rintro ⟨before, v, since, rfl, hold, -, -⟩
  have hnew : v.newer = true := h v (List.mem_append_right before List.mem_cons_self)
  rw [hold] at hnew
  cases hnew

/-! ## §3. Reads. -/

/-- A read takes one of the courses, in the world that its edition makes with the
files of the desk. -/
theorem course_ask (p : Editions) (desk : Desk) (q : Query) :
    ∃ result after,
      Sources.Course (((p.edition q.newer).onDisk desk.disk).sources p.ignored) MapCache.keepAll
          true q.target desk.cache (result, after)
        ∧ (p.ask desk q).1.1 = result ∧ (p.ask desk q).2 = { desk with cache := after } := by
  obtain ⟨result, after, hcourse, hrun⟩ := CachedReader.course_opened MapCache.keepAll
    (((p.edition q.newer).onDisk desk.disk).sources p.ignored) true desk.cache q.target
  refine ⟨result, after, hcourse, ?_, ?_⟩
  · unfold ask
    rw [Edition.read_eq, hrun]
  · unfold ask
    rw [Edition.read_eq, hrun]

/-- **Where a record of a target comes from**: it was computed and dated in one of
some worlds. -/
def From (ignored : List String) (t : Target) (worlds : World → Prop) (cache : MapCache) : Prop :=
  ∀ list time, cache.record? t = some (list, time) →
    ∃ w, worlds w ∧ w.lastModification t.className = .ok time ∧ w.truth ignored t = .ok list

/-- A target that is read under the key of another one is that one, up to
separators in front of the class name. -/
def Query.Spells (q : Query) (t : Target) : Prop :=
  CacheKey.ofTarget q.target = CacheKey.ofTarget t → q.target.normalized = t.normalized

/-- **What a read leaves on record** it has found there, or it comes from the
world of the read. -/
theorem record_of_ask {desk : Desk} {q : Query} (hq : q.Spells t) {list : List Annotation}
    {time : Int} (h : (p.ask desk q).2.cache.record? t = some (list, time)) :
    desk.cache.record? t = some (list, time)
      ∨ (CacheKey.ofTarget q.target = CacheKey.ofTarget t
        ∧ ((p.edition q.newer).onDisk desk.disk).lastModification t.className = .ok time
        ∧ ((p.edition q.newer).onDisk desk.disk).truth p.ignored t = .ok list) := by
  obtain ⟨result, after, hcourse, -, hdesk⟩ := p.course_ask desk q
  rw [hdesk] at h
  rcases hcourse.record? h with hbefore | ⟨hkey, hdated, htruth⟩
  · exact .inl hbefore
  · have hsame : q.target.normalized = t.normalized := hq hkey.symm
    refine .inr ⟨hkey.symm, ?_, ?_⟩
    · rw [← World.lastModification_eq_of_normalized_eq hsame]
      exact hdated
    · rw [← World.truth_eq_of_normalized_eq hsame]
      exact htruth

/-- A read leaves the disk as it is. -/
theorem disk_ask (p : Editions) (desk : Desk) (q : Query) : (p.ask desk q).2.disk = desk.disk := by
  obtain ⟨result, after, -, -, hdesk⟩ := p.course_ask desk q
  rw [hdesk]

theorem disk_afterwards (p : Editions) (queries : List Query) : ∀ desk : Desk,
    (p.afterwards desk queries).disk = desk.disk := by
  induction queries with
  | nil => exact fun _ => rfl
  | cons q queries ih =>
      intro desk
      exact (ih (p.ask desk q).2).trans (p.disk_ask desk q)

/-! ## §4. Before the edit. -/

/-- The worlds of the two editions before the edit. -/
def EarlierWorld (p : Editions) (before : Disk) (w : World) : Prop :=
  w = p.older.onDisk before ∨ w = p.newer.onDisk before

/-- Before the edit all records come from the worlds of that time. -/
theorem from_afterwards {before : Disk} {queries : List Query} :
    ∀ {desk : Desk}, desk.disk = before → (∀ q ∈ queries, q.Spells t) →
      From p.ignored t (p.EarlierWorld before) desk.cache →
        From p.ignored t (p.EarlierWorld before) (p.afterwards desk queries).cache := by
  induction queries with
  | nil => exact fun _ _ h => h
  | cons q queries ih =>
      intro desk hdisk hspelt h
      obtain ⟨hq, hrest⟩ := List.forall_mem_cons.1 hspelt
      apply ih ((p.disk_ask desk q).trans hdisk) hrest
      intro list time hrecord
      rcases record_of_ask hq hrecord with hbefore | ⟨-, hdated, htruth⟩
      · exact h list time hbefore
      · refine ⟨_, ?_, hdated, htruth⟩
        rw [hdisk]
        unfold EarlierWorld edition
        split
        · exact .inr rfl
        · exact .inl rfl

/-! ## §5. After the edit. -/

/-- **The worlds that a record may come from after the edit**: those that there
were before, that of the newer edition now, and that of the older one if it was
the last to change the record. -/
def LaterWorld (p : Editions) (before after : Disk) (t : Target) (turns : List Turn) (w : World) :
    Prop :=
  p.EarlierWorld before w ∨ w = p.newer.onDisk after
    ∨ (w = p.older.onDisk after ∧ OlderLeft t turns)

/-- **What holds all through a run after the edit.** -/
def Sourced (p : Editions) (before after : Disk) (t : Target) (turns : List Turn)
    (cache : MapCache) : Prop :=
  From p.ignored t (p.LaterWorld before after t turns) cache

variable {before after : Disk}

/-- **A read keeps the invariant.** -/
theorem Sourced.turn {desk : Desk} {q : Query} (hdisk : desk.disk = after) (hq : q.Spells t)
    (h : p.Sourced before after t turns desk.cache) :
    p.Sourced before after t (turns ++ [p.turn desk q]) (p.ask desk q).2.cache := by
  intro list time hrecord
  -- A record that the read has found stays with who was the last to change it.
  have hfound : desk.cache.record? t = some (list, time) → ∃ w,
      p.LaterWorld before after t (turns ++ [p.turn desk q]) w
        ∧ w.lastModification t.className = .ok time ∧ w.truth p.ignored t = .ok list := by
    intro hbefore
    have hunchanged : ¬ (p.turn desk q).Changes t :=
      fun hchanges => hchanges.2 (hrecord.trans hbefore.symm)
    obtain ⟨w, hw, hpair⟩ := h list time hbefore
    refine ⟨w, ?_, hpair⟩
    rcases hw with hw | hw | ⟨hw, hleft⟩
    · exact .inl hw
    · exact .inr (.inl hw)
    · exact .inr (.inr ⟨hw, hleft.concat hunchanged⟩)
  rcases record_of_ask hq hrecord with hbefore | ⟨hkey, hdated, htruth⟩
  · exact hfound hbefore
  · by_cases hsame : desk.cache.record? t = some (list, time)
    · exact hfound hsame
    · refine ⟨_, ?_, hdated, htruth⟩
      rw [hdisk]
      cases hnewer : q.newer with
      | true => exact .inr (.inl rfl)
      | false =>
          have hchanges : (p.turn desk q).Changes t :=
            ⟨hkey, fun heq => hsame (heq.symm.trans hrecord)⟩
          exact .inr (.inr ⟨rfl, olderLeft_concat hnewer hchanges⟩)

/-- **A run keeps the invariant.** -/
theorem Sourced.afterwards {queries : List Query} : ∀ {desk : Desk} {turns : List Turn},
    desk.disk = after → (∀ q ∈ queries, q.Spells t) →
      p.Sourced before after t turns desk.cache →
        p.Sourced before after t (turns ++ p.turns desk queries)
          (p.afterwards desk queries).cache := by
  induction queries with
  | nil =>
      intro desk turns _ _ h
      unfold Editions.turns Editions.afterwards
      rw [List.append_nil]
      exact h
  | cons q queries ih =>
      intro desk turns hdisk hspelt h
      obtain ⟨hq, hrest⟩ := List.forall_mem_cons.1 hspelt
      have hstep := ih ((p.disk_ask desk q).trans hdisk) hrest (h.turn hdisk hq)
      rw [List.append_assoc] at hstep
      exact hstep

/-! ## §6. What a reader of the newer edition gives. -/

/-- **The edit**: what is new or changed in the newer edition has a source file,
and that is younger than the epoch and than all source files were before. -/
def Edited (p : Editions) (before after : Disk) : Prop :=
  ∀ d, p.newer.Has d → ¬ p.older.Has d → ∃ path time,
    d.source = some path ∧ after.modified path = .ok time ∧ 0 < time
      ∧ ∀ e, p.older.Has e → ∀ path' earlier, e.source = some path' →
          before.modified path' = .ok earlier → earlier < time

/-- **What is new in the newer edition is younger than all of the older one was.** -/
theorem Edited.newSince (h : p.Edited before after) :
    (p.newer.onDisk after).NewSince (p.older.onDisk before) (p.older.onDisk before) := by
  intro d hd hnew
  obtain ⟨path, time, hsource, hmodified, hpos, hyounger⟩ := h d hd hnew
  have htime : (p.newer.onDisk after).time d = time := by
    apply Edition.time_onDisk
    rw [fileTime_of_source hsource, hmodified]
    show Except.ok (max 0 time) = Except.ok time
    rw [Int.max_eq_right (by omega)]
  rw [htime]
  refine ⟨hpos, ?_⟩
  intro e he
  -- A type without a source file that can be dated counts as made at the epoch.
  cases hthere : e.source with
  | none =>
      rw [Edition.time_onDisk _ (fileTime_of_builtin hthere)]
      exact hpos
  | some path' =>
      cases hearlier : before.modified path' with
      | ok earlier =>
          have hlt : earlier < time := hyounger e he path' earlier hthere hearlier
          have hfile : fileTime before e = .ok (max 0 earlier) := by
            rw [fileTime_of_source hthere, hearlier]
            rfl
          rw [Edition.time_onDisk _ hfile]
          omega
      | error failure =>
          have hfile : fileTime before e
              = .error (.unknownModification path' failure.wording) := by
            rw [fileTime_of_source hthere, hearlier]
            rfl
          rw [Edition.time_onDisk_of_fault _ hfile]
          exact hpos

/-- A checking read of the newer edition gives what there is to read, if what is
on record comes from where it may, and the older edition has not left something
else there that passes for new. -/
theorem Sourced.result_eq {desk : Desk} (hedited : p.Edited before after)
    (hdisk : desk.disk = after) (h : p.Sourced before after t turns desk.cache) {current : Int}
    (hdated : (p.newer.onDisk after).lastModification t.className = .ok current)
    (hleft : OlderLeft t turns → (p.older.declared p.ignored).read t = (p.newer.declared p.ignored).read t
      ∨ ∀ time, (p.older.onDisk after).lastModification t.className = .ok time → time < current) :
    (p.ask desk ⟨true, t⟩).1.1 = (p.newer.onDisk after).truth p.ignored t := by
  obtain ⟨result, left, hcourse, hresult, -⟩ := p.course_ask desk ⟨true, t⟩
  rw [hresult]
  rw [hdisk] at hcourse
  apply hcourse.eq_truth
  intro list hstored hcounts
  obtain ⟨current', time, hcurrent, hmarked, hle⟩ := hcounts rfl
  have hsame : current' = current := Except.ok.inj (hcurrent.symm.trans hdated)
  subst hsame
  obtain ⟨w, hw, htime, htruth⟩ := h list time (MapCache.record?_eq_some.2 ⟨hstored, hmarked⟩)
  have hread : (w.declared p.ignored).read t = .ok list :=
    ((w.sources p.ignored).truth_of_dated htime).symm.trans htruth
  have hnow : (p.newer.onDisk after).truth p.ignored t = (p.newer.declared p.ignored).read t :=
    Sources.truth_of_dated _ hdated
  -- The record is from before the edit, of either edition, or from after it.
  rcases hw with (rfl | rfl) | rfl | ⟨rfl, holder⟩
  · exact (hedited.newSince.truth_eq p.ignored hdated htime hle).trans hread
  · exact hnow.trans hread
  · exact htruth
  · rcases hleft holder with hagree | hearlier
    · exact hnow.trans (hagree.symm.trans hread)
    · have hlt : time < current' := hearlier time htime
      omega

end Editions

open Editions

/-- **A reader of the newer edition gives what is declared in it**, after any
reads of both editions before and after the edit, if it can date the class.  The
exception is a target whose record a reader of the older edition was the last to
change since the edit: there the two editions must agree, or the class be
younger in the newer one. -/
theorem newer_read_eq_declared (p : Editions) {before after : Disk}
    (hedited : p.Edited before after) (earlier later : List Query) (t : Target)
    (hspelt : ∀ q ∈ earlier ++ later, q.Spells t) {current : Int}
    (hdated : p.newer.dated after t.className = .ok current)
    (hleft : OlderLeft t (p.turns (p.edited before after earlier) later) →
      (p.older.declared p.ignored).read t = (p.newer.declared p.ignored).read t
        ∨ ∀ time, p.older.dated after t.className = .ok time → time < current) :
    (p.turn (p.afterwards (p.edited before after earlier) later) ⟨true, t⟩).result
      = (p.newer.declared p.ignored).read t := by
  obtain ⟨hearlier, hlater⟩ := List.forall_mem_append.1 hspelt
  have hbefore : From p.ignored t (p.EarlierWorld before)
      (p.afterwards ⟨Dict.empty, before⟩ earlier).cache := by
    apply from_afterwards rfl hearlier
    intro list time hrecord
    cases hrecord
  have hstart : p.Sourced before after t [] (p.edited before after earlier).cache := by
    intro list time hrecord
    obtain ⟨w, hw, hpair⟩ := hbefore list time hrecord
    exact ⟨w, .inl hw, hpair⟩
  have hsame : (p.edited before after earlier).disk = after := rfl
  have hsourced := hstart.afterwards hsame hlater
  have hdisk : (p.afterwards (p.edited before after earlier) later).disk = after :=
    p.disk_afterwards later _
  rw [List.nil_append] at hsourced
  rw [← p.newer.lastModification_onDisk] at hdated
  have hresult := hsourced.result_eq hedited hdisk hdated
    (by simpa only [← Edition.lastModification_onDisk] using hleft)
  exact hresult.trans (Sources.truth_of_dated _ hdated)

/-! ## §7. The older edition reads after the edit. -/

/-- Over an empty cache a reader gives what is declared in its edition. -/
theorem result_over_empty {p : Editions} {disk : Disk} {q : Query} {list : List Annotation}
    {current : Int} (hdated : (p.edition q.newer).dated disk q.target.className = .ok current)
    (hread : ((p.edition q.newer).declared p.ignored).read q.target = .ok list) :
    (p.turn ⟨Dict.empty, disk⟩ q).result = .ok list := by
  obtain ⟨result, left, hcourse, hresult, -⟩ := p.course_ask ⟨Dict.empty, disk⟩ q
  rw [← Edition.lastModification_onDisk] at hdated
  refine hresult.trans (hcourse.eq_of_computed hdated hread (.inr ?_))
  intro old hstored
  cases hstored

/-- **What a reader of the older edition has just given, one of the newer edition
gives after it**, unless the class is younger there. -/
theorem result_after_older {p : Editions} {desk : Desk} {t : Target} {list : List Annotation}
    {time current : Int} (hle : current ≤ time) (hresult : (p.turn desk ⟨false, t⟩).result = .ok list)
    (hold : p.older.dated desk.disk t.className = .ok time)
    (hnew : p.newer.dated desk.disk t.className = .ok current) :
    (p.turn (p.ask desk ⟨false, t⟩).2 ⟨true, t⟩).result = .ok list := by
  rw [← Edition.lastModification_onDisk] at hold hnew
  obtain ⟨first, left, hfirst, hfirstEq, hdesk⟩ := p.course_ask desk ⟨false, t⟩
  have hlist : first = .ok list := hfirstEq.symm.trans hresult
  subst hlist
  obtain ⟨time', hrecord, hrecent⟩ := hfirst.vouched hold
  obtain ⟨hstored, hmarked⟩ := MapCache.record?_eq_some.1 hrecord
  obtain ⟨second, after, hsecond, hsecondEq, -⟩ := p.course_ask { desk with cache := left } ⟨true, t⟩
  rw [hdesk]
  exact hsecondEq.trans (hsecond.eq_of_recent hnew hstored hmarked (Int.le_trans hle hrecent))

/-- A disk with the source file of a page. -/
def pageDisk (modified : Int) : Disk :=
  ({} : Disk).put ["Page.php"] (.file (.text "<?php") modified)

theorem modified_pageDisk (modified : Int) :
    (pageDisk modified).modified "Page.php" = .ok modified := by
  have hmove : (pageDisk modified).move [] "Page.php" = .ok ["Page.php"] :=
    Disk.move_name ⟨0, rfl⟩ (by decide) (by decide) (by decide)
  have hlocate : (pageDisk modified).locate "Page.php" true = .ok ["Page.php"] := by
    unfold Disk.locate
    rw [if_neg (by decide), if_neg (by decide), if_neg (by decide)]
    show (pageDisk modified).walk true Disk.maxLinks ((pageDisk modified).trail []) ["Page.php"] = _
    rw [Disk.walk_moved hmove rfl, Disk.walk_nil]
  unfold Disk.modified Disk.find
  rw [hlocate]
  rfl

/-- The page, with its annotations. -/
def pageWith (annotations : List Annotation) : Descriptor :=
  { name := "App\\Page", source := some "Page.php", annotations := annotations }

/-- A manifest in which the page has no annotations. -/
def barePage : Edition where
  registry := ⟨Dict.empty.insert "App\\Page" (pageWith [])⟩
  wellFormed := Registry.wellFormed_ofTypes (show Registry.ofTypes [pageWith []] = .ok _ from rfl)

/-- The manifest once the page has become a route. -/
def routedPage : Edition where
  registry := ⟨Dict.empty.insert "App\\Page" (pageWith [{ name := "Route" }])⟩
  wellFormed := Registry.wellFormed_ofTypes
    (show Registry.ofTypes [pageWith [{ name := "Route" }]] = .ok _ from rfl)

/-- The two of them. -/
def rerouting : Editions where
  older := barePage
  newer := routedPage
  ignored := []

theorem eq_pageWith {annotations : List Annotation} {d : Descriptor}
    (h : (⟨Dict.empty.insert "App\\Page" (pageWith annotations)⟩ : Registry).reflect d.name = .ok d) :
    d = pageWith annotations := by
  rw [Registry.reflect_eq_ok] at h
  rw [Dict.get?_insert] at h
  split at h
  · exact (Option.some.inj h).symm
  · cases h

/-- The page is as old as its file. -/
theorem dated_page {e : Edition} {annotations : List Annotation}
    (hclosure : e.registry.closure "App\\Page" = .ok [pageWith annotations]) {modified : Int}
    (hpos : 0 ≤ modified) : e.dated (pageDisk modified) "App\\Page" = .ok modified := by
  have hfile : fileTime (pageDisk modified) (pageWith annotations) = .ok modified := by
    have hsource : (pageWith annotations).source = some "Page.php" := rfl
    rw [fileTime_of_source hsource, modified_pageDisk]
    show Except.ok (max 0 modified) = Except.ok modified
    rw [Int.max_eq_right hpos]
  have hworld : (e.onDisk (pageDisk modified)).registry.closure "App\\Page"
      = .ok [pageWith annotations] := hclosure
  rw [← e.lastModification_onDisk, World.lastModification_eq_latest, Edition.source_onDisk,
    Registry.latest_of_closure hworld, latestOf_of_time hfile, Int.max_eq_right hpos]
  rfl

theorem edited_rerouting : rerouting.Edited (pageDisk 100) (pageDisk 200) := by
  intro d hd _
  have hpage : d = pageWith [{ name := "Route" }] := eq_pageWith (by exact hd)
  subst hpage
  refine ⟨"Page.php", 200, rfl, modified_pageDisk 200, by decide, ?_⟩
  intro e he path earlier hsource hmodified
  have hold : e = pageWith [] := eq_pageWith (by exact he)
  subst hold
  cases hsource
  have hearlier : earlier = 100 := Except.ok.inj (hmodified.symm.trans (modified_pageDisk 100))
  omega

/-- **A reader of the newer edition gives its own annotations** though one of the
older edition has read before the edit. -/
theorem newer_read_of_rerouting :
    rerouting.Edited (pageDisk 100) (pageDisk 200)
      ∧ routedPage.dated (pageDisk 200) "App\\Page" = .ok 200
      ∧ (rerouting.turn (rerouting.afterwards (rerouting.edited (pageDisk 100) (pageDisk 200)
            [⟨false, .ofClass "App\\Page"⟩]) [⟨true, .ofClass "\\App\\Page"⟩])
          ⟨true, .ofClass "App\\Page"⟩).result = .ok [{ name := "Route" }] := by
  have hdated : routedPage.dated (pageDisk 200) "App\\Page" = .ok 200 :=
    @dated_page routedPage [{ name := "Route" }] rfl 200 (by decide)
  have hspelt : ∀ q ∈ [(⟨false, .ofClass "App\\Page"⟩ : Query)] ++ [⟨true, .ofClass "\\App\\Page"⟩],
      q.Spells (.ofClass "App\\Page") := by
    intro q hq _
    rcases List.mem_cons.1 hq with rfl | hq
    · rfl
    · rw [List.mem_singleton.1 hq]
      rfl
  refine ⟨edited_rerouting, hdated, ?_⟩
  refine (newer_read_eq_declared rerouting edited_rerouting _ _ _ hspelt hdated ?_).trans rfl
  intro hleft
  refine absurd hleft (not_olderLeft fun v hv => ?_)
  rw [List.mem_singleton.1 hv]
  rfl

/-- **After the edit, what the older edition puts on record passes for new.** -/
theorem newer_read_may_be_older :
    ¬ ∀ (p : Editions) (before after : Disk) (earlier later : List Query) (t : Target)
        (current : Int), p.Edited before after →
      (∀ d d', p.older.Has d → p.newer.Has d' → d.name = d'.name → d.source = d'.source) →
      p.newer.dated after t.className = .ok current →
        (p.turn (p.afterwards (p.edited before after earlier) later) ⟨true, t⟩).result
          = (p.newer.declared p.ignored).read t := by
  intro hnewer
  have hdated : routedPage.dated (pageDisk 200) "App\\Page" = .ok 200 :=
    @dated_page routedPage [{ name := "Route" }] rfl 200 (by decide)
  have hold : barePage.dated (pageDisk 200) "App\\Page" = .ok 200 :=
    @dated_page barePage [] rfl 200 (by decide)
  have hsources : ∀ d d', barePage.Has d → routedPage.Has d' → d.name = d'.name →
      d.source = d'.source := by
    intro d d' hd hd' _
    have hd : d = pageWith [] := eq_pageWith hd
    have hd' : d' = pageWith [{ name := "Route" }] := eq_pageWith hd'
    rw [hd, hd']
    rfl
  -- After the edit the older edition reads first, over an empty cache.
  have hread := hnewer rerouting (pageDisk 100) (pageDisk 200) []
    [⟨false, .ofClass "App\\Page"⟩] (.ofClass "App\\Page") 200 edited_rerouting
    hsources hdated
  have hempty : (rerouting.turn ⟨Dict.empty, pageDisk 200⟩ ⟨false, .ofClass "App\\Page"⟩).result
      = .ok [] := result_over_empty hold rfl
  have hdeclared : (rerouting.newer.declared rerouting.ignored).read (.ofClass "App\\Page")
      = .ok [{ name := "Route" }] := rfl
  have hstale : (rerouting.turn (rerouting.ask ⟨Dict.empty, pageDisk 200⟩
        ⟨false, .ofClass "App\\Page"⟩).2 ⟨true, .ofClass "App\\Page"⟩).result = .ok [] :=
    result_after_older (Int.le_refl 200) hempty hold hdated
  have hafter : rerouting.afterwards (rerouting.edited (pageDisk 100) (pageDisk 200) [])
      [⟨false, .ofClass "App\\Page"⟩]
        = (rerouting.ask ⟨Dict.empty, pageDisk 200⟩ ⟨false, .ofClass "App\\Page"⟩).2 := rfl
  rw [hafter, hstale, hdeclared] at hread
  cases hread

end AnnotationCache

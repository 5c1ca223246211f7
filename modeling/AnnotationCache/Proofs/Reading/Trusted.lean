/-
  AnnotationCache.Proofs.Reading.Trusted
  ──────────────────────────────────────
  **WHAT IS TRUSTED IS WRITTEN ONCE.**

  Readers that check nothing share a map that starts empty and keeps every write.
  Types, times and underlying readers may be others at every read, and memos may
  be cleared.  The first result of a target is then its result for good: nothing
  that is read later touches the two entries of the target, and a read of the
  target has to ask for nothing but that result.

  The invariant is that every list in a memo is on record
  (`CachedReader.Trusting`).  A reader that checks nothing writes only where no list
  is on record, so what is on record stays; what is written for other targets lies
  elsewhere, because no key that is read is the marker of another.

  Main statements:
    * `Course.retains`          — one read keeps what is on record for any target;
    * `Hall.Trusting.next`      — one event keeps it, and the invariant;
    * `Hall.Trusting.following` — and so does a run;
    * `trusted_for_good`        — a list that was answered once is answered for good.
-/
import AnnotationCache.Proofs.Reading.Calls
import AnnotationCache.Proofs.Reading.Standstill
import AnnotationCache.Proofs.Reading.Staleness

namespace AnnotationCache

/-! ## §1. What is on record. -/

namespace MapCache

/-- Is the entry of a target this list? -/
def Stores (entries : MapCache) (t : Target) (list : List Annotation) : Prop :=
  entries.get? (CacheKey.ofTarget t).text = some (.annotations list)

/-- **Does a map have the same two entries for a target as another one?** -/
structure Agrees (entries after : MapCache) (t : Target) : Prop where
  text : after.get? (CacheKey.ofTarget t).text = entries.get? (CacheKey.ofTarget t).text
  marker : after.get? (CacheKey.ofTarget t).marker = entries.get? (CacheKey.ofTarget t).marker

variable {entries mid after : MapCache} {t t' : Target} {list : List Annotation}

theorem Agrees.refl (entries : MapCache) (t : Target) : entries.Agrees entries t := ⟨rfl, rfl⟩

theorem Agrees.trans (h : entries.Agrees mid t) (h' : mid.Agrees after t) :
    entries.Agrees after t :=
  ⟨h'.text.trans h.text, h'.marker.trans h.marker⟩

theorem Stores.of_agrees (h : entries.Stores t list) (hagrees : entries.Agrees after t) :
    after.Stores t list :=
  hagrees.text.trans h

/-- A result on record is the list of an entry. -/
theorem stores_iff : entries.Stores t list ↔ entries.result? t = some list := by
  unfold Stores result?
  cases entries.get? (CacheKey.ofTarget t).text with
  | none => simp
  | some value => cases value <;> simp [CacheValue.asAnnotations]

/-- What is put on record stands there. -/
theorem stores_recorded (entries : MapCache) (t : Target) (list : List Annotation) (current : Int) :
    (entries.recorded keepAll t list current).Stores t list :=
  stores_iff.2 <| (result?_recorded_self keepAll entries t list current).trans (if_pos rfl)

/-- **Putting a result on record leaves the entries of targets with another key**,
as long as neither key is a marker. -/
theorem agrees_recorded (ht : ¬ t.Bracketed) (ht' : ¬ t'.Bracketed)
    (hkey : CacheKey.ofTarget t' ≠ CacheKey.ofTarget t) (entries : MapCache)
    (list : List Annotation) (current : Int) :
    entries.Agrees (entries.recorded keepAll t list current) t' := by
  have htext : (CacheKey.ofTarget t').text ≠ (CacheKey.ofTarget t).text :=
    fun heq => hkey (congrArg CacheKey.mk heq)
  have hmarker : (CacheKey.ofTarget t').marker ≠ (CacheKey.ofTarget t).marker :=
    fun heq => htext (CacheKey.marker_inj.1 heq)
  unfold recorded
  constructor
  · rw [get?_write, if_neg fun h => CacheKey.text_ne_marker ht' _ h.1, get?_write,
      if_neg fun h => htext h.1]
  · rw [get?_write, if_neg fun h => hmarker h.1, get?_write,
      if_neg fun h => CacheKey.text_ne_marker ht _ h.1.symm]

/-- **Does a map have all that another one has on record**, as it is there? -/
def Retains (entries after : MapCache) : Prop :=
  ∀ t : Target, ¬ t.Bracketed → ∀ list, entries.Stores t list → entries.Agrees after t

theorem Retains.refl (entries : MapCache) : entries.Retains entries :=
  fun t _ _ _ => .refl entries t

theorem Retains.trans (h : entries.Retains mid) (h' : mid.Retains after) :
    entries.Retains after := by
  intro t ht list hstores
  have hmid : entries.Agrees mid t := h t ht list hstores
  exact hmid.trans (h' t ht list (hstores.of_agrees hmid))

end MapCache

/-! ## §2. One read. -/

section Read

variable {s : Sources} {entries after : MapCache} {t : Target} {list : List Annotation}

/-- **A read that does not check keeps what is on record**, for its own target and
for any other. -/
theorem Sources.Course.retains {result : Except Error (List Annotation)}
    (h : Sources.Course s MapCache.keepAll false t entries (result, after))
    (ht : ¬ t.Bracketed) : entries.Retains after := by
  cases h with
  | trusted | verified | undated | uncomputed => exact .refl entries
  | refreshed dated computed outdated =>
      intro t' ht' list' hstores
      apply MapCache.agrees_recorded ht ht'
      -- A reader that does not check would not have refreshed what is on record.
      intro hkey
      have hresult : entries.result? t = some list' := by
        unfold MapCache.result?
        rw [← hkey]
        exact MapCache.stores_iff.1 hstores
      exact Bool.false_ne_true (outdated list' hresult).1

/-- **What such a read answers is on record afterwards.** -/
theorem Sources.Course.stores
    (h : Sources.Course s MapCache.keepAll false t entries (.ok list, after)) :
    after.Stores t list := by
  cases h with
  | trusted _ stored => exact MapCache.stores_iff.2 stored
  | verified checked => exact absurd checked Bool.false_ne_true
  | refreshed => exact MapCache.stores_recorded entries t list _

/-- Is every list in a memo on record? -/
def CachedReader.OnRecord (r : CachedReader) (entries : MapCache) : Prop :=
  ∀ t : Target, ¬ t.Bracketed → ∀ list,
    r.loaded.get? (CacheKey.ofTarget t).text = some list → entries.Stores t list

variable {r : CachedReader}

theorem CachedReader.OnRecord.retained (h : r.OnRecord entries) (hretains : entries.Retains after) :
    r.OnRecord after := by
  intro t ht list hloaded
  have hstores : entries.Stores t list := h t ht list hloaded
  exact hstores.of_agrees (hretains t ht list hstores)

/-- What is remembered besides is on record too. -/
theorem CachedReader.OnRecord.remember (h : r.OnRecord after)
    {result : Except Error (List Annotation)}
    (hresult : ∀ list, result = .ok list → after.Stores t list) :
    (r.remember t result).OnRecord after := by
  intro t' ht' list' hloaded
  rcases CachedReader.loaded_remember hloaded with ⟨hkey, hlist⟩ | hbefore
  · -- The memo is searched by key, so other spellings of the class find the list too.
    unfold MapCache.Stores
    rw [hkey]
    exact hresult list' hlist
  · exact h t' ht' list' hbefore

/-- A reader that does not check, and whose memo is on record. -/
structure CachedReader.Trusting (r : CachedReader) (entries : MapCache) : Prop where
  unchecking : r.checking = false
  onRecord : r.OnRecord entries

/-- **One read** of a trusting reader keeps what is on record, puts its own answer
there and leaves the reader trusting. -/
theorem CachedReader.Trusting.read (h : r.Trusting entries) (ht : ¬ t.Bracketed) (s : Sources) :
    ∃ result r' after,
      (r.read (s.beside (MapCache.store MapCache.keepAll)) t).run entries = ((result, r'), after)
        ∧ entries.Retains after ∧ (∀ list, result = .ok list → after.Stores t list)
        ∧ r'.Trusting after := by
  cases hloaded : r.loaded.get? (CacheKey.ofTarget t).text with
  | some list =>
      refine ⟨.ok list, r, entries, read_of_remembered hloaded, .refl entries, ?_, h⟩
      intro list' hlist'
      rw [← Except.ok.inj hlist']
      exact h.onRecord t ht list hloaded
  | none =>
      obtain ⟨result, after, hcourse, hrun⟩ := course_of_forgotten MapCache.keepAll s entries hloaded
      rw [h.unchecking] at hcourse
      have hretains : entries.Retains after := hcourse.retains ht
      have hstores : ∀ list, result = .ok list → after.Stores t list := by
        rintro list rfl
        exact hcourse.stores
      refine ⟨result, _, after, hrun, hretains, hstores, ?_, ?_⟩
      · cases result <;> exact h.unchecking
      · exact (h.onRecord.retained hretains).remember hstores

/-- **A read of what is on record** takes no more than one look-up of it. -/
theorem CachedReader.Trusting.read_stored (h : r.Trusting entries) (ht : ¬ t.Bracketed)
    (hstores : entries.Stores t list) (s : Sources) :
    ∃ r' made, (r.read (s.beside (MapCache.store MapCache.keepAll)).noting t).run (entries, [])
        = ((.ok list, r'), entries, made)
      ∧ (made = [] ∨ made = [.get (CacheKey.ofTarget t).text]) := by
  cases hloaded : r.loaded.get? (CacheKey.ofTarget t).text with
  | some list' =>
      have hstores' : entries.Stores t list' := h.onRecord t ht list' hloaded
      have hlist : list' = list := by
        have hvalue := Option.some.inj (hstores'.symm.trans hstores)
        exact CacheValue.annotations.inj hvalue
      refine ⟨r, [], ?_, .inl rfl⟩
      rw [read_of_remembered hloaded, hlist]
  | none => exact ⟨_, _, read_noting_of_stored h.unchecking hloaded hstores [], .inr rfl⟩

end Read

/-! ## §3. One event. -/

/-- What can happen to readers in a world that changes. -/
inductive Happening where
  /-- A reader is asked, with the types, times and underlying reader of the moment. -/
  | ask (reader : Nat) (sources : Sources) (request : Request)
  /-- A reader forgets what it remembers. -/
  | forget (reader : Nat)

/-- Nothing is asked of a class whose name begins as markers do. -/
def Happening.Unbracketed : Happening → Prop
  | ask _ _ q => ¬ q.target.Bracketed
  | forget _ => True

instance (x : Happening) : Decidable x.Unbracketed :=
  match x with
  | .ask _ _ q => inferInstanceAs (Decidable (¬ q.target.Bracketed))
  | .forget _ => .isTrue trivial

namespace Hall

/-- **A reader is asked and listened to**: its answer, the calls that it makes, and
the hall afterwards. -/
def consult (h : Hall) (i : Nat) (s : Sources) (q : Request) : (Answer × List Call) × Hall :=
  let ((answer, r), after, calls) :=
    ((h.readers i).asked (s.beside (MapCache.store MapCache.keepAll)).noting q).run (h.entries, [])
  ((answer, calls), { readers := replaced h.readers i r, entries := after })

/-- The hall after an event. -/
def next (h : Hall) : Happening → Hall
  | .ask i s q => (h.consult i s q).2
  | .forget i => { h with readers := replaced h.readers i (h.readers i).forget }

/-- **The hall after a run.** -/
def following (h : Hall) (run : List Happening) : Hall :=
  run.foldl next h

/-- **Every reader is trusting.** -/
def Trusting (h : Hall) : Prop :=
  ∀ i, (h.readers i).Trusting h.entries

theorem trusting_opened : (opened fun _ => false).Trusting := by
  intro i
  refine ⟨rfl, ?_⟩
  intro t ht list hloaded
  cases hloaded

variable {h : Hall} {t : Target} {list : List Annotation}

/-- What is kept on record keeps readers trusting, and another trusting one may
come in the place of one. -/
theorem Trusting.replaced (htrust : h.Trusting) {after : MapCache}
    (hretains : h.entries.Retains after) {r : CachedReader} (hr : r.Trusting after) (i : Nat) :
    Trusting { readers := Hall.replaced h.readers i r, entries := after } := by
  have hothers : ∀ j, (h.readers j).Trusting after :=
    fun j => ⟨(htrust j).unchecking, (htrust j).onRecord.retained hretains⟩
  exact forall_replaced (P := fun r => r.Trusting after) hothers hr i

/-- What comes of asking a reader is what comes of one read of the target. -/
theorem consult_eq {i : Nat} {s : Sources} {q : Request} {r : CachedReader} {after : MapCache}
    {result : Except Error (List Annotation)} {calls : List Call}
    (hread : ((h.readers i).read (s.beside (MapCache.store MapCache.keepAll)).noting q.target).run
      (h.entries, []) = ((result, r), after, calls)) :
    h.consult i s q
      = ((q.answerOf result, calls), { readers := Hall.replaced h.readers i r, entries := after }) := by
  unfold consult
  rw [CachedReader.run_asked hread]

/-- **Asking a reader** keeps what is on record and all readers trusting, and a list
that is answered is on record afterwards. -/
theorem Trusting.consult (htrust : h.Trusting) (i : Nat) (s : Sources) {q : Request}
    (hq : ¬ q.target.Bracketed) :
    ∃ result calls g, h.consult i s q = ((q.answerOf result, calls), g)
      ∧ h.entries.Retains g.entries ∧ (∀ list, result = .ok list → g.entries.Stores q.target list)
      ∧ g.Trusting := by
  obtain ⟨result, r, after, hread, hretains, hstores, hr⟩ := (htrust i).read hq s
  obtain ⟨made, hnoting⟩ := CachedReader.read_noting
    (s.beside (MapCache.store MapCache.keepAll)) (h.readers i) q.target h.entries []
  rw [hread] at hnoting
  exact ⟨result, made, _, consult_eq hnoting, hretains, hstores, htrust.replaced hretains hr i⟩

/-- **One event** keeps what is on record, and all readers trusting. -/
theorem Trusting.next (htrust : h.Trusting) {x : Happening} (hx : x.Unbracketed) :
    (h.next x).Trusting ∧ h.entries.Retains (h.next x).entries := by
  cases x with
  | ask i s q =>
      obtain ⟨result, calls, g, hconsult, hretains, -, hg⟩ := htrust.consult i s hx
      have hnext : h.next (.ask i s q) = g := by
        show (h.consult i s q).2 = g
        rw [hconsult]
      rw [hnext]
      exact ⟨hg, hretains⟩
  | forget i =>
      have hforgotten : (h.readers i).forget.Trusting h.entries :=
        ⟨(htrust i).unchecking, fun t _ list hloaded => by cases hloaded⟩
      exact ⟨htrust.replaced (.refl h.entries) hforgotten i, .refl h.entries⟩

/-! ## §4. Runs. -/

/-- **A run** keeps what is on record, and all readers trusting. -/
theorem Trusting.following {run : List Happening} : ∀ {h : Hall}, h.Trusting →
    (∀ x ∈ run, x.Unbracketed) →
      (h.following run).Trusting ∧ h.entries.Retains (h.following run).entries := by
  induction run with
  | nil => exact fun {h} htrust _ => ⟨htrust, .refl h.entries⟩
  | cons x run ih =>
      intro h htrust hrun
      obtain ⟨hx, hrest⟩ := List.forall_mem_cons.1 hrun
      obtain ⟨hnext, hretains⟩ := htrust.next hx
      obtain ⟨hafter, hretained⟩ := ih hnext hrest
      exact ⟨hafter, hretains.trans hretained⟩

end Hall

/-- **What is trusted is written once.**  Readers that check nothing are asked
anything, over a map that was empty, while types, times and underlying readers
change.  Once a read of a target has answered a list, its two entries stay as they
are whatever comes, and every later read of it gives that list, by any reader,
with at most a look-up of that list. -/
theorem trusted_for_good {before later : List Happening}
    (hbefore : ∀ x ∈ before, x.Unbracketed) (hlater : ∀ x ∈ later, x.Unbracketed)
    {i : Nat} {s : Sources} {t : Target} {list : List Annotation} {calls : List Call} {h : Hall}
    (ht : ¬ t.Bracketed)
    (hread : ((Hall.opened fun _ => false).following before).consult i s (.all t)
      = ((.all (.ok list), calls), h)) :
    h.entries.Stores t list
      ∧ h.entries.Agrees (h.following later).entries t
      ∧ ∀ j s' q, q.target.SameElement t →
          ∃ made, ((h.following later).consult j s' q).1 = (q.answerOf (.ok list), made)
            ∧ (made = [] ∨ made = [.get (CacheKey.ofTarget t).text]) := by
  obtain ⟨hstart, -⟩ := Hall.trusting_opened.following hbefore
  obtain ⟨result, calls', g, hconsult, -, hstores, hg⟩ := hstart.consult i s (q := .all t) ht
  rw [hread] at hconsult
  obtain ⟨hanswer, rfl⟩ := Prod.mk.inj hconsult
  have hresult : result = .ok list :=
    (Answer.all.inj (Prod.mk.inj hanswer).1).symm
  have hstored : h.entries.Stores t list := hstores list hresult
  obtain ⟨hafter, hretains⟩ := hg.following hlater
  have hagrees : h.entries.Agrees (h.following later).entries t := hretains t ht list hstored
  refine ⟨hstored, hagrees, ?_⟩
  intro j s' q hsame
  have hkey : CacheKey.ofTarget q.target = CacheKey.ofTarget t :=
    CacheKey.ofTarget_eq_of_sameElement hsame
  have hfound : (h.following later).entries.Stores q.target list := by
    unfold MapCache.Stores
    rw [hkey]
    exact hstored.of_agrees hagrees
  have hq : ¬ q.target.Bracketed := fun hbracketed => ht (hsame.bracketed_iff.1 hbracketed)
  obtain ⟨r', made, hrun, hmade⟩ := (hafter j).read_stored hq hfound s'
  rw [hkey] at hmade
  refine ⟨made, ?_, hmade⟩
  rw [Hall.consult_eq hrun]

/-- The page is read by one reader, and then one of its methods by another one. -/
def openingReads : Hall :=
  ((Hall.opened fun _ => false).following
    [.ask 1 (routing.sources []) (.all (.ofClass "App\\Page"))]).consult 0 (routing.sources [])
      (.all (.ofMethod "App\\Page" "index")) |>.2

/-- The trait is changed that the method comes from, and both readers forget. -/
def laterReads : List Happening :=
  [.forget 0, .forget 1, .ask 1 (templating.sources []) (.all (.ofMethod "\\App\\Page" "index"))]

theorem trusted_for_good_of_changedTrait :
    (∀ x ∈ laterReads, x.Unbracketed)
      ∧ openingReads.entries.Stores (.ofMethod "App\\Page" "index") [{ name := "Route" }]
      ∧ (templating.sources []).compute (.ofMethod "App\\Page" "index")
          = .ok [{ name := "Template" }]
      ∧ ((openingReads.following laterReads).consult 2 (templating.sources [])
          (.first (.ofMethod "\\App\\Page" "index") "Route")).1.1
            = .first (.ok (some { name := "Route" })) := by
  have hbefore : ∀ x ∈ [Happening.ask 1 (routing.sources []) (.all (.ofClass "App\\Page"))],
      x.Unbracketed := by decide
  have hlater : ∀ x ∈ laterReads, x.Unbracketed := by decide
  have hread : ((Hall.opened fun _ => false).following
      [.ask 1 (routing.sources []) (.all (.ofClass "App\\Page"))]).consult 0 (routing.sources [])
        (.all (.ofMethod "App\\Page" "index"))
      = ((.all (.ok [{ name := "Route" }]), _), openingReads) := Prod.ext (Prod.ext rfl rfl) rfl
  obtain ⟨hstores, -, hanswers⟩ := trusted_for_good hbefore hlater
    (t := .ofMethod "App\\Page" "index") (by decide) hread
  obtain ⟨made, hanswer, -⟩ := hanswers 2 (templating.sources [])
    (.first (.ofMethod "\\App\\Page" "index") "Route") ⟨rfl, rfl⟩
  have hchanged : (templating.sources []).compute (.ofMethod "App\\Page" "index")
      = .ok [{ name := "Template" }] := rfl
  have hfirst : (Request.first (.ofMethod "\\App\\Page" "index") "Route").answerOf
      (.ok [{ name := "Route" }]) = .first (.ok (some { name := "Route" })) := rfl
  rw [hanswer]
  exact ⟨hlater, hstores, hchanged, hfirst⟩

end AnnotationCache

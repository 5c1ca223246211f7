/-
  AnnotationCache.Proofs.Reading.Standstill
  ─────────────────────────────────────────
  **READING WHILE THE WORLD STANDS STILL.**

  Any number of readers share one map that keeps every write; some check what
  is stored and some do not, and each has a memo of its own.  They are asked
  for annotations in any order, forget what they remember, and lose entries of
  the map.  As long as the world does not change, none of this shows: every
  answer is the one that a reader without a cache would give.

  The invariant is that all lists on record and in memos are true
  (`Hall.Truthful`).  It says nothing of markers: where they are lost or
  overwritten a result is computed again, and gives the same.

  Main statements:
    * `read_truthful`      — one read answers the truth, and leaves all lists true;
    * `Hall.step_truthful` — one event leaves all lists true;
    * `answers_eq_replies` — the answers of a run are those of no cache at all.
-/
import AnnotationCache.Proofs.Reading.World

namespace AnnotationCache

/-! ## §1. Requests and their answers. -/

/-- What is asked of a reader. -/
inductive Request where
  /-- All annotations of a target. -/
  | all (target : Target)
  /-- The first annotation of a target that goes by a name. -/
  | first (target : Target) (name : String)
  deriving Repr, DecidableEq

/-- What a reader answers. -/
inductive Answer where
  | all (result : Except Error (List Annotation))
  | first (result : Except Error (Option Annotation))

namespace Request

/-- The target that is asked of. -/
def target : Request → Target
  | all t => t
  | first t _ => t

/-- The answer of a reader that has no cache. -/
def direct (r : DeclaredReader) : Request → Answer
  | all t => .all (r.read t)
  | first t name => .first (r.readFirst t name)

/-- The answer that is a failure. -/
def failed (e : Error) : Request → Answer
  | all _ => .all (.error e)
  | first _ _ => .first (.error e)

/-- The answer that is taken from the annotations of the target. -/
def answerOf (result : Except Error (List Annotation)) : Request → Answer
  | all _ => .all result
  | first _ name => .first (result.map fun list => Annotation.firstNamed list name)

end Request

/-- **The answer to a request in a world**: what is declared there, or the
failure to date the class. -/
def World.answer (w : World) (ignored : List String) (q : Request) : Answer :=
  match w.lastModification q.target.className with
  | .ok _ => q.direct (w.declared ignored)
  | .error e => q.failed e

theorem Request.direct_eq_answerOf (q : Request) (r : DeclaredReader) :
    q.direct r = q.answerOf (r.read q.target) := by
  cases q with
  | all t => rfl
  | first t name =>
      show Answer.first (r.read t >>= fun list => pure <| Annotation.firstNamed list name)
        = Answer.first ((r.read t).map fun list => Annotation.firstNamed list name)
      cases r.read t <;> rfl

theorem World.answer_eq_answerOf (w : World) (ignored : List String) (q : Request) :
    w.answer ignored q = q.answerOf (w.truth ignored q.target) := by
  unfold World.answer World.truth Sources.truth
  rw [show (w.sources ignored).latest = w.lastModification from rfl]
  cases w.lastModification q.target.className with
  | ok _ => exact q.direct_eq_answerOf (w.declared ignored)
  | error e => cases q <;> rfl

/-- **Asks a reader**, and gives the reader as it is afterwards. -/
def CachedReader.asked {m : Type → Type} [Monad m] (c : Dialogue.Collaborators m)
    (r : CachedReader) : Request → m (Answer × CachedReader)
  | .all t => do
      let (result, r) ← r.read c t
      return (.all result, r)
  | .first t name => do
      let (result, r) ← r.readFirst c t name
      return (.first result, r)

/-- What is asked of a reader is taken from one read of the target. -/
theorem CachedReader.run_asked {σ : Type} {c : Dialogue.Collaborators (StateM σ)}
    {r r' : CachedReader} {q : Request} {state after : σ}
    {result : Except Error (List Annotation)}
    (h : (r.read c q.target).run state = ((result, r'), after)) :
    (r.asked c q).run state = ((q.answerOf result, r'), after) := by
  cases q with
  | all t =>
      unfold asked
      rw [StateT.run_bind, show (r.read c t).run state = _ from h]
      rfl
  | first t name =>
      have hfirst : (r.readFirst c t name).run state
          = ((result.map fun list => Annotation.firstNamed list name, r'), after) := by
        unfold readFirst
        rw [StateT.run_bind, show (r.read c t).run state = _ from h]
        rfl
      unfold asked
      rw [StateT.run_bind, hfirst]
      rfl

/-! ## §2. One read. -/

/-- Every list on record is true. -/
def MapCache.Truthful (w : World) (ignored : List String) (entries : MapCache) : Prop :=
  ∀ t : Target, t.Plain → ∀ list, entries.result? t = some list → w.truth ignored t = .ok list

/-- Every list in a memo is true. -/
def CachedReader.Truthful (w : World) (ignored : List String) (r : CachedReader) : Prop :=
  ∀ t : Target, t.Plain → ∀ list, r.loaded.get? (CacheKey.ofTarget t).text = some list →
    w.truth ignored t = .ok list

variable {w : World} {ignored : List String} {entries after : MapCache} {t : Target}

/-- A read over true lists leaves true lists. -/
theorem Sources.Course.truthful {checking : Bool} {result : Except Error (List Annotation)}
    (h : Course (w.sources ignored) MapCache.keepAll checking t entries (result, after))
    (ht : t.Plain) (htrue : entries.Truthful w ignored) : after.Truthful w ignored := by
  cases h with
  | trusted | verified | undated | uncomputed => exact htrue
  | @refreshed current list dated computed =>
      intro t' ht' list' hstored
      rcases MapCache.result?_recorded hstored with ⟨hkey, rfl⟩ | ⟨-, hbefore⟩
      · -- The entry that was just written, under the key of another spelling.
        rw [World.truth_eq_of_ofTarget_eq ht' ht hkey w ignored]
        exact (Sources.truth_of_dated _ dated).trans computed
      · exact htrue t' ht' list' hbefore

theorem CachedReader.Truthful.remember {r : CachedReader} (htrue : r.Truthful w ignored)
    (ht : t.Plain) : (r.remember t (w.truth ignored t)).Truthful w ignored := by
  intro t' ht' list' hloaded
  rcases CachedReader.loaded_remember hloaded with ⟨hkey, hresult⟩ | hbefore
  · -- The memo is searched by key, so other spellings of the class find the list too.
    rw [World.truth_eq_of_ofTarget_eq ht' ht (congrArg CacheKey.mk hkey) w ignored, hresult]
  · exact htrue t' ht' list' hbefore

/-- **One read answers the truth**, and leaves everything true. -/
theorem read_truthful {r : CachedReader} (hentries : entries.Truthful w ignored)
    (hreader : r.Truthful w ignored) (ht : t.Plain) :
    ∃ r' after, (r.read (w.readers ignored) t).run entries = ((w.truth ignored t, r'), after)
      ∧ r'.Truthful w ignored ∧ after.Truthful w ignored := by
  rw [w.readers_eq_beside]
  cases hloaded : r.loaded.get? (CacheKey.ofTarget t).text with
  | some list =>
      refine ⟨r, entries, ?_, hreader, hentries⟩
      rw [CachedReader.read_of_remembered hloaded, hreader t ht list hloaded]
  | none =>
      obtain ⟨result, after, hcourse, hrun⟩ :=
        CachedReader.course_of_forgotten MapCache.keepAll (w.sources ignored) entries hloaded
      have hresult : result = w.truth ignored t :=
        hcourse.eq_truth fun list hstored _ => hentries t ht list hstored
      subst hresult
      exact ⟨_, after, hrun, hreader.remember ht, hcourse.truthful ht hentries⟩

/-! ## §3. Many readers. -/

/-- Readers by number, and the map that they share. -/
structure Hall where
  readers : Nat → CachedReader
  entries : MapCache

/-- What can happen while the world stands still. -/
inductive Visit where
  /-- A reader is asked. -/
  | ask (reader : Nat) (request : Request)
  /-- A reader forgets what it remembers. -/
  | forget (reader : Nat)
  /-- An entry of the map is lost. -/
  | drop (key : String)
  deriving Repr, DecidableEq

/-- A request is plain if its target is, and so are the other events. -/
def Visit.Plain : Visit → Prop
  | ask _ q => q.target.Plain
  | forget _ => True
  | drop _ => True

instance (v : Visit) : Decidable v.Plain :=
  match v with
  | .ask _ q => inferInstanceAs (Decidable q.target.Plain)
  | .forget _ => .isTrue trivial
  | .drop _ => .isTrue trivial

namespace Hall

/-- Readers that have returned nothing, each checking or not, and an empty map. -/
def opened (checking : Nat → Bool) : Hall where
  readers i := .opened (checking i)
  entries := Dict.empty

/-- The readers, with another one in the place of one. -/
def replaced (readers : Nat → CachedReader) (i : Nat) (r : CachedReader) : Nat → CachedReader :=
  fun j => if j = i then r else readers j

theorem replaced_self (readers : Nat → CachedReader) (i : Nat) (r : CachedReader) :
    replaced readers i r i = r :=
  if_pos rfl

theorem replaced_of_ne {i j : Nat} (readers : Nat → CachedReader) (r : CachedReader)
    (h : j ≠ i) : replaced readers i r j = readers j :=
  if_neg h

/-- What holds of readers and of another one holds of the readers with it among them. -/
theorem forall_replaced {P : CachedReader → Prop} {readers : Nat → CachedReader} {r : CachedReader}
    (hreaders : ∀ j, P (readers j)) (hr : P r) (i j : Nat) : P (replaced readers i r j) := by
  unfold replaced
  split
  · exact hr
  · exact hreaders j

/-- **A reader is asked**: its answer, and the hall afterwards. -/
def ask (w : World) (ignored : List String) (h : Hall) (i : Nat) (q : Request) : Answer × Hall :=
  let ((answer, r), after) := ((h.readers i).asked (w.readers ignored) q).run h.entries
  (answer, { readers := replaced h.readers i r, entries := after })

/-- **One event**: the answer, if there is one, and the hall afterwards. -/
def step (w : World) (ignored : List String) (h : Hall) : Visit → Option Answer × Hall
  | .ask i q => ((h.ask w ignored i q).1, (h.ask w ignored i q).2)
  | .forget i => (none, { h with readers := replaced h.readers i (h.readers i).forget })
  | .drop key => (none, { h with entries := h.entries.erase key })

/-- **The answers of a run**, in order. -/
def answers (w : World) (ignored : List String) : Hall → List Visit → List Answer
  | _, [] => []
  | h, v :: visits => (h.step w ignored v).1.toList ++ answers w ignored (h.step w ignored v).2 visits

/-- Every list that is on record or remembered in a hall is true. -/
structure Truthful (w : World) (ignored : List String) (h : Hall) : Prop where
  readers : ∀ i, (h.readers i).Truthful w ignored
  entries : h.entries.Truthful w ignored

theorem truthful_opened (w : World) (ignored : List String) (checking : Nat → Bool) :
    (opened checking).Truthful w ignored where
  readers i t _ list h := by cases h
  entries t _ list h := by cases h

variable {h : Hall}

/-- A reader that is asked answers what there is to read. -/
theorem ask_truthful (htrue : h.Truthful w ignored) (i : Nat) {q : Request}
    (hq : q.target.Plain) :
    (h.ask w ignored i q).1 = w.answer ignored q ∧ (h.ask w ignored i q).2.Truthful w ignored := by
  obtain ⟨r', after, hrun, hreader, hafter⟩ :=
    read_truthful htrue.entries (htrue.readers i) hq
  unfold ask
  rw [CachedReader.run_asked hrun, w.answer_eq_answerOf]
  exact ⟨rfl, forall_replaced htrue.readers hreader i, hafter⟩

/-- **One event** leaves everything true. -/
theorem step_truthful (htrue : h.Truthful w ignored) {v : Visit} (hv : v.Plain) :
    (h.step w ignored v).2.Truthful w ignored := by
  cases v with
  | ask i q => exact (ask_truthful htrue i hv).2
  | forget i =>
      have hforgotten : (h.readers i).forget.Truthful w ignored := fun t _ list hloaded => by
        cases hloaded
      exact ⟨forall_replaced htrue.readers hforgotten i, htrue.entries⟩
  | drop key =>
      exact ⟨htrue.readers, fun t ht list hstored =>
        htrue.entries t ht list (MapCache.result?_of_erase hstored)⟩

end Hall

/-- The answer to an event in a world, if it is a request. -/
def World.reply (w : World) (ignored : List String) : Visit → Option Answer
  | .ask _ q => some (w.answer ignored q)
  | .forget _ => none
  | .drop _ => none

theorem Hall.Truthful.reply {h : Hall} (htrue : h.Truthful w ignored) {v : Visit}
    (hv : v.Plain) : (h.step w ignored v).1 = w.reply ignored v := by
  cases v with
  | ask i q => exact congrArg some (Hall.ask_truthful htrue i hv).1
  | forget i => rfl
  | drop key => rfl

/-- A run from a truthful hall answers as a run without a cache would. -/
theorem Hall.Truthful.answers {visits : List Visit} : ∀ {h : Hall}, h.Truthful w ignored →
    (∀ v ∈ visits, v.Plain) →
      h.answers w ignored visits = visits.filterMap (w.reply ignored) := by
  induction visits with
  | nil => intro h _ _; rfl
  | cons v visits ih =>
      intro h htrue hplain
      obtain ⟨hv, hrest⟩ := List.forall_mem_cons.1 hplain
      unfold Hall.answers
      rw [htrue.reply hv, ih (Hall.step_truthful htrue hv) hrest, List.filterMap_cons]
      cases w.reply ignored v <;> rfl

/-- **Caching is transparent while the world stands still**: over a run of any
events, every request is answered as it would be without a cache. -/
theorem answers_eq_replies (w : World) (ignored : List String) (checking : Nat → Bool)
    (visits : List Visit) (hplain : ∀ v ∈ visits, v.Plain) :
    (Hall.opened checking).answers w ignored visits = visits.filterMap (w.reply ignored) :=
  (Hall.truthful_opened w ignored checking).answers hplain

/-- A class, and one whose key is that of the first one's marker. -/
def bracketed : Types.Registry :=
  ⟨(Dict.empty.insert "A" { name := "A", annotations := [{ name := "Route" }] }).insert "[C]A"
    { name := "[C]A", annotations := [{ name := "Table" }] }⟩

theorem wellFormed_bracketed : bracketed.WellFormed := by
  have hregistry : Types.Registry.ofTypes
      [{ name := "A", annotations := [{ name := "Route" }] },
        { name := "[C]A", annotations := [{ name := "Table" }] }] = .ok bracketed := rfl
  exact Types.Registry.wellFormed_ofTypes hregistry

/-- A world with these two classes, both of the same age. -/
def bracketedWorld : World where
  registry := bracketed
  wellFormed := wellFormed_bracketed
  time _ := 7
  fault _ := none

/-- Two readers get into each other's way as far as they can. -/
def crossing : List Visit :=
  [.ask 0 (.all (.ofClass "A")), .ask 1 (.all (.ofClass "[C]A")), .forget 0,
    .ask 0 (.first (.ofClass "\\A") "Route"), .drop "A", .ask 1 (.all (.ofMethod "A" "index"))]

theorem answers_of_crossing :
    (∀ v ∈ crossing, v.Plain)
      ∧ (Hall.opened fun i => i == 0).answers bracketedWorld [] crossing
        = [.all (.ok [{ name := "Route" }]), .all (.ok [{ name := "Table" }]),
            .first (.ok (some { name := "Route" })),
            .all (.error (.methodNotFound "A" "index"))] := by
  have hplain : ∀ v ∈ crossing, v.Plain := by decide
  refine ⟨hplain, ?_⟩
  rw [answers_eq_replies bracketedWorld [] _ crossing hplain]
  rfl

end AnnotationCache

/-
  AnnotationCache.Proofs.Reading.Memo
  ───────────────────────────────────
  **WHAT A READER REMEMBERS, AND HOW LONG.**

  Readers share a world in which anything may change between two reads: what the
  cache holds, the times, the types, what the underlying reader answers.  Each
  read may even find other collaborators, and any of them may fail.  Every read is
  written down, with all the calls that it made.

  The invariant is that a memo is what the notes say (`get?_loaded_run`): under
  each key it has the first list that the reader has returned under it since it was
  last cleared.  What is remembered is returned without a call; what is not is
  asked for as a reader does that has returned nothing yet.

  Main statements:
    * `get?_loaded_read`           — one read adds its list to a memo, if it has one;
    * `Shared.get?_loaded_step`    — one incident adds to a memo what its notes say;
    * `Shared.get?_loaded_run`     — so does a run;
    * `memo_stable_between_clears` — the first list is the one that all reads
                                     return, until the memo is cleared.
-/
import AnnotationCache.Proofs.Reading.Calls
import AnnotationCache.Proofs.Reading.Standstill

namespace AnnotationCache

variable {σ : Type}

/-! ## §1. One read. -/

namespace CachedReader

variable (c : Dialogue.Collaborators (StateM σ)) (r : CachedReader) (t : Target)

/-- **A read adds its list to the memo**, unless there is one under the key. -/
theorem get?_loaded_read (state : σ) (key : String) :
    ((r.read c t).run state).1.2.loaded.get? key
      = (r.loaded.get? key).or (if (CacheKey.ofTarget t).text = key then
          ((r.read c t).run state).1.1.toOption else none) := by
  cases hloaded : r.loaded.get? (CacheKey.ofTarget t).text with
  | some list =>
      rw [read_of_remembered hloaded]
      by_cases hkey : (CacheKey.ofTarget t).text = key
      · subst hkey
        rw [hloaded]
        rfl
      · rw [if_neg hkey, Option.or_none]
  | none =>
      cases hrun : ((Dialogue.cachedRead r.checking t).run c).run.run state with
      | mk result after =>
          rw [read_of_forgotten hloaded hrun]
          cases result with
          | error e =>
              show r.loaded.get? key = (r.loaded.get? key).or (ite _ none none)
              rw [ite_self, Option.or_none]
          | ok list =>
              show (r.loaded.insert (CacheKey.ofTarget t).text list).get? key
                = (r.loaded.get? key).or (ite _ (some list) none)
              rw [Dict.get?_insert]
              by_cases hkey : (CacheKey.ofTarget t).text = key
              · subst hkey
                rw [if_pos rfl, if_pos rfl, hloaded]
                rfl
              · rw [if_neg (Ne.symm hkey), if_neg hkey, Option.or_none]

variable {r t}

/-- **A list that was returned is in the memo afterwards.** -/
theorem loaded_of_read_ok {state after : σ} {r' : CachedReader} {list : List Annotation}
    (h : (r.read c t).run state = ((.ok list, r'), after)) :
    r'.loaded.get? (CacheKey.ofTarget t).text = some list := by
  cases hloaded : r.loaded.get? (CacheKey.ofTarget t).text with
  | some known =>
      rw [read_of_remembered hloaded] at h
      cases h
      exact hloaded
  | none =>
      have hmemo := get?_loaded_read c r t state (CacheKey.ofTarget t).text
      rw [h, hloaded, if_pos rfl] at hmemo
      exact hmemo

/-- **What is not remembered is read as by a reader that has returned nothing yet**:
with the same result, the same world afterwards and the same calls. -/
theorem read_eq_opened (h : r.loaded.get? (CacheKey.ofTarget t).text = none) (state : σ) :
    ((r.read c t).run state).1.1 = (((opened r.checking).read c t).run state).1.1
      ∧ ((r.read c t).run state).2 = (((opened r.checking).read c t).run state).2 := by
  have hopened : (opened r.checking).loaded.get? (CacheKey.ofTarget t).text = none := rfl
  cases hrun : ((Dialogue.cachedRead r.checking t).run c).run.run state with
  | mk result after =>
      rw [read_of_forgotten h hrun, read_of_forgotten hopened hrun]
      exact ⟨rfl, rfl⟩

/-- **Such a read asks the cache for the result first.** -/
theorem calls_of_forgotten (h : r.loaded.get? (CacheKey.ofTarget t).text = none) (state : σ) :
    ∃ made, ((r.read c.noting t).run (state, [])).2.2
      = .get (CacheKey.ofTarget t).text :: made := by
  have hget : (c.noting.get (CacheKey.ofTarget t).text).run.run (state, [])
      = (((c.get (CacheKey.ofTarget t).text).run.run state).1,
          ((c.get (CacheKey.ofTarget t).text).run.run state).2,
          [.get (CacheKey.ofTarget t).text]) := rfl
  cases hrun : ((Dialogue.cachedRead r.checking t).run c.noting).run.run (state, []) with
  | mk result after =>
      rw [read_of_forgotten h hrun]
      unfold Dialogue.cachedRead at hrun
      rw [Dialogue.run] at hrun
      cases hanswer : ((c.get (CacheKey.ofTarget t).text).run.run state).1 with
      | error e =>
          rw [hanswer] at hget
          rw [run_bind_error hget] at hrun
          exact ⟨[], congrArg (·.2.2) hrun.symm⟩
      | ok stored =>
          rw [hanswer] at hget
          rw [run_bind_ok hget] at hrun
          obtain ⟨made, hmade⟩ := echoes_run c _ _ [Call.get (CacheKey.ofTarget t).text]
          exact ⟨made, congrArg (·.2.2) (hrun.symm.trans hmade)⟩

end CachedReader

/-! ## §2. Runs, and what is written down. -/

/-- Readers by number, and the world that they share: the cache, and all that the
others answer from. -/
structure Shared (σ : Type) where
  readers : Nat → CachedReader
  world : σ

/-- What was read, how that ended, and whom it called. -/
structure Note where
  reader : Nat
  target : Target
  result : Except Error (List Annotation)
  calls : List Call

/-- The list that a reader has returned under a key, by a note. -/
def Note.returned? (i : Nat) (key : String) (n : Note) : Option (List Annotation) :=
  if n.reader = i ∧ (CacheKey.ofTarget n.target).text = key then n.result.toOption else none

/-- **The first list that a reader has returned under a key.** -/
def firstReturned (i : Nat) (key : String) (log : List Note) : Option (List Annotation) :=
  log.findSome? (Note.returned? i key)

/-- What can happen among readers that share a world. -/
inductive Incident (σ : Type) where
  /-- A reader is asked, and turns to whoever is there. -/
  | read (reader : Nat) (company : Dialogue.Collaborators (StateM σ)) (t : Target)
  /-- A reader forgets what it remembers. -/
  | forget (reader : Nat)
  /-- The world changes. -/
  | change (f : σ → σ)

namespace Incident

/-- Is this a request to a reader? -/
def Asks (i : Nat) : Incident σ → Prop
  | read j _ _ => j = i
  | forget _ => False
  | change _ => False

/-- Is a reader's memo cleared? -/
def Clears (i : Nat) : Incident σ → Prop
  | read _ _ _ => False
  | forget j => j = i
  | change _ => False

end Incident

namespace Shared

/-- **A reader is asked**: the note of it, and what is shared afterwards. -/
def read (s : Shared σ) (i : Nat) (c : Dialogue.Collaborators (StateM σ)) (t : Target) :
    Note × Shared σ :=
  let outcome := ((s.readers i).read c.noting t).run (s.world, [])
  ({ reader := i, target := t, result := outcome.1.1, calls := outcome.2.2 },
    { readers := Hall.replaced s.readers i outcome.1.2, world := outcome.2.1 })

/-- A reader forgets what it remembers. -/
def forget (s : Shared σ) (i : Nat) : Shared σ :=
  { s with readers := Hall.replaced s.readers i (s.readers i).forget }

/-- **One incident**: the notes of it, and what is shared afterwards. -/
def step (s : Shared σ) : Incident σ → List Note × Shared σ
  | .read i c t => ([(s.read i c t).1], (s.read i c t).2)
  | .forget i => ([], s.forget i)
  | .change f => ([], { s with world := f s.world })

/-- **A run**: the notes of all its incidents, in order. -/
def run (s : Shared σ) : List (Incident σ) → List Note × Shared σ
  | [] => ([], s)
  | e :: events => ((s.step e).1 ++ ((s.step e).2.run events).1, ((s.step e).2.run events).2)

/-! ## §3. A memo is what the notes say. -/

variable {s : Shared σ} {i : Nat} {e : Incident σ} {events : List (Incident σ)}

/-- **One incident adds to a memo what its notes say.** -/
theorem get?_loaded_step (hkept : ¬ e.Clears i) (key : String) :
    ((s.step e).2.readers i).loaded.get? key
      = ((s.readers i).loaded.get? key).or (firstReturned i key (s.step e).1) := by
  cases e with
  | change f => exact Option.or_none.symm
  | forget j =>
      show ((s.forget j).readers i).loaded.get? key = ((s.readers i).loaded.get? key).or none
      rw [Option.or_none]
      exact congrArg (·.loaded.get? key) (Hall.replaced_of_ne _ _ (Ne.symm hkept))
  | read j c t =>
      show (Hall.replaced s.readers j _ i).loaded.get? key
        = ((s.readers i).loaded.get? key).or (firstReturned i key [(s.read j c t).1])
      rw [firstReturned, List.findSome?_singleton, Note.returned?]
      by_cases hreader : i = j
      · subst hreader
        rw [Hall.replaced_self]
        refine (CachedReader.get?_loaded_read c.noting (s.readers i) t (s.world, []) key).trans ?_
        simp only [read, true_and]
      · rw [Hall.replaced_of_ne _ _ hreader, if_neg (fun h => hreader h.1.symm), Option.or_none]

/-- **So does a run** in which the memo is not cleared. -/
theorem get?_loaded_run (hkept : ∀ e ∈ events, ¬ e.Clears i) (key : String) :
    ((s.run events).2.readers i).loaded.get? key
      = ((s.readers i).loaded.get? key).or (firstReturned i key (s.run events).1) := by
  induction events generalizing s with
  | nil => exact Option.or_none.symm
  | cons e events ih =>
      obtain ⟨he, hrest⟩ := List.forall_mem_cons.1 hkept
      rw [run, ih hrest, get?_loaded_step he, Option.or_assoc, firstReturned, firstReturned,
        firstReturned, List.findSome?_append]

/-- A list that is written down is in the memo afterwards. -/
theorem loaded_of_mem_step {n : Note} (hn : n ∈ (s.step e).1) (hreader : n.reader = i)
    {list : List Annotation} (hok : n.result = .ok list) :
    ((s.step e).2.readers i).loaded.get? (CacheKey.ofTarget n.target).text = some list := by
  cases e with
  | change f => cases hn
  | forget j => cases hn
  | read j c t =>
      obtain rfl := List.mem_singleton.1 hn
      obtain rfl : j = i := hreader
      show (Hall.replaced s.readers j _ j).loaded.get? (CacheKey.ofTarget t).text = some list
      rw [Hall.replaced_self]
      exact CachedReader.loaded_of_read_ok c.noting
        (Prod.ext (Prod.ext (show (s.read j c t).1.result = _ from hok) rfl) rfl)

/-- **A list that a run has written down is in the memo at its end**, unless the memo
is cleared. -/
theorem loaded_of_mem_run (hkept : ∀ e ∈ events, ¬ e.Clears i) {n : Note}
    (hn : n ∈ (s.run events).1) (hreader : n.reader = i) {list : List Annotation}
    (hok : n.result = .ok list) :
    ((s.run events).2.readers i).loaded.get? (CacheKey.ofTarget n.target).text = some list := by
  induction events generalizing s with
  | nil => cases hn
  | cons e events ih =>
      obtain ⟨he, hrest⟩ := List.forall_mem_cons.1 hkept
      rcases List.mem_append.1 hn with hfirst | hlater
      · -- What was remembered after the first incident stays.
        rw [run, get?_loaded_run hrest, loaded_of_mem_step hfirst hreader hok]
        rfl
      · exact ih hrest hlater

/-! ## §4. The next read. -/

variable {t : Target}

/-- **What is remembered is returned**: nobody is called and nothing changes. -/
theorem read_remembered {list : List Annotation}
    (h : (s.readers i).loaded.get? (CacheKey.ofTarget t).text = some list)
    (c : Dialogue.Collaborators (StateM σ)) :
    s.read i c t = (⟨i, t, .ok list, []⟩, s) := by
  have hsame : Hall.replaced s.readers i (s.readers i) = s.readers := by
    funext j
    by_cases hj : j = i
    · rw [hj, Hall.replaced_self]
    · exact Hall.replaced_of_ne _ _ hj
  rw [read, CachedReader.read_of_remembered h]
  exact congrArg (fun readers => (_, (⟨readers, s.world⟩ : Shared σ))) hsame

/-- **What is not remembered is asked for afresh.** -/
theorem read_forgotten (h : (s.readers i).loaded.get? (CacheKey.ofTarget t).text = none)
    (c : Dialogue.Collaborators (StateM σ)) :
    ∃ result after made,
      (((CachedReader.opened (s.readers i).checking).read c.noting t).run (s.world, [])).1.1 = result
        ∧ (((CachedReader.opened (s.readers i).checking).read c.noting t).run (s.world, [])).2
            = (after, .get (CacheKey.ofTarget t).text :: made)
        ∧ (s.read i c t).1 = ⟨i, t, result, .get (CacheKey.ofTarget t).text :: made⟩
        ∧ (s.read i c t).2.world = after := by
  obtain ⟨hresult, hafter⟩ := CachedReader.read_eq_opened c.noting h (s.world, [])
  obtain ⟨made, hcalls⟩ := CachedReader.calls_of_forgotten c h s.world
  refine ⟨_, _, made, hresult.symm, Prod.ext rfl ?_, ?_, congrArg Prod.fst hafter⟩
  · rw [← hafter]
    exact hcalls
  · rw [← hcalls]
    rfl

/-! ## §5. Clearing a memo. -/

/-- Are these the same but for what one reader remembers? -/
structure AlikeBut (i : Nat) (s s' : Shared σ) : Prop where
  world : s'.world = s.world
  others : ∀ j, j ≠ i → s'.readers j = s.readers j

theorem alikeBut_forget (s : Shared σ) (i : Nat) : AlikeBut i s (s.forget i) where
  world := rfl
  others _ hj := Hall.replaced_of_ne _ _ hj

namespace AlikeBut

variable {s' : Shared σ}

/-- Putting the same reader among both leaves them alike. -/
theorem replaced_eq (h : AlikeBut i s s') {k j : Nat} {r r' : CachedReader} (hj : j ≠ i)
    (hr : j = k → r' = r) : Hall.replaced s'.readers k r' j = Hall.replaced s.readers k r j := by
  unfold Hall.replaced
  split
  next hjk => exact hr hjk
  next => exact h.others j hj

/-- **One incident** does not tell them apart, unless that reader is asked. -/
theorem step (h : AlikeBut i s s') (he : ¬ e.Asks i) :
    (s'.step e).1 = (s.step e).1 ∧ AlikeBut i (s.step e).2 (s'.step e).2 := by
  cases e with
  | change f => exact ⟨rfl, congrArg f h.world, h.others⟩
  | forget k =>
      refine ⟨rfl, h.world, fun j hj => h.replaced_eq hj ?_⟩
      rintro rfl
      rw [h.others j hj]
  | read k c t =>
      have hread : ((s'.readers k).read c.noting t).run (s'.world, [])
          = ((s.readers k).read c.noting t).run (s.world, []) := by
        rw [h.others k he, h.world]
      refine ⟨?notes, congrArg (·.2.1) hread, fun j hj => h.replaced_eq hj fun _ => ?memo⟩
      case notes =>
        show [(s'.read k c t).1] = [(s.read k c t).1]
        rw [Shared.read, Shared.read, hread]
      case memo => exact congrArg (·.1.2) hread

/-- **Nor does a run.** -/
theorem run (h : AlikeBut i s s') (hunasked : ∀ e ∈ events, ¬ e.Asks i) :
    (s'.run events).1 = (s.run events).1 ∧ AlikeBut i (s.run events).2 (s'.run events).2 := by
  induction events generalizing s s' with
  | nil => exact ⟨rfl, h⟩
  | cons e events ih =>
      obtain ⟨he, hrest⟩ := List.forall_mem_cons.1 hunasked
      obtain ⟨hnotes, hstep⟩ := h.step he
      obtain ⟨hlog, hrun⟩ := ih hstep hrest
      exact ⟨congrArg₂ (· ++ ·) hnotes hlog, hrun⟩

end AlikeBut

/-! ## §6. Between two clearings. -/

/-- **A memo is stable between two clearings.**  Over any run in which a reader that
remembers nothing is not cleared, whatever changes in the world and whoever fails, all
lists that it returns under one key are the first of them.  Once there is such a list,
every further read under the key returns it, calls nobody and changes nothing.  As long
as there is none, a read goes to its collaborators as that of a reader that has just
been opened.  Clearing the memo changes neither the world nor what other readers do. -/
theorem memo_stable_between_clears (hempty : (s.readers i).loaded = Dict.empty)
    (hkept : ∀ e ∈ events, ¬ e.Clears i) :
    (∀ n ∈ (s.run events).1, n.reader = i → ∀ list, n.result = .ok list →
        firstReturned i (CacheKey.ofTarget n.target).text (s.run events).1 = some list)
      ∧ (∀ t list, firstReturned i (CacheKey.ofTarget t).text (s.run events).1 = some list →
          ∀ c, (s.run events).2.read i c t
            = (⟨i, t, .ok list, []⟩, (s.run events).2))
      ∧ (∀ t, firstReturned i (CacheKey.ofTarget t).text (s.run events).1 = none →
          ∀ c, ∃ result after made,
            (((CachedReader.opened ((s.run events).2.readers i).checking).read c.noting t).run
                ((s.run events).2.world, [])).1.1 = result
              ∧ (((CachedReader.opened ((s.run events).2.readers i).checking).read c.noting t).run
                  ((s.run events).2.world, [])).2
                  = (after, .get (CacheKey.ofTarget t).text :: made)
              ∧ ((s.run events).2.read i c t).1
                  = ⟨i, t, result, .get (CacheKey.ofTarget t).text :: made⟩
              ∧ ((s.run events).2.read i c t).2.world = after)
      ∧ (((s.run events).2.forget i).readers i).loaded = Dict.empty
      ∧ AlikeBut i (s.run events).2 ((s.run events).2.forget i)
      ∧ ∀ later, (∀ e ∈ later, ¬ e.Asks i) →
          (((s.run events).2.forget i).run later).1 = ((s.run events).2.run later).1
            ∧ AlikeBut i ((s.run events).2.run later).2
                (((s.run events).2.forget i).run later).2 := by
  -- The memo has been empty, so it is what the notes say and nothing else.
  have hmemo : ∀ key, ((s.run events).2.readers i).loaded.get? key
      = firstReturned i key (s.run events).1 := by
    intro key
    rw [get?_loaded_run hkept, hempty]
    rfl
  have hcleared := alikeBut_forget (s.run events).2 i
  refine ⟨?first, ?again, ?afresh, ?empty, hcleared, fun later => hcleared.run⟩
  case first =>
    intro n hn hreader list hok
    rw [← hmemo]
    exact loaded_of_mem_run hkept hn hreader hok
  case again =>
    intro t list hfirst
    exact read_remembered ((hmemo _).trans hfirst)
  case afresh =>
    intro t hnone
    exact read_forgotten ((hmemo _).trans hnone)
  case empty =>
    exact congrArg CachedReader.loaded (Hall.replaced_self _ _ _)

/-- Collaborators of whom none can be reached. -/
def unreachable : Dialogue.Collaborators (StateM MapCache) where
  get _ := throw (.backend "unreachable")
  set _ _ := throw (.backend "unreachable")
  latest className := throw (.typeNotFound className)
  compute t := throw (.typeNotFound t.className)

/-- Collaborators that answer, next to a map. -/
def answering : Dialogue.Collaborators (StateM MapCache) :=
  Sources.beside ⟨fun _ => .ok 7, fun _ => .ok [{ name := "Route" }]⟩
    (MapCache.store MapCache.keepAll)

/-- A reader that checks is asked for a class while nobody can be reached, and again
when somebody answers; then the map is lost. -/
def interrupted : List (Incident MapCache) :=
  [.read 0 unreachable (.ofClass "A"), .read 0 answering (.ofClass "A"),
    .change fun _ => Dict.empty]

/-- Readers that check, and an empty map. -/
def unread : Shared MapCache where
  readers _ := .opened true
  world := Dict.empty

theorem memo_of_interrupted :
    (∀ e ∈ interrupted, ¬ e.Clears 0)
      ∧ (unread.run interrupted).1.map Note.result
          = [.error (.backend "unreachable"), .ok [{ name := "Route" }]]
      ∧ (unread.run interrupted).2.read 0 unreachable (.ofClass "\\A")
          = (⟨0, .ofClass "\\A", .ok [{ name := "Route" }], []⟩, (unread.run interrupted).2) := by
  have hkept : ∀ e ∈ interrupted, ¬ e.Clears 0 := by
    simp [interrupted, Incident.Clears]
  have hempty : (unread.readers 0).loaded = Dict.empty := rfl
  obtain ⟨-, hagain, -⟩ := memo_stable_between_clears hempty hkept
  exact ⟨hkept, rfl, hagain (.ofClass "\\A") [{ name := "Route" }] rfl unreachable⟩

end Shared

end AnnotationCache

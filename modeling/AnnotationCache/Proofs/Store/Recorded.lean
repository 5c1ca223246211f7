/-
  AnnotationCache.Proofs.Store.Recorded
  ─────────────────────────────────────
  **WHAT A MAP HAS ON RECORD FOR A TARGET.**

  A target has up to two values on record: its result and its marker.  They
  stand under two keys of one key space, and the key of a result may be the
  key of another target's marker (a class may be called `[C]A`).  What keeps
  the two apart is that a result only counts as a list and a marker only as a
  time, so the two views below are what is reasoned about, not the keys.

  Main statements:
    * `result?_recorded`, `marker?_recorded`  — what a map that keeps every
      write has on record after one more result, for any target.
-/
import AnnotationCache.Proofs.Store.Key
import AnnotationCache.Store.Map

namespace AnnotationCache.MapCache

/-! ## §1. The two views. -/

/-- The result on record for a target. -/
def result? (entries : MapCache) (t : Target) : Option (List Annotation) :=
  (entries.get? (CacheKey.ofTarget t).text).bind CacheValue.asAnnotations

/-- The time in the marker on record for a target. -/
def marker? (entries : MapCache) (t : Target) : Option Int :=
  (entries.get? (CacheKey.ofTarget t).marker).bind CacheValue.asTimestamp

/-- Erasing a key brings no result on record. -/
theorem result?_of_erase {entries : MapCache} {key : String} {t : Target} {list : List Annotation}
    (h : result? (entries.erase key) t = some list) : result? entries t = some list := by
  unfold result? at h ⊢
  rw [Dict.get?_erase] at h
  split at h
  · cases h
  · exact h

/-- Erasing a key brings no marker on record. -/
theorem marker?_of_erase {entries : MapCache} {key : String} {t : Target} {time : Int}
    (h : marker? (entries.erase key) t = some time) : marker? entries t = some time := by
  unfold marker? at h ⊢
  rw [Dict.get?_erase] at h
  split at h
  · cases h
  · exact h

/-! ## §2. Writes. -/

/-- The map after a write that its rule may decline. -/
def write (accepts : Rule) (entries : MapCache) (key : String) (value : CacheValue) : MapCache :=
  if accepts key value then entries.insert key value else entries

/-- Telling a map to store a value is a write to it. -/
theorem store_set (accepts : Rule) (key : String) (value : CacheValue) :
    (store accepts).set key value
      = ExceptT.mk fun entries => (.ok (accepts key value), write accepts entries key value) := by
  unfold store write
  cases haccepts : accepts key value <;> simp [haccepts]

/-- **The map after a read has put its result on record**, and then its marker. -/
def recorded (accepts : Rule) (entries : MapCache) (t : Target) (list : List Annotation)
    (current : Int) : MapCache :=
  write accepts (write accepts entries (CacheKey.ofTarget t).text (.annotations list))
    (CacheKey.ofTarget t).marker (.timestamp current)

theorem get?_write (accepts : Rule) (entries : MapCache) (key k : String) (value : CacheValue) :
    (write accepts entries key value).get? k
      = if k = key ∧ accepts key value then some value else entries.get? k := by
  unfold write
  by_cases haccepts : accepts key value
  · rw [if_pos haccepts, Dict.get?_insert]
    simp [haccepts]
  · rw [if_neg haccepts]
    simp [haccepts]

section Own

variable (accepts : Rule) (entries : MapCache) (t : Target)

/-- A result that was written is on record if the write was accepted. -/
theorem result?_write_text (list : List Annotation) :
    result? (write accepts entries (CacheKey.ofTarget t).text (.annotations list)) t
      = if accepts (CacheKey.ofTarget t).text (.annotations list) then some list
        else result? entries t := by
  unfold result?
  rw [get?_write]
  by_cases haccepts : accepts (CacheKey.ofTarget t).text (.annotations list)
  · simp [haccepts, CacheValue.asAnnotations]
  · simp [haccepts]

/-- Writing a target's result leaves its marker. -/
theorem marker?_write_text (value : CacheValue) :
    marker? (write accepts entries (CacheKey.ofTarget t).text value) t = marker? entries t := by
  have hne : (CacheKey.ofTarget t).marker ≠ (CacheKey.ofTarget t).text :=
    CacheKey.marker_ne_text (CacheKey.ofTarget t)
  unfold marker?
  rw [get?_write, if_neg (fun h => hne h.1)]

/-- Writing a target's marker leaves its result. -/
theorem result?_write_marker (value : CacheValue) :
    result? (write accepts entries (CacheKey.ofTarget t).marker value) t = result? entries t := by
  have hne : (CacheKey.ofTarget t).text ≠ (CacheKey.ofTarget t).marker :=
    (CacheKey.marker_ne_text (CacheKey.ofTarget t)).symm
  unfold result?
  rw [get?_write, if_neg (fun h => hne h.1)]

/-- A marker that was written is on record if the write was accepted. -/
theorem marker?_write_marker (time : Int) :
    marker? (write accepts entries (CacheKey.ofTarget t).marker (.timestamp time)) t
      = if accepts (CacheKey.ofTarget t).marker (.timestamp time) then some time
        else marker? entries t := by
  unfold marker?
  rw [get?_write]
  by_cases haccepts : accepts (CacheKey.ofTarget t).marker (.timestamp time)
  · simp [haccepts, CacheValue.asTimestamp]
  · simp [haccepts]

/-- A target's own result is on record if the write was accepted. -/
theorem result?_recorded_self (list : List Annotation) (current : Int) :
    result? (recorded accepts entries t list current) t
      = if accepts (CacheKey.ofTarget t).text (.annotations list) then some list
        else result? entries t := by
  unfold recorded
  rw [result?_write_marker, result?_write_text]

/-- A target's own marker is on record if the write was accepted. -/
theorem marker?_recorded_self (list : List Annotation) (current : Int) :
    marker? (recorded accepts entries t list current) t
      = if accepts (CacheKey.ofTarget t).marker (.timestamp current) then some current
        else marker? entries t := by
  unfold recorded
  rw [marker?_write_marker, marker?_write_text]

end Own

/-! ## §3. Other targets. -/

/-- **A result on record is the one just written or was there before.**  The
marker that was written may have taken the place of a result, but it does not
count as one. -/
theorem result?_recorded {entries : MapCache} {t t' : Target} {list found : List Annotation}
    {current : Int} (h : result? (recorded keepAll entries t list current) t' = some found) :
    (CacheKey.ofTarget t' = CacheKey.ofTarget t ∧ found = list)
      ∨ (CacheKey.ofTarget t' ≠ CacheKey.ofTarget t ∧ result? entries t' = some found) := by
  by_cases hkey : CacheKey.ofTarget t' = CacheKey.ofTarget t
  · left
    have hself : result? (recorded keepAll entries t list current) t' = some list := by
      unfold result?
      rw [hkey]
      exact (result?_recorded_self keepAll entries t list current).trans (if_pos rfl)
    exact ⟨hkey, Option.some.inj (h.symm.trans hself)⟩
  · right
    refine ⟨hkey, ?_⟩
    have htext : (CacheKey.ofTarget t').text ≠ (CacheKey.ofTarget t).text :=
      fun heq => hkey (congrArg CacheKey.mk heq)
    unfold result? recorded at h
    rw [get?_write, get?_write] at h
    split at h
    · -- The key is that of the marker just written, and a time is no list.
      cases h
    · rw [if_neg (fun hw => htext hw.1)] at h
      exact h

/-- **A list in the map is the one just written or was there before**, whatever the
writes that the map accepts. -/
theorem annotations_recorded {accepts : Rule} {entries : MapCache} {t : Target}
    {list found : List Annotation} {current : Int} {key : String}
    (h : (recorded accepts entries t list current).get? key = some (.annotations found)) :
    (key = (CacheKey.ofTarget t).text ∧ found = list)
      ∨ entries.get? key = some (.annotations found) := by
  unfold recorded at h
  rw [get?_write, get?_write] at h
  split at h
  next => cases h
  next =>
    split at h
    next hkey =>
      cases h
      exact .inl ⟨hkey.1, rfl⟩
    next => exact .inr h

/-- **A marker on record is the one just written or was there before**, and a
result that was written over it is no marker. -/
theorem marker?_recorded {entries : MapCache} {t t' : Target} {list : List Annotation}
    {current time : Int} (h : marker? (recorded keepAll entries t list current) t' = some time) :
    (CacheKey.ofTarget t' = CacheKey.ofTarget t ∧ time = current)
      ∨ (CacheKey.ofTarget t' ≠ CacheKey.ofTarget t ∧ marker? entries t' = some time) := by
  by_cases hkey : CacheKey.ofTarget t' = CacheKey.ofTarget t
  · left
    have hself : marker? (recorded keepAll entries t list current) t' = some current := by
      unfold marker?
      rw [hkey]
      exact (marker?_recorded_self keepAll entries t list current).trans (if_pos rfl)
    exact ⟨hkey, Option.some.inj (h.symm.trans hself)⟩
  · right
    refine ⟨hkey, ?_⟩
    have hmarker : (CacheKey.ofTarget t').marker ≠ (CacheKey.ofTarget t).marker :=
      fun heq => hkey (congrArg CacheKey.mk (CacheKey.marker_inj.1 heq))
    unfold marker? recorded at h
    rw [get?_write, if_neg (fun hw => hmarker hw.1), get?_write] at h
    split at h
    · -- The marker's key is that of the result just written, and a list is no time.
      cases h
    · exact h

/-! ## §4. Pairs. -/

/-- The result and the marker on record for a target, if it has both. -/
def record? (entries : MapCache) (t : Target) : Option (List Annotation × Int) := do
  return (← result? entries t, ← marker? entries t)

theorem record?_eq_some {entries : MapCache} {t : Target} {list : List Annotation} {time : Int} :
    record? entries t = some (list, time)
      ↔ result? entries t = some list ∧ marker? entries t = some time := by
  unfold record?
  cases result? entries t with
  | none => simp
  | some list => cases marker? entries t <;> simp

/-- **A pair on record is the one just written or was there before.** -/
theorem record?_recorded {entries : MapCache} {t t' : Target} {list : List Annotation}
    {current : Int} {pair : List Annotation × Int}
    (h : record? (recorded keepAll entries t list current) t' = some pair) :
    (CacheKey.ofTarget t' = CacheKey.ofTarget t ∧ pair = (list, current))
      ∨ record? entries t' = some pair := by
  obtain ⟨hresult, hmarker⟩ := record?_eq_some.1 h
  rcases result?_recorded hresult with ⟨hkey, hlist⟩ | ⟨hkey, hlist⟩
  · rcases marker?_recorded hmarker with ⟨-, htime⟩ | ⟨hother, -⟩
    · exact .inl ⟨hkey, Prod.ext hlist htime⟩
    · exact absurd hkey hother
  · rcases marker?_recorded hmarker with ⟨hsame, -⟩ | ⟨-, htime⟩
    · exact absurd hsame hkey
    · exact .inr (record?_eq_some.2 ⟨hlist, htime⟩)

end AnnotationCache.MapCache

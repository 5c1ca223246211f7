/-
  AnnotationCache.Proofs.Annotation
  ─────────────────────────────────
  **ANNOTATIONS HAVE ONE TEXT.**

  An annotation is built by giving it values under keys, one after the other.  What
  comes of this depends on the last value of each key alone (`get?_built`), and of an
  object that is given only on what its keys are bound to.  So annotations that are
  equal have one text, and in it all keys increase; annotations that are not equal have
  different texts.

  Main statements:
    * `get?_built`     — the last value that was given under a key is found there;
    * `same_iff_eq`    — annotations without floats are equal if they are the same;
    * `canonical_text` — they are equal exactly if their texts are.
-/
import AnnotationCache.Annotation
import AnnotationCache.Proofs.Json.Canonical

namespace AnnotationCache.Annotation

/-! ## §1. Building annotations. -/

/-- **An annotation that is given values one after the other.**  What is given is a map
where it is an object, whatever order its members come in. -/
def built (name : String) (calls : List (String × Json)) : Annotation :=
  calls.foldl (fun a call => a.withValue call.1 call.2.gathered) { name := name }

/-- The last value that was given under a key. -/
def lastGiven? (calls : List (String × Json)) (key : String) : Option Json :=
  calls.reverse.lookup key

variable {name : String} {calls : List (String × Json)}

theorem built_concat (name : String) (calls : List (String × Json)) (call : String × Json) :
    built name (calls ++ [call]) = (built name calls).withValue call.1 call.2.gathered := by
  unfold built
  rw [List.foldl_append]
  rfl

theorem name_built (name : String) (calls : List (String × Json)) :
    (built name calls).name = name := by
  induction calls using List.reverseRecOn with
  | nil => rfl
  | append_singleton calls call ih =>
      rw [built_concat]
      exact ih

/-- **The last value that was given under a key is found there.** -/
theorem get?_built (name : String) (calls : List (String × Json)) (key : String) :
    (built name calls).values.get? key = (lastGiven? calls key).map Json.gathered := by
  induction calls using List.reverseRecOn with
  | nil => rfl
  | append_singleton calls call ih =>
      obtain ⟨k, v⟩ := call
      rw [built_concat, withValue, Dict.get?_insert, ih, lastGiven?, lastGiven?,
        List.reverse_append, List.reverse_singleton, List.singleton_append, List.lookup_cons]
      by_cases hkey : key = k
      · rw [if_pos hkey, hkey, beq_self_eq_true]
        rfl
      · rw [if_neg hkey, beq_false_of_ne hkey]

/-- Every value of the annotation is what was meant by one that was given. -/
theorem mem_values_built {b : String × Json} (h : b ∈ (built name calls).values.entries) :
    ∃ call ∈ calls, b.2 = call.2.gathered := by
  obtain ⟨key, w⟩ := b
  have hget : (built name calls).values.get? key = some w :=
    (Ordered.mem_iff_find? (built name calls).values.ordered key w).1 h
  rw [get?_built] at hget
  obtain ⟨v, hlast, rfl⟩ := Option.map_eq_some_iff.1 hget
  obtain ⟨before, behind, hsplit, -⟩ := List.lookup_eq_some_iff.1 hlast
  have hmem : (key, v) ∈ calls.reverse := hsplit ▸ List.mem_append_right before List.mem_cons_self
  exact ⟨(key, v), List.mem_reverse.1 hmem, rfl⟩

/-- It has values if some were given. -/
theorem isEmpty_built (name : String) (calls : List (String × Json)) :
    (built name calls).values.isEmpty = true ↔ calls = [] := by
  constructor
  · intro hempty
    cases calls using List.reverseRecOn with
    | nil => rfl
    | append_singleton others call =>
        have hget : (built name (others ++ [call])).values.get? call.1 = some call.2.gathered := by
          rw [built_concat, withValue, Dict.get?_insert, if_pos rfl]
        rw [Dict.get?, List.isEmpty_iff.1 hempty] at hget
        cases hget
  · rintro rfl
    rfl

/-! ## §2. Annotations without floats. -/

/-- Do no floats occur in the values of an annotation? -/
def FloatFree (a : Annotation) : Prop :=
  Json.floatFreeMembers a.values.entries = true

theorem floatFree_built (name : String) (h : ∀ call ∈ calls, call.2.floatFree = true) :
    (built name calls).FloatFree := by
  refine Json.floatFreeMembers_iff.2 fun b hb => ?_
  obtain ⟨call, hcall, hvalue⟩ := mem_values_built hb
  rw [hvalue]
  exact Json.floatFree_gathered call.2 (h call hcall)

variable {a b : Annotation}

/-- **Annotations without floats are equal if they are the same.** -/
theorem same_iff_eq (ha : a.FloatFree) : a.same b = true ↔ a = b := by
  rw [same, Bool.and_eq_true, beq_iff_eq, Json.sameMembers_iff_eq _ ha]
  constructor
  · rintro ⟨hname, hvalues⟩
    cases a
    cases b
    exact congrArg₂ Annotation.mk hname (Dict.ext hvalues)
  · rintro rfl
    exact ⟨rfl, rfl⟩

theorem floatFree_toJson (ha : a.FloatFree) : a.toJson.floatFree = true := by
  unfold toJson
  split
  · rfl
  · rw [Json.floatFree, Json.floatFreeMembers_iff]
    simp only [List.forall_mem_cons]
    exact ⟨rfl, ha, fun m hm => by cases hm⟩

/-- Different annotations are different objects. -/
theorem toJson_injective (h : a.toJson = b.toJson) : a = b := by
  obtain ⟨name, values⟩ := a
  obtain ⟨name', values'⟩ := b
  unfold toJson at h
  obtain ⟨hname, hvalues⟩ := List.cons.inj (Json.obj.inj h)
  obtain rfl := Json.str.inj (Prod.mk.inj hname).2
  refine congrArg (mk name) (Dict.ext ?_)
  cases hempty : values.isEmpty with
  | true =>
      cases hempty' : values'.isEmpty with
      | true => rw [List.isEmpty_iff.1 hempty, List.isEmpty_iff.1 hempty']
      | false => simp [hempty, hempty'] at hvalues
  | false =>
      cases hempty' : values'.isEmpty with
      | true => simp [hempty, hempty'] at hvalues
      | false => simpa [hempty, hempty', Json.ofDict] using hvalues

/-- **In the object of an annotation all keys increase.** -/
theorem sorted_toJson (name : String) (calls : List (String × Json)) :
    Json.Sorted (built name calls).toJson := by
  have hname : Json.Sorted (.str (built name calls).name) := fun _ h => by cases h
  have hvalues : Json.Sorted (.ofDict (built name calls).values) := by
    refine Json.sorted_obj (built name calls).values.ordered fun m hm => ?_
    obtain ⟨call, -, hvalue⟩ := mem_values_built hm
    rw [hvalue]
    exact Json.sorted_gathered call.2
  unfold toJson
  split
  · refine Json.sorted_obj (List.pairwise_singleton _ _) ?_
    exact List.forall_mem_cons.2 ⟨hname, fun m hm => by cases hm⟩
  · have hkeys : "name" < "values" := by decide
    refine Json.sorted_obj (List.pairwise_pair.2 hkeys) ?_
    exact List.forall_mem_cons.2 ⟨hname, List.forall_mem_cons.2 ⟨hvalues, fun m hm => by cases hm⟩⟩

/-! ## §3. The text. -/

/-- **Annotations that are given the same last values are the same**, whatever the order of
the members of these values. -/
theorem built_eq_of_shuffled (name : String) {calls' : List (String × Json)}
    (h : ∀ key, Option.Rel Json.Shuffled (lastGiven? calls key) (lastGiven? calls' key)) :
    built name calls = built name calls' := by
  have hvalues : (built name calls).values = (built name calls').values := by
    refine Dict.ext_get? fun key => ?_
    rw [get?_built, get?_built]
    have hkey := h key
    generalize lastGiven? calls key = last, lastGiven? calls' key = last' at hkey
    cases hkey with
    | none => rfl
    | some hshuffled => exact congrArg some hshuffled.gathered_eq
  have hname : (built name calls).name = (built name calls').name :=
    (name_built name calls).trans (name_built name calls').symm
  exact congrArg₂ Annotation.mk hname hvalues

/-- **Annotations have one canonical text.**  Two of them, given values without floats, are
equal exactly if their texts are; and so they are if each key was given the same value
last, in whatever order, in which case they are shown alike too.  The text is of no other
value without floats than the object of the annotation, which has values exactly if some
were given and in which all keys increase. -/
theorem canonical_text (name : String) {calls calls' : List (String × Json)}
    (hfree : ∀ call ∈ calls, call.2.floatFree = true)
    (hfree' : ∀ call ∈ calls', call.2.floatFree = true) :
    ((built name calls).same (built name calls') = true
        ↔ (built name calls).toJson.compact = (built name calls').toJson.compact)
      ∧ ((∀ key, Option.Rel Json.Shuffled (lastGiven? calls key) (lastGiven? calls' key)) →
          (built name calls).same (built name calls') = true
            ∧ (built name calls).toJson.compact = (built name calls').toJson.compact
            ∧ (built name calls).display = (built name calls').display)
      ∧ (∀ v : Json, v.floatFree = true →
          (Json.SpellsText (built name calls).toJson.compact v ↔ v = (built name calls).toJson))
      ∧ (calls = [] → (built name calls).toJson = .obj [("name", .str name)])
      ∧ (calls ≠ [] → (built name calls).toJson
          = .obj [("name", .str name), ("values", .ofDict (built name calls).values)])
      ∧ Json.Sorted (built name calls).toJson := by
  have ha := floatFree_built name hfree
  have hb := floatFree_built name hfree'
  have hspells := Json.spellsText_compact (floatFree_toJson ha)
  refine ⟨?equal, ?shuffled, ?text, ?without, ?withValues, sorted_toJson name calls⟩
  case equal =>
    rw [same_iff_eq ha]
    constructor
    · intro heq
      rw [heq]
    · intro htext
      exact toJson_injective (Json.compact_injective (floatFree_toJson ha) (floatFree_toJson hb) htext)
  case shuffled =>
    intro hlast
    have heq := built_eq_of_shuffled name hlast
    exact ⟨(same_iff_eq ha).2 heq, by rw [heq], by rw [heq]⟩
  case text =>
    intro v hv
    constructor
    · intro htext
      exact Json.eq_of_spellsText hv (floatFree_toJson ha) htext hspells
    · rintro rfl
      exact hspells
  case without =>
    intro hnone
    rw [toJson, if_pos ((isEmpty_built name calls).2 hnone), name_built]
  case withValues =>
    intro hsome
    rw [toJson, if_neg (mt (isEmpty_built name calls).1 hsome), name_built]

/-- Values that are given to a route, one of them twice. -/
def routeCalls : List (String × Json) :=
  [("path", .str "/"), ("at", .obj [("from", .int 1), ("to", .int 2)]), ("path", .str "/page")]

/-- The same values in another order, and with their members in another order. -/
def routeCallsAgain : List (String × Json) :=
  [("path", .str "/page"), ("at", .obj [("to", .int 2), ("from", .int 1)])]

theorem shuffled_routeCalls (key : String) :
    Option.Rel Json.Shuffled (lastGiven? routeCalls key) (lastGiven? routeCallsAgain key) := by
  by_cases hpath : key = "path"
  · subst hpath
    exact .some (.refl _)
  by_cases hat : key = "at"
  · subst hat
    refine .some (.obj (.cons (.refl _) (.cons (.refl _) .nil)) (.swap _ _ _) ?_)
    decide
  · have hnone : lastGiven? routeCalls key = none ∧ lastGiven? routeCallsAgain key = none := by
      simp [lastGiven?, routeCalls, routeCallsAgain, List.lookup_cons, beq_false_of_ne hpath,
        beq_false_of_ne hat]
    rw [hnone.1, hnone.2]
    exact .none

theorem canonical_text_of_route :
    (∀ call ∈ routeCalls, call.2.floatFree = true)
      ∧ (∀ call ∈ routeCallsAgain, call.2.floatFree = true)
      ∧ (built "Route" routeCalls).toJson.compact
          = (built "Route" routeCallsAgain).toJson.compact
      ∧ (built "Route" routeCalls).same (built "Route" []) = false := by
  have hfree : ∀ call ∈ routeCalls, call.2.floatFree = true := by decide
  have hfree' : ∀ call ∈ routeCallsAgain, call.2.floatFree = true := by decide
  obtain ⟨-, hshuffled, -⟩ := canonical_text "Route" hfree hfree'
  exact ⟨hfree, hfree', (hshuffled shuffled_routeCalls).2.1, by decide⟩

end AnnotationCache.Annotation

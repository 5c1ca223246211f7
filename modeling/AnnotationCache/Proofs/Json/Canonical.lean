/-
  AnnotationCache.Proofs.Json.Canonical
  ─────────────────────────────────────
  **ONE VALUE, ONE TEXT.**

  A text tells which value without floats it is of, as a numeral tells which integer it
  denotes; so such values are equal exactly if their texts are.  Values that differ only in
  the order of members, at whatever depth, mean the same (`Shuffled`), as all members are
  gathered in the order of their keys.

  Main statements:
    * `same_iff_eq`              — values without floats are equal if they are the same;
    * `eq_of_spellsText`         — a text is of one such value;
    * `compact_injective`        — so different values have different texts;
    * `Shuffled.gathered_eq`     — the order of members makes no difference;
    * `sorted_gathered`          — in what is meant the keys of every object increase.
-/
import AnnotationCache.Proofs.Json.Meaning
import Mathlib.Data.List.Induction
import Mathlib.Data.List.Perm.Basic

namespace AnnotationCache

/-! ## §1. Look-ups of gathered bindings. -/

namespace Ordered

variable {α : Type}

theorem ofList_concat (bindings : List (String × α)) (b : String × α) :
    ofList (bindings ++ [b]) = insert b.1 b.2 (ofList bindings) := by
  unfold ofList
  rw [List.foldl_append]
  rfl

/-- **A look-up of gathered bindings finds what a key is bound to**, if no key is bound
twice. -/
theorem find?_ofList {bindings : List (String × α)} (h : (bindings.map Prod.fst).Nodup)
    (key : String) (value : α) :
    find? key (ofList bindings) = some value ↔ (key, value) ∈ bindings := by
  induction bindings using List.reverseRecOn with
  | nil => simp [ofList, find?]
  | append_singleton bindings b ih =>
      obtain ⟨k, v⟩ := b
      rw [List.map_append, List.nodup_append] at h
      obtain ⟨hnodup, -, hnew⟩ := h
      have hk : ∀ a, (k, a) ∉ bindings := fun a ha =>
        hnew k (List.mem_map.2 ⟨(k, a), ha, rfl⟩) k List.mem_cons_self rfl
      rw [ofList_concat, find?_insert, List.mem_append, List.mem_singleton, ← ih hnodup]
      by_cases hkey : key = k
      · subst hkey
        have hnone : ¬ find? key (ofList bindings) = some value := fun hfind =>
          hk value ((ih hnodup).1 hfind)
        simp [hnone, eq_comm]
      · simp [hkey]

/-- **Bindings are gathered in the order of their keys**, whatever order they come in. -/
theorem ofList_perm {xs ys : List (String × α)} (h : xs.Perm ys) (hn : (xs.map Prod.fst).Nodup) :
    ofList xs = ofList ys := by
  have hn' : (ys.map Prod.fst).Nodup := (h.map Prod.fst).nodup_iff.1 hn
  refine ext_find? (ofList_ordered xs) (ofList_ordered ys) fun key => Option.ext fun value => ?_
  rw [find?_ofList hn, find?_ofList hn', h.mem_iff]

/-- Bindings that are in order but for their arrangement are put in order. -/
theorem ofList_of_perm {xs ys : List (String × α)} (h : xs.Perm ys) (hys : Ordered ys) :
    ofList xs = ys := by
  have hkeys : (ys.map Prod.fst).Nodup := Dict.nodup_keys ⟨ys, hys⟩
  rw [ofList_perm h ((h.map Prod.fst).nodup_iff.2 hkeys), ofList_of_ordered hys]

end Ordered

namespace Json

/-! ## §2. Values without floats. -/

mutual

/-- **Values without floats are equal if they are the same.** -/
theorem same_iff_eq : ∀ v : Json, v.floatFree = true → ∀ w, v.same w = true ↔ v = w
  | .null, _, w => by cases w <;> simp [same]
  | .bool b, _, w => by cases w <;> simp [same]
  | .int n, _, w => by cases w <;> simp [same]
  | .str s, _, w => by cases w <;> simp [same]
  | .arr items, h, w => by
      cases w with
      | arr others => rw [same, sameItems_iff_eq items h, Json.arr.injEq]
      | null | bool | int | float | str | obj => simp [same]
  | .obj members, h, w => by
      cases w with
      | obj others => rw [same, sameMembers_iff_eq members h, Json.obj.injEq]
      | null | bool | int | float | str | arr => simp [same]

theorem sameItems_iff_eq : ∀ items : List Json, floatFreeItems items = true →
    ∀ others, sameItems items others = true ↔ items = others
  | [], _, others => by cases others <;> simp [sameItems]
  | x :: items, h, others => by
      rw [floatFreeItems, Bool.and_eq_true] at h
      cases others with
      | nil => simp [sameItems]
      | cons y others =>
          rw [sameItems, Bool.and_eq_true, same_iff_eq x h.1, sameItems_iff_eq items h.2,
            List.cons.injEq]

theorem sameMembers_iff_eq : ∀ members : List (String × Json), floatFreeMembers members = true →
    ∀ others, sameMembers members others = true ↔ members = others
  | [], _, others => by cases others <;> simp [sameMembers]
  | (k, x) :: members, h, others => by
      rw [floatFreeMembers, Bool.and_eq_true] at h
      cases others with
      | nil => simp [sameMembers]
      | cons m others =>
          obtain ⟨j, y⟩ := m
          rw [sameMembers, Bool.and_eq_true, Bool.and_eq_true, beq_iff_eq, same_iff_eq x h.1,
            sameMembers_iff_eq members h.2, List.cons.injEq, Prod.mk.injEq]

end

/-! ## §3. One text, one value. -/

/-- A numeral tells which integer it is of. -/
theorem intNumeral_injective {n m : Int} (h : intNumeral n = intNumeral m) : n = m := by
  have hsign : decide (n < 0) = decide (m < 0) := congrArg Numeral.negative h
  have hdigits : n.natAbs = m.natAbs := by
    rw [← ofDigits_digits n.natAbs, ← ofDigits_digits m.natAbs]
    exact congrArg (fun numeral => Numeral.ofDigits numeral.whole) h
  rw [decide_eq_decide] at hsign
  omega

mutual

/-- **A tree tells which value without floats it is of.** -/
theorem tree_injective : ∀ v : Json, v.floatFree = true → ∀ w, w.floatFree = true →
    tree v = tree w → v = w
  | .null, _, w, hw, h => by cases w <;> cases h; rfl
  | .bool b, _, w, hw, h => by cases w <;> cases h; rfl
  | .int n, _, w, hw, h => by
      cases w with
      | int m => rw [intNumeral_injective (Tree.num.inj h)]
      | float x => cases hw
      | null | bool | str | arr | obj => cases h
  | .str s, _, w, hw, h => by cases w <;> cases h; rfl
  | .arr items, hv, w, hw, h => by
      cases w with
      | arr others => rw [treeItems_injective items hv others hw (Tree.arr.inj h).1]
      | null | bool | int | float | str | obj => cases h
  | .obj members, hv, w, hw, h => by
      cases w with
      | obj others => rw [treeMembers_injective members hv others hw (Tree.obj.inj h).1]
      | null | bool | int | float | str | arr => cases h

theorem treeItems_injective : ∀ items : List Json, floatFreeItems items = true →
    ∀ others, floatFreeItems others = true → treeItems items = treeItems others → items = others
  | [], _, others, _, h => by cases others <;> cases h; rfl
  | x :: items, hv, others, hw, h => by
      cases others with
      | nil => cases h
      | cons y others =>
          rw [floatFreeItems, Bool.and_eq_true] at hv hw
          obtain ⟨hfirst, hrest⟩ := List.cons.inj h
          rw [tree_injective x hv.1 y hw.1 hfirst,
            treeItems_injective items hv.2 others hw.2 hrest]

theorem treeMembers_injective : ∀ members : List (String × Json), floatFreeMembers members = true →
    ∀ others, floatFreeMembers others = true → treeMembers members = treeMembers others →
      members = others
  | [], _, others, _, h => by cases others <;> cases h; rfl
  | (k, x) :: members, hv, others, hw, h => by
      cases others with
      | nil => cases h
      | cons m others =>
          obtain ⟨j, y⟩ := m
          rw [floatFreeMembers, Bool.and_eq_true] at hv hw
          obtain ⟨hfirst, hrest⟩ := List.cons.inj h
          obtain ⟨hkey, hvalue⟩ := Prod.mk.inj hfirst
          rw [Option.some.inj hkey, tree_injective x hv.1 y hw.1 hvalue,
            treeMembers_injective members hv.2 others hw.2 hrest]

end

/-- **A text is of one value without floats.** -/
theorem eq_of_spellsText {text : String} {v w : Json} (hv : v.floatFree = true)
    (hw : w.floatFree = true) (hspells : SpellsText text v) (hspells' : SpellsText text w) :
    v = w := by
  have htree : (Except.ok (tree v) : Reading Tree) = .ok (tree w) :=
    (decode_spelt (fun p => .ok p.tree) hspells).symm.trans
      (decode_spelt (fun p => .ok p.tree) hspells')
  exact tree_injective v hv w hw (Except.ok.inj htree)

/-- The compact text of a value without floats is one of it. -/
theorem spellsText_compact {v : Json} (hv : v.floatFree = true) : SpellsText v.compact v :=
  spellsText_render spaced_compactStyle (floatsReadBack_of_floatFree v hv)

/-- **Different values without floats have different texts.** -/
theorem compact_injective {v w : Json} (hv : v.floatFree = true) (hw : w.floatFree = true)
    (h : v.compact = w.compact) : v = w :=
  eq_of_spellsText hv hw (spellsText_compact hv) (h ▸ spellsText_compact hw)

/-! ## §4. The order of members. -/

mutual

/-- **Do values differ only in the order of members**, at whatever depth?  No object has a
key twice. -/
inductive Shuffled : Json → Json → Prop where
  | refl (v : Json) : Shuffled v v
  | arr {items others : List Json} (h : ShuffledItems items others) :
      Shuffled (.arr items) (.arr others)
  | obj {members between others : List (String × Json)} (values : ShuffledMembers members between)
      (order : between.Perm others) (distinct : (between.map Prod.fst).Nodup) :
      Shuffled (.obj members) (.obj others)

/-- Do items differ only in the order of members in them? -/
inductive ShuffledItems : List Json → List Json → Prop where
  | nil : ShuffledItems [] []
  | cons {x y : Json} {items others : List Json} (first : Shuffled x y)
      (rest : ShuffledItems items others) : ShuffledItems (x :: items) (y :: others)

/-- Do the values of members differ only in the order of members in them? -/
inductive ShuffledMembers : List (String × Json) → List (String × Json) → Prop where
  | nil : ShuffledMembers [] []
  | cons {k : String} {x y : Json} {members others : List (String × Json)} (first : Shuffled x y)
      (rest : ShuffledMembers members others) :
      ShuffledMembers ((k, x) :: members) ((k, y) :: others)

end

mutual

/-- **The order of members makes no difference to what is meant.** -/
theorem Shuffled.gathered_eq {v w : Json} (h : Shuffled v w) : v.gathered = w.gathered := by
  match h with
  | .refl _ => rfl
  | .arr hitems => rw [gathered, gathered, hitems.gathered_eq]
  | @Shuffled.obj _ between others hvalues horder hdistinct =>
      have hkeys : ((gatheredMembers between).map Prod.fst).Nodup := by
        rw [gatheredMembers_eq_map, List.map_map]
        exact hdistinct
      have hperm : (gatheredMembers between).Perm (gatheredMembers others) := by
        rw [gatheredMembers_eq_map, gatheredMembers_eq_map]
        exact horder.map _
      rw [gathered, gathered, hvalues.gathered_eq, ofMembers, ofMembers,
        Ordered.ofList_perm hperm hkeys]

theorem ShuffledItems.gathered_eq {items others : List Json} (h : ShuffledItems items others) :
    gatheredItems items = gatheredItems others := by
  match h with
  | .nil => rfl
  | .cons hfirst hrest => rw [gatheredItems, gatheredItems, hfirst.gathered_eq, hrest.gathered_eq]

theorem ShuffledMembers.gathered_eq {members others : List (String × Json)}
    (h : ShuffledMembers members others) : gatheredMembers members = gatheredMembers others := by
  match h with
  | .nil => rfl
  | .cons hfirst hrest =>
      rw [gatheredMembers, gatheredMembers, hfirst.gathered_eq, hrest.gathered_eq]

end

/-! ## §5. What is inside. -/

/-- **Is a value inside another one**, or that value itself? -/
inductive Inside (w : Json) : Json → Prop where
  | self : Inside w w
  | item {x : Json} {items : List Json} (mem : x ∈ items) (h : Inside w x) : Inside w (.arr items)
  | member {m : String × Json} {members : List (String × Json)} (mem : m ∈ members)
      (h : Inside w m.2) : Inside w (.obj members)

/-- Do the keys of all objects inside a value increase? -/
def Sorted (v : Json) : Prop :=
  ∀ members, Inside (.obj members) v → Ordered members

theorem sorted_arr {items : List Json} (h : ∀ x ∈ items, Sorted x) : Sorted (.arr items) := by
  intro members hinside
  cases hinside with
  | item mem hx => exact h _ mem members hx

theorem sorted_obj {members : List (String × Json)} (hordered : Ordered members)
    (h : ∀ m ∈ members, Sorted m.2) : Sorted (.obj members) := by
  intro others hinside
  cases hinside with
  | self => exact hordered
  | member mem hx => exact h _ mem others hx

/-- **In what is meant the keys of every object increase.** -/
theorem sorted_gathered (v : Json) : Sorted v.gathered := by
  induction v using Json.induction with
  | null | bool | int | float | str => exact fun _ h => by cases h
  | arr items ih =>
      rw [gathered, gatheredItems_eq_map]
      exact sorted_arr (List.forall_mem_map.2 ih)
  | obj members ih =>
      rw [gathered, gatheredMembers_eq_map]
      refine sorted_obj (Ordered.ofList_ordered _) fun m hm => ?_
      obtain ⟨m', hm', rfl⟩ := List.mem_map.1 (Ordered.mem_of_mem_ofList hm)
      exact ih m' hm'

end Json

end AnnotationCache

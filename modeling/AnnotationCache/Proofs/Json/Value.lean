/-
  AnnotationCache.Proofs.Json.Value
  ─────────────────────────────────
  **VALUES, PART BY PART.**

  What holds of a value is shown by one induction over the values inside it
  (`Json.induction`): what the functions on values do with lists and members, they do
  with each part.

  A value may list the members of its objects in any order, and a key more than once.
  What is meant by it is the value with all members gathered in order (`gathered`).

  Main statements:
    * `induction`             — a property of values is one of what they contain;
    * `canonicalMembers_iff`, `depthMembers_le_iff` — members, one by one;
    * `gathered_of_canonical` — a value that reading can produce is what it means.
-/
import AnnotationCache.Json.Value

namespace AnnotationCache.Json

/-! ## §1. Induction. -/

/-- What holds of scalars, and of arrays and objects if it holds of what they contain, holds
of every value. -/
theorem induction {P : Json → Prop} (null : P .null) (bool : ∀ b, P (.bool b))
    (int : ∀ n, P (.int n)) (float : ∀ x, P (.float x)) (str : ∀ s, P (.str s))
    (arr : ∀ items, (∀ x ∈ items, P x) → P (.arr items))
    (obj : ∀ members, (∀ m ∈ members, P m.2) → P (.obj members)) : ∀ v, P v
  | .null => null
  | .bool b => bool b
  | .int n => int n
  | .float x => float x
  | .str s => str s
  | .arr items => arr items fun x _ => induction null bool int float str arr obj x
  | .obj members => obj members fun m _ => induction null bool int float str arr obj m.2
termination_by v => sizeOf v
decreasing_by
  · decreasing_trivial
  · have hsize := List.sizeOf_lt_of_mem ‹m ∈ members›
    obtain ⟨key, x⟩ := m
    simp only [Prod.mk.sizeOf_spec, Json.obj.sizeOf_spec] at hsize ⊢
    omega

/-! ## §2. Lists and members, one by one. -/

theorem canonicalItems_iff {items : List Json} :
    canonicalItems items = true ↔ ∀ v ∈ items, v.canonical = true := by
  induction items with
  | nil => simp [canonicalItems]
  | cons v items ih => rw [canonicalItems, Bool.and_eq_true, ih, List.forall_mem_cons]

theorem canonicalMembers_iff {members : List (String × Json)} :
    canonicalMembers members = true ↔ ∀ b ∈ members, b.2.canonical = true := by
  induction members with
  | nil => simp [canonicalMembers]
  | cons b members ih => rw [canonicalMembers, Bool.and_eq_true, ih, List.forall_mem_cons]

theorem depthItems_le_iff {items : List Json} {room : Nat} :
    depthItems items ≤ room ↔ ∀ v ∈ items, v.depth ≤ room := by
  induction items with
  | nil => simp [depthItems]
  | cons v items ih => rw [depthItems, Nat.max_le, ih, List.forall_mem_cons]

theorem depthMembers_le_iff {members : List (String × Json)} {room : Nat} :
    depthMembers members ≤ room ↔ ∀ b ∈ members, b.2.depth ≤ room := by
  induction members with
  | nil => simp [depthMembers]
  | cons b members ih => rw [depthMembers, Nat.max_le, ih, List.forall_mem_cons]

/-- An array nests one deeper than its items. -/
theorem depth_arr_le_iff {items : List Json} {room : Nat} :
    (Json.arr items).depth ≤ room + 1 ↔ ∀ v ∈ items, v.depth ≤ room := by
  rw [depth, Nat.add_le_add_iff_right, depthItems_le_iff]

/-- An object nests one deeper than the values of its members. -/
theorem depth_obj_le_iff {members : List (String × Json)} {room : Nat} :
    (Json.obj members).depth ≤ room + 1 ↔ ∀ m ∈ members, m.2.depth ≤ room := by
  rw [depth, Nat.add_le_add_iff_right, depthMembers_le_iff]

theorem floatFreeItems_iff {items : List Json} :
    floatFreeItems items = true ↔ ∀ v ∈ items, v.floatFree = true := by
  induction items with
  | nil => simp [floatFreeItems]
  | cons v items ih => rw [floatFreeItems, Bool.and_eq_true, ih, List.forall_mem_cons]

theorem floatFreeMembers_iff {members : List (String × Json)} :
    floatFreeMembers members = true ↔ ∀ m ∈ members, m.2.floatFree = true := by
  induction members with
  | nil => simp [floatFreeMembers]
  | cons m members ih => rw [floatFreeMembers, Bool.and_eq_true, ih, List.forall_mem_cons]

/-! ## §3. Gathered values. -/

mutual

/-- **The value that is meant**: the members of every object in the order of their keys;
of a key that is repeated the last member counts. -/
def gathered : Json → Json
  | .arr items => .arr (gatheredItems items)
  | .obj members => ofMembers (gatheredMembers members)
  | v => v

/-- The items that are meant. -/
def gatheredItems : List Json → List Json
  | [] => []
  | x :: xs => gathered x :: gatheredItems xs

/-- The members, each with the value that is meant. -/
def gatheredMembers : List (String × Json) → List (String × Json)
  | [] => []
  | (k, x) :: xs => (k, gathered x) :: gatheredMembers xs

end

mutual

/-- Do all integers in a value fit a word? -/
def integersFit : Json → Bool
  | .int n => fitsWord n
  | .arr items => integersFitItems items
  | .obj members => integersFitMembers members
  | _ => true

/-- Do all integers in a list fit? -/
def integersFitItems : List Json → Bool
  | [] => true
  | x :: xs => integersFit x && integersFitItems xs

/-- Do all integers in the values of members fit? -/
def integersFitMembers : List (String × Json) → Bool
  | [] => true
  | (_, x) :: xs => integersFit x && integersFitMembers xs

end

theorem gatheredItems_eq_map (items : List Json) : gatheredItems items = items.map gathered := by
  induction items with
  | nil => rfl
  | cons x items ih => rw [gatheredItems, ih, List.map_cons]

theorem gatheredMembers_eq_map (members : List (String × Json)) :
    gatheredMembers members = members.map fun m => (m.1, m.2.gathered) := by
  induction members with
  | nil => rfl
  | cons m members ih => rw [gatheredMembers, ih, List.map_cons]

theorem integersFitItems_iff {items : List Json} :
    integersFitItems items = true ↔ ∀ v ∈ items, v.integersFit = true := by
  induction items with
  | nil => simp [integersFitItems]
  | cons v items ih => rw [integersFitItems, Bool.and_eq_true, ih, List.forall_mem_cons]

theorem integersFitMembers_iff {members : List (String × Json)} :
    integersFitMembers members = true ↔ ∀ m ∈ members, m.2.integersFit = true := by
  induction members with
  | nil => simp [integersFitMembers]
  | cons m members ih => rw [integersFitMembers, Bool.and_eq_true, ih, List.forall_mem_cons]

/-- Members stay as they are if their values are what they mean. -/
theorem gatheredMembers_eq_self {members : List (String × Json)}
    (h : ∀ m ∈ members, m.2.gathered = m.2) : gatheredMembers members = members := by
  have hmembers : (members.map fun m => (m.1, m.2.gathered)) = members.map id :=
    List.map_congr_left fun m hm => Prod.ext rfl (h m hm)
  rw [gatheredMembers_eq_map, hmembers, List.map_id]

/-- **A canonical value is what it means.** -/
theorem gathered_of_canonical (v : Json) (h : v.canonical = true) : v.gathered = v := by
  induction v using Json.induction with
  | null | bool | int | float | str => rfl
  | arr items ih =>
      rw [canonical, canonicalItems_iff] at h
      have hitems : items.map gathered = items.map id :=
        List.map_congr_left fun x hx => ih x hx (h x hx)
      rw [gathered, gatheredItems_eq_map, hitems, List.map_id]
  | obj members ih =>
      rw [canonical, Bool.and_eq_true, decide_eq_true_eq, canonicalMembers_iff] at h
      have hmembers := gatheredMembers_eq_self fun m hm => ih m hm (h.2 m hm)
      rw [gathered, hmembers, ofMembers, Ordered.ofList_of_ordered h.1]

/-- Its integers fit a word. -/
theorem integersFit_of_canonical (v : Json) (h : v.canonical = true) : v.integersFit = true := by
  induction v using Json.induction with
  | null | bool | float | str => rfl
  | int n => exact h
  | arr items ih =>
      rw [canonical, canonicalItems_iff] at h
      exact integersFitItems_iff.2 fun x hx => ih x hx (h x hx)
  | obj members ih =>
      rw [canonical, Bool.and_eq_true, canonicalMembers_iff] at h
      exact integersFitMembers_iff.2 fun m hm => ih m hm (h.2 m hm)

/-- What is meant by a value without floats has none. -/
theorem floatFree_gathered (v : Json) (h : v.floatFree = true) : v.gathered.floatFree = true := by
  induction v using Json.induction with
  | null | bool | int | float | str => exact h
  | arr items ih =>
      rw [floatFree, floatFreeItems_iff] at h
      rw [gathered, floatFree, gatheredItems_eq_map, floatFreeItems_iff]
      exact List.forall_mem_map.2 fun x hx => ih x hx (h x hx)
  | obj members ih =>
      rw [floatFree, floatFreeMembers_iff] at h
      rw [gathered, ofMembers, floatFree, gatheredMembers_eq_map, floatFreeMembers_iff]
      intro m hm
      obtain ⟨m', hm', rfl⟩ := List.mem_map.1 (Ordered.mem_of_mem_ofList hm)
      exact ih m' hm' (h m' hm')

end AnnotationCache.Json

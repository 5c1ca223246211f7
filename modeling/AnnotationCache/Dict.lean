/-
  AnnotationCache.Dict
  ────────────────────
  **FINITE MAPS FROM STRINGS, KEPT IN THE ORDER OF THEIR KEYS.**

  Everything this library prints or stores by name (the values of an
  annotation, the members of a JSON object, the methods of a type, the types
  of a registry) is ordered by code points.  `Dict` keeps its entries in that
  order, so two maps with the same bindings are the same list, and printing a
  map is printing its entries.

  Main statements:
    * `get?_insert`  — a look-up sees the last value written under a key;
    * `ext_get?`     — a map is determined by its look-ups;
    * `get?_erase`   — erasing a key removes that binding and no other.
-/
namespace AnnotationCache

universe u v

/-! ## §1. Ordered lists of bindings. -/

/-- A list of bindings is **ordered** when its keys increase strictly. -/
def Ordered {α : Type u} (entries : List (String × α)) : Prop :=
  entries.Pairwise (fun a b => a.1 < b.1)

instance {α : Type u} (entries : List (String × α)) : Decidable (Ordered entries) := by
  unfold Ordered; infer_instance

namespace Ordered

variable {α : Type u} {β : Type v}

/-- Binds `key` in an ordered list, in place of what was bound to it before. -/
def insert (key : String) (value : α) : List (String × α) → List (String × α)
  | [] => [(key, value)]
  | (k, v) :: rest =>
      if key < k then (key, value) :: (k, v) :: rest
      else if key = k then (key, value) :: rest
      else (k, v) :: insert key value rest

/-- The value bound to `key` by the first binding that mentions it. -/
def find? (key : String) : List (String × α) → Option α
  | [] => none
  | (k, v) :: rest => if key = k then some v else find? key rest

/-- Later bindings win: the bindings of a list, ordered. -/
def ofList (bindings : List (String × α)) : List (String × α) :=
  bindings.foldl (fun entries b => insert b.1 b.2 entries) []

theorem mem_insert {key : String} {value : α} {entries : List (String × α)} {b : String × α}
    (h : b ∈ insert key value entries) : b = (key, value) ∨ b ∈ entries := by
  induction entries with
  | nil => simpa [insert] using h
  | cons e rest ih =>
    obtain ⟨k, v⟩ := e
    rw [insert] at h
    split at h
    · simpa using h
    · split at h
      · rcases List.mem_cons.1 h with h | h
        · exact .inl h
        · exact .inr (List.mem_cons_of_mem _ h)
      · rcases List.mem_cons.1 h with h | h
        · exact .inr (h ▸ List.mem_cons_self)
        · exact (ih h).imp id (List.mem_cons_of_mem _)

theorem insert_ordered (key : String) (value : α) {entries : List (String × α)}
    (h : Ordered entries) : Ordered (insert key value entries) := by
  induction entries with
  | nil => simp [insert, Ordered]
  | cons e rest ih =>
    obtain ⟨k, v⟩ := e
    obtain ⟨hk, hrest⟩ := List.pairwise_cons.1 h
    rw [insert]
    split
    next hlt =>
      refine List.pairwise_cons.2 ⟨fun b hb => ?_, h⟩
      rcases List.mem_cons.1 hb with rfl | hb
      · exact hlt
      · exact String.lt_trans hlt (hk b hb)
    next hlt =>
      split
      next heq => exact heq ▸ List.pairwise_cons.2 ⟨hk, hrest⟩
      next hne =>
        refine List.pairwise_cons.2 ⟨fun b hb => ?_, ih hrest⟩
        rcases mem_insert hb with rfl | hb
        · refine Decidable.byContradiction fun hnot => hne ?_
          exact String.le_antisymm (String.not_lt.1 hnot) (String.not_lt.1 hlt)
        · exact hk b hb

theorem ofList_ordered (bindings : List (String × α)) : Ordered (ofList bindings) := by
  suffices ∀ (acc : List (String × α)), Ordered acc →
      Ordered (bindings.foldl (fun entries b => insert b.1 b.2 entries) acc) from
    this [] List.Pairwise.nil
  induction bindings with
  | nil => exact fun _ h => h
  | cons b rest ih => exact fun acc h => ih _ (insert_ordered b.1 b.2 h)

/-- What is bound in the end was bound in the list. -/
theorem mem_of_mem_ofList {bindings : List (String × α)} {b : String × α}
    (h : b ∈ ofList bindings) : b ∈ bindings := by
  suffices ∀ (acc : List (String × α)),
      b ∈ bindings.foldl (fun entries b => insert b.1 b.2 entries) acc → b ∈ acc ∨ b ∈ bindings from
    (this [] h).resolve_left List.not_mem_nil
  clear h
  induction bindings with
  | nil => exact fun acc h => .inl h
  | cons first rest ih =>
    intro acc h
    rcases ih _ h with hacc | hrest
    · rcases mem_insert hacc with rfl | hacc
      · exact .inr List.mem_cons_self
      · exact .inl hacc
    · exact .inr (List.mem_cons_of_mem _ hrest)

/-- A key beyond all others is bound at the end. -/
theorem insert_eq_append {key : String} (value : α) {entries : List (String × α)}
    (h : ∀ b ∈ entries, b.1 < key) : insert key value entries = entries ++ [(key, value)] := by
  induction entries with
  | nil => rfl
  | cons e rest ih =>
    obtain ⟨k, v⟩ := e
    have hlt : k < key := h (k, v) List.mem_cons_self
    have hnot : ¬ key < k := fun hgt => String.lt_irrefl k (String.lt_trans hlt hgt)
    have hne : key ≠ k := fun heq => String.lt_irrefl k (heq ▸ hlt)
    rw [insert, if_neg hnot, if_neg hne, ih fun b hb => h b (List.mem_cons_of_mem _ hb)]
    rfl

/-- A list that is ordered already stays as it is. -/
theorem ofList_of_ordered {entries : List (String × α)} (h : Ordered entries) :
    ofList entries = entries := by
  suffices ∀ done rest : List (String × α), Ordered (done ++ rest) →
      rest.foldl (fun entries b => insert b.1 b.2 entries) done = done ++ rest from
    this [] entries h
  intro done rest
  induction rest generalizing done with
  | nil => exact fun _ => (List.append_nil done).symm
  | cons b rest ih =>
    intro hordered
    have hbelow : ∀ b' ∈ done, b'.1 < b.1 := fun b' hb' =>
      (List.pairwise_append.1 hordered).2.2 b' hb' b List.mem_cons_self
    rw [List.foldl_cons, insert_eq_append b.2 hbelow, ih (done ++ [b]) (by simpa using hordered)]
    simp

theorem find?_insert (key k : String) (value : α) (entries : List (String × α)) :
    find? k (insert key value entries) = if k = key then some value else find? k entries := by
  induction entries with
  | nil => simp [insert, find?]
  | cons e rest ih =>
    obtain ⟨k', v⟩ := e
    rw [insert]
    split
    · simp [find?]
    · split
      next heq => subst heq; by_cases hk : k = key <;> simp [find?, hk]
      next hne =>
        by_cases hk : k = k'
        · subst hk; simp [find?, Ne.symm hne]
        · simp [find?, hk, ih]

theorem find?_filter (key k : String) (entries : List (String × α)) :
    find? k (entries.filter (fun b => b.1 ≠ key)) = if k = key then none else find? k entries := by
  induction entries with
  | nil => simp [find?]
  | cons e rest ih =>
    obtain ⟨k', v⟩ := e
    by_cases hk : k' = key
    · subst hk
      by_cases hkk : k = k'
      · subst hkk; simpa using ih
      · simpa [find?, hkk] using ih
    · by_cases hkk : k = k'
      · subst hkk; simp [find?, hk]
      · simpa [find?, hk, hkk] using ih

theorem find?_eq_none_of_lt {k : String} {entries : List (String × α)}
    (h : ∀ b ∈ entries, k < b.1) : find? k entries = none := by
  induction entries with
  | nil => rfl
  | cons e rest ih =>
    obtain ⟨k', v⟩ := e
    have hne : k ≠ k' := fun heq => String.lt_irrefl k' (heq ▸ h (k', v) List.mem_cons_self)
    simp only [find?, hne, if_false]
    exact ih fun b hb => h b (List.mem_cons_of_mem _ hb)

theorem mem_iff_find? {entries : List (String × α)} (h : Ordered entries) (k : String) (v : α) :
    (k, v) ∈ entries ↔ find? k entries = some v := by
  induction entries with
  | nil => simp [find?]
  | cons e rest ih =>
    obtain ⟨k', v'⟩ := e
    obtain ⟨hk, hrest⟩ := List.pairwise_cons.1 h
    by_cases heq : k = k'
    · subst heq
      have hnot : (k, v) ∉ rest := fun hm => String.lt_irrefl k (hk _ hm)
      simp [find?, hnot, eq_comm]
    · simp [find?, heq, ih hrest]

/-- **An ordered list is determined by its look-ups.** -/
theorem ext_find? {xs ys : List (String × α)} (hx : Ordered xs) (hy : Ordered ys)
    (h : ∀ k, find? k xs = find? k ys) : xs = ys := by
  induction xs generalizing ys with
  | nil =>
    cases ys with
    | nil => rfl
    | cons e _ => simpa [find?] using h e.1
  | cons e rest ih =>
    obtain ⟨k, v⟩ := e
    obtain ⟨hk, hrest⟩ := List.pairwise_cons.1 hx
    cases ys with
    | nil => simpa [find?] using h k
    | cons e' rest' =>
      obtain ⟨k', v'⟩ := e'
      obtain ⟨hk', hrest'⟩ := List.pairwise_cons.1 hy
      have hkk : k = k' := by
        refine String.le_antisymm (String.not_lt.1 fun hlt => ?_) (String.not_lt.1 fun hlt => ?_)
        · have hnone : find? k' ((k, v) :: rest) = none := find?_eq_none_of_lt fun b hb => by
            rcases List.mem_cons.1 hb with rfl | hb
            · exact hlt
            · exact String.lt_trans hlt (hk b hb)
          have hget := h k'
          rw [hnone] at hget
          simp [find?] at hget
        · have hnone : find? k ((k', v') :: rest') = none := find?_eq_none_of_lt fun b hb => by
            rcases List.mem_cons.1 hb with rfl | hb
            · exact hlt
            · exact String.lt_trans hlt (hk' b hb)
          have hget := h k
          rw [hnone] at hget
          simp [find?] at hget
      subst hkk
      have hv : v = v' := by simpa [find?] using h k
      subst hv
      refine congrArg _ (ih hrest hrest' fun j => ?_)
      by_cases hj : j = k
      · subst hj
        rw [find?_eq_none_of_lt hk, find?_eq_none_of_lt hk']
      · simpa [find?, hj] using h j

end Ordered

/-! ## §2. The maps. -/

/-- A finite map from strings: its bindings, ordered by key. -/
structure Dict (α : Type u) where
  /-- The bindings, in the order of their keys. -/
  entries : List (String × α)
  /-- Keys increase strictly, so no key is bound twice. -/
  ordered : Ordered entries := by decide

namespace Dict

variable {α : Type u} {β : Type v}

/-- The map that binds nothing. -/
def empty : Dict α := ⟨[], List.Pairwise.nil⟩

instance : EmptyCollection (Dict α) := ⟨empty⟩

instance : Inhabited (Dict α) := ⟨empty⟩

theorem ext {d e : Dict α} (h : d.entries = e.entries) : d = e := by
  cases d; cases e; congr

instance [DecidableEq α] : DecidableEq (Dict α) := fun d e =>
  if h : d.entries = e.entries then isTrue (ext h) else isFalse fun heq => h (heq ▸ rfl)

instance [Repr α] : Repr (Dict α) := ⟨fun d n => reprPrec d.entries n⟩

/-- Binds `key` to `value`, whatever `key` was bound to before. -/
def insert (d : Dict α) (key : String) (value : α) : Dict α :=
  ⟨Ordered.insert key value d.entries, Ordered.insert_ordered key value d.ordered⟩

/-- The value bound to `key`. -/
def get? (d : Dict α) (key : String) : Option α :=
  Ordered.find? key d.entries

/-- Is anything bound to `key`? -/
def contains (d : Dict α) (key : String) : Bool :=
  (d.get? key).isSome

/-- Unbinds `key`. -/
def erase (d : Dict α) (key : String) : Dict α :=
  ⟨d.entries.filter (fun b => b.1 ≠ key), d.ordered.filter _⟩

/-- The bound keys, in order. -/
def keys (d : Dict α) : List String :=
  d.entries.map Prod.fst

/-- The number of bindings. -/
def size (d : Dict α) : Nat :=
  d.entries.length

/-- Does the map bind nothing? -/
def isEmpty (d : Dict α) : Bool :=
  d.entries.isEmpty

/-- The map of a list of bindings; the last binding of a key counts. -/
def ofList (bindings : List (String × α)) : Dict α :=
  ⟨Ordered.ofList bindings, Ordered.ofList_ordered bindings⟩

/-- A map is the map of its bindings. -/
theorem ofList_entries (d : Dict α) : ofList d.entries = d :=
  ext (Ordered.ofList_of_ordered d.ordered)

@[simp] theorem get?_empty (k : String) : (empty : Dict α).get? k = none := rfl

@[simp] theorem get?_insert (d : Dict α) (key k : String) (value : α) :
    (d.insert key value).get? k = if k = key then some value else d.get? k :=
  Ordered.find?_insert key k value d.entries

/-- **A map is determined by its look-ups.** -/
theorem ext_get? {d e : Dict α} (h : ∀ k, d.get? k = e.get? k) : d = e :=
  ext (Ordered.ext_find? d.ordered e.ordered h)

@[simp] theorem get?_erase (d : Dict α) (key k : String) :
    (d.erase key).get? k = if k = key then none else d.get? k :=
  Ordered.find?_filter key k d.entries

theorem contains_iff {d : Dict α} {k : String} : d.contains k = true ↔ ∃ v, d.get? k = some v := by
  simp [contains, Option.isSome_iff_exists]

theorem mem_keys_iff {d : Dict α} {k : String} : k ∈ d.keys ↔ ∃ v, d.get? k = some v := by
  simp only [keys, List.mem_map, Prod.exists, get?]
  constructor
  · rintro ⟨key, v, hmem, rfl⟩
    exact ⟨v, (Ordered.mem_iff_find? d.ordered key v).1 hmem⟩
  · rintro ⟨v, hfind⟩
    exact ⟨k, v, (Ordered.mem_iff_find? d.ordered k v).2 hfind, rfl⟩

/-- No key is bound twice. -/
theorem nodup_keys (d : Dict α) : d.keys.Nodup :=
  List.pairwise_map.2 (d.ordered.imp fun {a b} hlt (heq : a.1 = b.1) =>
    String.lt_irrefl b.1 (heq ▸ hlt))

@[simp] theorem length_keys (d : Dict α) : d.keys.length = d.size := by
  simp [keys, size]

end Dict

end AnnotationCache

/-
  AnnotationCache.Proofs.Json.Reading
  ───────────────────────────────────
  **READING JSON IS GRADED.**

  Each bracket takes one off the room for brackets, wherever it stands: around
  items, around members, and around a record that is written in either way.  So a
  value that is read nests no deeper than there is room for it; it is canonical,
  as its numbers are in range and its members were gathered in order.

  Main statements:
    * `Place.of_valueWithin` — what is read of a value;
    * `Place.graded`         — JSON is a graded format;
    * `keep_decode`          — what holds of a record that a text was read as.
-/
import AnnotationCache.Json.Decode
import AnnotationCache.Proofs.Json.Numeral
import AnnotationCache.Proofs.Json.Value
import AnnotationCache.Proofs.Record

namespace AnnotationCache.Json

/-! ## §1. Arrays and objects. -/

/-- Canonical values within some room make a canonical array. -/
theorem canonical_arr {items : List Json} {room : Nat}
    (h : ∀ v ∈ items, v.canonical = true ∧ v.depth ≤ room) :
    (Json.arr items).canonical = true ∧ (Json.arr items).depth ≤ room + 1 := by
  rw [canonical, depth]
  exact ⟨canonicalItems_iff.2 fun v hv => (h v hv).1,
    Nat.succ_le_succ (depthItems_le_iff.2 fun v hv => (h v hv).2)⟩

/-- They make a canonical object too, whatever order they come in. -/
theorem canonical_ofMembers {members : List (String × Json)} {room : Nat}
    (h : ∀ b ∈ members, b.2.canonical = true ∧ b.2.depth ≤ room) :
    (Json.ofMembers members).canonical = true ∧ (Json.ofMembers members).depth ≤ room + 1 := by
  unfold ofMembers
  rw [canonical, depth, Bool.and_eq_true, decide_eq_true_eq]
  exact ⟨⟨Ordered.ofList_ordered members,
      canonicalMembers_iff.2 fun b hb => (h b (Ordered.mem_of_mem_ofList hb)).1⟩,
    Nat.succ_le_succ (depthMembers_le_iff.2 fun b hb => (h b (Ordered.mem_of_mem_ofList hb)).2)⟩

/-! ## §2. Collections. -/

namespace Place

variable {p : Place} {t : Tree}

/-- Inside a bracket there is less room. -/
theorem room_inside (h : p.room ≠ 0) (t : Tree) : (p.inside t).room < p.room :=
  Nat.sub_lt (Nat.pos_of_ne_zero h) Nat.one_pos

/-- Where something else stands nothing is read. -/
theorem not_returns_mismatch {α : Type} {expected : String} {a : α} :
    ¬ Returns (p.mismatch expected : Reading α) a := by
  intro h
  obtain ⟨found, -, h⟩ := Returning.of_bind h
  cases h

/-- **Items are read one by one**, inside a bracket. -/
theorem of_list {α : Type} {item : Place → Reading α} {values : List α}
    (h : Returns (list item p) values) :
    ∀ a ∈ values, ∃ q : Place, q.room < p.room ∧ Returns (item q) a := by
  unfold list at h
  split at h
  next items closed _ =>
    dsimp only at h
    by_cases hroom : p.room = 0
    · rw [if_pos hroom] at h
      cases h
    · rw [if_neg hroom] at h
      obtain ⟨read, hread, h⟩ := Returning.of_bind h
      cases closed with
      | false => cases h
      | true =>
          obtain rfl := Returning.of_pure h
          intro a ha
          obtain ⟨t, -, hitem⟩ := returns_mapM hread a ha
          exact ⟨p.inside t, room_inside hroom t, hitem⟩
  next => exact absurd h not_returns_mismatch

/-- **The values of members are read one by one**, inside a bracket. -/
theorem of_bindings {α : Type} {value : Place → Reading α} {read : List (String × α)}
    (h : Returns (bindings value p) read) :
    ∀ b ∈ read, ∃ q : Place, q.room < p.room ∧ Returns (value q) b.2 := by
  unfold bindings at h
  split at h
  next members closed _ =>
    dsimp only at h
    by_cases hroom : p.room = 0
    · rw [if_pos hroom] at h
      cases h
    · rw [if_neg hroom] at h
      obtain ⟨found, hfound, h⟩ := Returning.of_bind h
      cases closed with
      | false => cases h
      | true =>
          obtain rfl := Returning.of_pure h
          intro b hb
          obtain ⟨⟨key, t⟩, -, hmember⟩ := returns_mapM hfound b hb
          cases key with
          | none => cases hmember
          | some key =>
              obtain ⟨v, hv, hmember⟩ := Returning.of_bind hmember
              obtain rfl := Returning.of_pure hmember
              exact ⟨p.inside t, room_inside hroom t, hv⟩
  next => cases h
  next => exact absurd h not_returns_mismatch

/-! ## §3. Records. -/

section Records

variable {σ : Type} {schema : Schema Reading Place σ} {I : σ → Prop}
  (hkeeps : schema.Keeps room p.room I)

include hkeeps

/-- What is read of members keeps what the fields keep. -/
theorem keep_members (hroom : p.room ≠ 0) {slots read : Slots σ} {members : List (Option String × Tree)}
    (hslots : slots.Keep I) (h : Returns (Place.members schema p slots members) read) :
    read.Keep I := by
  induction members generalizing slots with
  | nil =>
      obtain rfl := Except.ok.inj h
      exact hslots
  | cons member rest ih =>
      obtain ⟨key, t⟩ := member
      unfold Place.members at h
      cases key with
      | none => cases h
      | some name =>
          dsimp only at h
          cases hfield : schema.field? name with
          | none =>
              rw [hfield] at h
              obtain ⟨-, -, h⟩ := Returning.of_bind h
              exact ih hslots h
          | some f =>
              rw [hfield] at h
              dsimp only at h
              cases hnew : slots.has name with
              | true =>
                  rw [hnew] at h
                  cases h
              | false =>
                  rw [hnew] at h
                  obtain ⟨change, hchange, h⟩ := Returning.of_bind h
                  refine ih (List.forall_mem_cons.2 ⟨?_, hslots⟩) h
                  exact hkeeps.field f (Schema.mem_of_field? hfield) _ (room_inside hroom t) change
                    hchange

/-- What is read of items keeps it too. -/
theorem keep_items (hroom : p.room ≠ 0) {closed : Bool} {count : Nat} {start record : σ}
    {fields : List (Field Reading Place σ)} {trees : List Tree}
    (hfields : ∀ f ∈ fields, f ∈ schema.fields) (hstart : I start)
    (h : Returns (items schema p closed count start fields trees) record) : I record := by
  induction fields generalizing count start trees with
  | nil =>
      cases trees with
      | nil =>
          rw [items] at h
          cases closed with
          | false => cases h
          | true =>
              obtain rfl := Except.ok.inj h
              exact hstart
      | cons t rest =>
          unfold items at h
          split at h
          next => cases h
          next => cases h
  | cons f fields ih =>
      obtain ⟨hf, hrest⟩ := List.forall_mem_cons.1 hfields
      cases trees with
      | nil =>
          -- The fields that are left are left out.
          rw [items] at h
          split at h
          next => cases h
          next =>
            split at h
            next => cases h
            next => exact ih hrest hstart h
      | cons t rest =>
          rw [items] at h
          obtain ⟨change, hchange, h⟩ := Returning.of_bind h
          exact ih hrest (hkeeps.field f hf _ (room_inside hroom t) change hchange start hstart) h

/-- **What the fields of a record keep holds of a record that is read.** -/
theorem keep_record {record : σ} (h : Returns (Place.record schema p) record) : I record := by
  unfold Place.record at h
  split at h
  next members closed _ =>
    dsimp only at h
    by_cases hroom : p.room = 0
    · rw [if_pos hroom] at h
      cases h
    · rw [if_neg hroom] at h
      obtain ⟨slots, hslots, h⟩ := Returning.of_bind h
      have hkeep := keep_members hkeeps hroom (fun slot hslot => by cases hslot) hslots
      cases closed with
      | false => cases h
      | true =>
          cases hassemble : schema.assemble slots with
          | error name =>
              simp only [hassemble] at h
              cases h
          | ok value =>
              simp only [hassemble] at h
              obtain rfl := Returning.of_pure h
              exact Schema.assemble_keeps hkeeps.blank hkeep hassemble
  next trees closed _ =>
    by_cases hroom : p.room = 0
    · rw [if_pos hroom] at h
      cases h
    · rw [if_neg hroom] at h
      exact keep_items hkeeps hroom (fun f hf => hf) hkeeps.blank h
  next => cases h
  next => exact absurd h not_returns_mismatch

end Records

/-! ## §4. Values. -/

/-- **What is read of a value is canonical**, and nests no deeper than there is room. -/
theorem of_valueWithin {room : Nat} {strictness : Strictness} {t : Tree} {v : Json}
    (h : Returns (valueWithin room strictness t) v) : v.canonical = true ∧ v.depth ≤ room := by
  fun_induction valueWithin room strictness t generalizing v with
  | case1 => cases h; exact ⟨rfl, Nat.zero_le _⟩
  | case2 => cases h; exact ⟨rfl, Nat.zero_le _⟩
  | case3 _ _ n i hnumber => cases h; exact ⟨Numeral.fitsWord_of_number hnumber, Nat.zero_le _⟩
  | case4 _ _ n x hnumber => cases h; exact ⟨Numeral.isFinite_of_number hnumber, Nat.zero_le _⟩
  | case6 => cases h; exact ⟨rfl, Nat.zero_le _⟩
  | case9 strictness items closed room ih =>
      obtain ⟨values, hvalues, rfl⟩ := returns_map h
      refine canonical_arr fun v hv => ?_
      obtain ⟨q, -, hq⟩ := of_list hvalues v hv
      exact ih q hq
  | case11 strictness members closed room ih =>
      obtain ⟨read, hread, rfl⟩ := returns_map h
      refine canonical_ofMembers fun b hb => ?_
      obtain ⟨q, -, hq⟩ := of_bindings hread b hb
      exact ih q hq
  -- All that is left are faults.
  | case5 | case7 | case8 | case10 | case12 | case13 => cases h

/-- **JSON is a graded format.** -/
theorem graded : format.Graded Place.room where
  list := of_list
  dict h b hb := by
    obtain ⟨read, hread, rfl⟩ := returns_map h
    exact of_bindings hread b (Ordered.mem_of_mem_ofList hb)
  value := of_valueWithin
  record hkeeps h := keep_record hkeeps h

end Place

/-- **What its fields keep holds of a record that a whole text was read as.** -/
theorem keep_decode {σ : Type} {schema : Schema Reading Place σ} {I : σ → Prop} {text : String}
    {record : σ} (hkeeps : schema.Keeps Place.room maxDepth I)
    (h : decode (·.record schema) text = .ok record) : I record := by
  unfold decode at h
  dsimp only at h
  obtain ⟨read, hread, h⟩ := bind_eq_ok h
  have hrecord : I read := Place.keep_record hkeeps hread
  split at h
  next =>
    obtain rfl := Except.ok.inj h
    exact hrecord
  next => cases h

end AnnotationCache.Json

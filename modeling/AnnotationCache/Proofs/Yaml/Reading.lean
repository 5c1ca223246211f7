/-
  AnnotationCache.Proofs.Yaml.Reading
  ───────────────────────────────────
  **READING YAML IS GRADED.**

  A collection takes one off the room for collections, and an alias stands for its
  node where the alias stands, with the room that is there.  So a value nests no
  deeper than there is room for it, whatever aliases stand for; and it is
  canonical, as integers that do not fit a word are faults and floats that are not
  finite are read as null.

  Main statements:
    * `scalar_scalarValue`     — what a scalar means is canonical;
    * `Place.of_valueWithin`   — what is read of a value;
    * `Place.graded`           — YAML is a graded format;
    * `keep_decode`            — what holds of a record that a text was read as.
-/
import AnnotationCache.Proofs.Json.Reading
import AnnotationCache.Yaml.Decode

namespace AnnotationCache.Yaml

/-! ## §1. Scalars. -/

/-- Is a value a scalar that JSON text can hold? -/
def Scalar (v : Json) : Prop :=
  v.canonical = true ∧ v.depth = 0

theorem scalar_integerValue {n : Int} {v : Json} (h : integerValue n = .ok v) : Scalar v := by
  unfold integerValue at h
  split at h
  next hfits =>
    cases h
    exact ⟨hfits, rfl⟩
  next => cases h

theorem isFinite_of_finite? {negative : Bool} {text : List Char} {x : Double}
    (h : finite? negative text = some x) : x.isFinite = true := by
  unfold finite? at h
  obtain ⟨digits, -, h⟩ := Option.bind_eq_some_iff.1 h
  obtain ⟨exponent, -, h⟩ := Option.bind_eq_some_iff.1 h
  obtain ⟨hfinite, hsome⟩ := Option.ite_none_right_eq_some.1 h
  obtain rfl := Option.some.inj hsome
  exact hfinite

theorem scalar_float? {text : String} {v : Json} (h : float? text = some v) : Scalar v := by
  have hsigned : ∀ (negative : Bool) (rest : List Char),
      (if infinityWords.contains (String.ofList rest) then some Json.null
        else (finite? negative rest).map .float) = some v → Scalar v := by
    intro negative rest h
    split at h
    next =>
      cases h
      exact ⟨rfl, rfl⟩
    next =>
      obtain ⟨x, hx, rfl⟩ := Option.map_eq_some_iff.1 h
      exact ⟨isFinite_of_finite? hx, rfl⟩
  unfold float? at h
  split at h
  next =>
    cases h
    exact ⟨rfl, rfl⟩
  next =>
    split at h
    next rest _ => exact hsigned true rest h
    next rest _ => exact hsigned false rest h
    next => exact hsigned false _ h

theorem scalar_plainValue {text : String} {v : Json} (h : plainValue text = .ok v) : Scalar v := by
  unfold plainValue at h
  split at h
  next =>
    cases h
    exact ⟨rfl, rfl⟩
  next =>
    split at h
    next b _ =>
      cases h
      exact ⟨rfl, rfl⟩
    next =>
      split at h
      next n _ => exact scalar_integerValue h
      next =>
        split at h
        next =>
          cases h
          exact ⟨rfl, rfl⟩
        next =>
          -- What is spelt like no float is a text.
          cases hfloat : float? text with
          | none =>
              rw [hfloat] at h
              cases h
              exact ⟨rfl, rfl⟩
          | some x =>
              rw [hfloat] at h
              cases h
              exact scalar_float? hfloat

theorem scalar_coreValue {kind : CoreTag} {text : String} {v : Json}
    (h : kind.value text = .ok v) : Scalar v := by
  cases kind with
  | boolean =>
      cases hword : booleanWords.lookup text with
      | none =>
          simp only [CoreTag.value, hword] at h
          cases h
      | some b =>
          simp only [CoreTag.value, hword] at h
          cases h
          exact ⟨rfl, rfl⟩
  | integer =>
      cases hinteger : integer? text.toList with
      | none =>
          simp only [CoreTag.value, hinteger] at h
          cases h
      | some n =>
          simp only [CoreTag.value, hinteger] at h
          exact scalar_integerValue h
  | float =>
      cases hfloat : float? text with
      | none =>
          simp only [CoreTag.value, hfloat] at h
          cases h
      | some x =>
          simp only [CoreTag.value, hfloat] at h
          cases h
          exact scalar_float? hfloat
  | null =>
      cases hword : isNullWord text with
      | false =>
          simp only [CoreTag.value, hword] at h
          cases h
      | true =>
          simp only [CoreTag.value, hword] at h
          cases h
          exact ⟨rfl, rfl⟩

/-- **What a scalar means is canonical.** -/
theorem scalar_scalarValue {tag : Option Tag} {style : Style} {text : String} {v : Json}
    (h : scalarValue tag style text = .ok v) : Scalar v := by
  have htext : ∀ {plain : Prop} [Decidable plain],
      (if plain then plainValue text else .ok (.str text)) = .ok v → Scalar v := by
    intro plain _ h
    split at h
    next => exact scalar_plainValue h
    next =>
      cases h
      exact ⟨rfl, rfl⟩
  unfold scalarValue at h
  split at h
  next => exact htext h
  next tag =>
    split at h
    next => cases h
    next =>
      split at h
      next kind _ => exact scalar_coreValue h
      next => exact htext h

/-! ## §2. Collections. -/

/-- Where reading fails nothing is read. -/
theorem not_returns_fail {α : Type} {reason : String} {a : α} :
    ¬ Returns (Reading.fail reason : Reading α) a := by
  rintro ⟨document, count, count', h⟩
  have hfail : (Except.error { reason := reason } : Except Fault (α × Nat)) = .ok (a, count') := h
  cases hfail

theorem of_lift {α : Type} {x : Except Fault α} {a : α} (h : Returns (liftM x : Reading α) a) :
    x = .ok a := by
  obtain ⟨document, count, count', h⟩ := h
  cases x with
  | error fault =>
      have hfail : (Except.error fault : Except Fault (α × Nat)) = .ok (a, count') := h
      cases hfail
  | ok b =>
      have hok : (Except.ok (b, count) : Except Fault (α × Nat)) = .ok (a, count') := h
      cases hok
      rfl

namespace Place

variable {p : Place}

/-- A collection is opened only where there is room. -/
theorem room_of_enter {u : PUnit} (h : Returns p.enter u) : p.room ≠ 0 := by
  intro hroom
  unfold enter at h
  rw [if_pos hroom] at h
  exact not_returns_fail h

/-- Inside of it there is less. -/
theorem room_inside (h : p.room ≠ 0) (node : Node Nat) : (p.inside node).room < p.room :=
  Nat.sub_lt (Nat.pos_of_ne_zero h) Nat.one_pos

/-- **Items are read one by one**, inside a collection. -/
theorem of_list {α : Type} {item : Place → Reading α} {values : List α}
    (h : Returns (list item p) values) :
    ∀ a ∈ values, ∃ q : Place, q.room < p.room ∧ Returns (item q) a := by
  unfold list at h
  obtain ⟨node, -, h⟩ := Returning.of_bind h
  split at h
  next items =>
    obtain ⟨_, henter, h⟩ := Returning.of_bind h
    intro a ha
    obtain ⟨node, -, hitem⟩ := returns_mapM h a ha
    exact ⟨p.inside node, room_inside (room_of_enter henter) node, hitem⟩
  next =>
    -- Nothing at all stands for no items.
    split at h
    next =>
      obtain rfl := Returning.of_pure h
      simp
    next => exact absurd h not_returns_fail

/-- **The values of entries are read one by one**, inside a collection. -/
theorem of_bindings {α : Type} {value : Place → Reading α} {read : List (String × α)}
    (h : Returns (bindings value p) read) :
    ∀ b ∈ read, ∃ q : Place, q.room < p.room ∧ Returns (value q) b.2 := by
  unfold bindings at h
  obtain ⟨node, -, h⟩ := Returning.of_bind h
  split at h
  next entries =>
    obtain ⟨_, henter, h⟩ := Returning.of_bind h
    intro b hb
    obtain ⟨⟨key, node⟩, -, hentry⟩ := returns_mapM h b hb
    obtain ⟨name, -, hentry⟩ := Returning.of_bind hentry
    obtain ⟨v, hv, hentry⟩ := Returning.of_bind hentry
    obtain rfl := Returning.of_pure hentry
    exact ⟨p.inside node, room_inside (room_of_enter henter) node, hv⟩
  next =>
    split at h
    next =>
      obtain rfl := Returning.of_pure h
      simp
    next => exact absurd h not_returns_fail

/-! ## §3. Records. -/

section Records

variable {σ : Type} {schema : Schema Reading Place σ} {I : σ → Prop}

theorem keep_assemble {slots : Slots σ} {record : σ} (hblank : I schema.blank)
    (hslots : slots.Keep I) (h : Returns (assemble schema slots) record) : I record := by
  unfold assemble at h
  cases hassemble : schema.assemble slots with
  | error name =>
      rw [hassemble] at h
      exact absurd h not_returns_fail
  | ok value =>
      rw [hassemble] at h
      obtain rfl := Returning.of_pure h
      exact Schema.assemble_keeps hblank hslots hassemble

variable (hkeeps : schema.Keeps room p.room I)

include hkeeps

/-- What is read of entries keeps what the fields keep. -/
theorem keep_members (hroom : p.room ≠ 0) {slots read : Slots σ}
    {entries : List (Node Nat × Node Nat)} (hslots : slots.Keep I)
    (h : Returns (members schema p slots entries) read) : read.Keep I := by
  induction entries generalizing slots with
  | nil =>
      rw [members] at h
      obtain rfl := Returning.of_pure h
      exact hslots
  | cons entry rest ih =>
      obtain ⟨key, node⟩ := entry
      rw [members] at h
      obtain ⟨name, -, h⟩ := Returning.of_bind h
      cases hfield : schema.field? name with
      | none =>
          rw [hfield] at h
          exact ih hslots h
      | some f =>
          rw [hfield] at h
          dsimp only at h
          cases hnew : slots.has name with
          | true =>
              rw [hnew] at h
              obtain ⟨_, h, -⟩ := Returning.of_bind h
              exact absurd h not_returns_fail
          | false =>
              rw [hnew] at h
              obtain ⟨change, hchange, h⟩ := Returning.of_bind h
              refine ih (List.forall_mem_cons.2 ⟨?_, hslots⟩) h
              exact hkeeps.field f (Schema.mem_of_field? hfield) _ (room_inside hroom node) change
                hchange

/-- **What the fields of a record keep holds of a record that is read.** -/
theorem keep_record {record : σ} (h : Returns (Place.record schema p) record) : I record := by
  have hnone : Slots.Keep ([] : Slots σ) I := fun slot hslot => by cases hslot
  unfold Place.record at h
  obtain ⟨node, -, h⟩ := Returning.of_bind h
  split at h
  next entries =>
    obtain ⟨_, henter, h⟩ := Returning.of_bind h
    obtain ⟨slots, hslots, h⟩ := Returning.of_bind h
    exact keep_assemble hkeeps.blank (keep_members hkeeps (room_of_enter henter) hnone hslots) h
  next =>
    split at h
    next => exact keep_assemble hkeeps.blank hnone h
    next => exact absurd h not_returns_fail

end Records

/-! ## §4. Values. -/

/-- **What is read of a value is canonical**, and nests no deeper than there is room. -/
theorem of_valueWithin {room : Nat} {node : Node Nat} {v : Json}
    (h : Returns (valueWithin room node) v) : v.canonical = true ∧ v.depth ≤ room := by
  induction room generalizing node v with
  | zero =>
      unfold valueWithin at h
      obtain ⟨target, -, h⟩ := Returning.of_bind h
      cases target with
      | scalar anchor tag style text =>
          obtain ⟨hcanonical, hdepth⟩ := scalar_scalarValue (of_lift h)
          exact ⟨hcanonical, Nat.le_of_eq hdepth⟩
      | _ => exact absurd h not_returns_fail
  | succ room ih =>
      unfold valueWithin at h
      obtain ⟨target, -, h⟩ := Returning.of_bind h
      cases target with
      | scalar anchor tag style text =>
          obtain ⟨hcanonical, hdepth⟩ := scalar_scalarValue (of_lift h)
          exact ⟨hcanonical, hdepth.symm ▸ Nat.zero_le _⟩
      | sequence anchor tag items =>
          obtain ⟨_, -, h⟩ := Returning.of_bind h
          obtain ⟨values, hvalues, rfl⟩ := returns_map h
          refine Json.canonical_arr fun v hv => ?_
          obtain ⟨q, -, hq⟩ := of_list hvalues v hv
          exact ih hq
      | mapping anchor tag entries =>
          obtain ⟨_, -, h⟩ := Returning.of_bind h
          obtain ⟨read, hread, rfl⟩ := returns_map h
          refine Json.canonical_ofMembers fun b hb => ?_
          obtain ⟨q, -, hq⟩ := of_bindings hread b hb
          exact ih hq
      | _ => exact absurd h not_returns_fail

/-- **YAML is a graded format.** -/
theorem graded : format.Graded Place.room where
  list := of_list
  dict h b hb := by
    obtain ⟨read, hread, rfl⟩ := returns_map h
    exact of_bindings hread b (Ordered.mem_of_mem_ofList hb)
  value := of_valueWithin
  record hkeeps h := keep_record hkeeps h

end Place

/-- **What its fields keep holds of a record that a whole text was read as**; a text without
a document leaves all of them out. -/
theorem keep_decode {σ : Type} {schema : Schema Reading Place σ} {I : σ → Prop} {text : String}
    {record : σ} (hkeeps : schema.Keeps Place.room maxDepth I)
    (h : decode schema text = .ok record) : I record := by
  unfold decode at h
  obtain ⟨document, -, h⟩ := bind_eq_ok h
  obtain ⟨⟨read, count⟩, hread, h⟩ := bind_eq_ok h
  obtain rfl := Except.ok.inj h
  cases hroot : document.root with
  | some root =>
      rw [hroot] at hread
      have hrecord : Returns (Place.record schema ⟨maxDepth, root⟩) read := ⟨document, 0, count, hread⟩
      exact Place.keep_record hkeeps hrecord
  | none =>
      rw [hroot] at hread
      have hrecord : Returns (Place.assemble schema []) read := ⟨document, 0, count, hread⟩
      exact Place.keep_assemble hkeeps.blank (fun slot hslot => by cases hslot) hrecord

end AnnotationCache.Yaml

/-
  AnnotationCache.Proofs.Record
  ─────────────────────────────
  **WHAT IS READ OF A RECORD, WHATEVER THE FORMAT.**

  A place of a text has room for so many brackets, and what is inside of it has
  less.  A format is **graded** when it reads the parts of a collection and the
  fields of a record at places with less room, and no value that nests deeper
  than there is room.  What holds of all that a description of a record can read
  then follows from the description alone.

  Formats read by actions of different kinds.  All that is asked of these is what
  they can return (`Returns`), with what environment and from what state ever.

  Main statements:
    * `returns_mapM`            — what is read of a list is read item by item;
    * `Schema.assemble_keeps`   — a record that is put together from fields that
      keep what holds of it;
    * `RecordFormat.Graded`     — what is asked of a format.
-/
import AnnotationCache.Record.Format

namespace AnnotationCache

/-! ## §1. What actions can return. -/

/-- **What actions can return**, told of one action after the other. -/
class Returning (m : Type → Type) [Monad m] where
  /-- Can the action return this? -/
  Returns : {α : Type} → m α → α → Prop
  of_pure : ∀ {α : Type} {a b : α}, Returns (pure a : m α) b → b = a
  of_bind : ∀ {α β : Type} {x : m α} {f : α → m β} {b : β},
    Returns (x >>= f) b → ∃ a, Returns x a ∧ Returns (f a) b

export Returning (Returns)

instance {ε : Type} : Returning (Except ε) where
  Returns x a := x = .ok a
  of_pure h := (Except.ok.inj h).symm
  of_bind {_ _ x _ _} h := by
    cases x with
    | error e => cases h
    | ok a => exact ⟨a, rfl, h⟩

/-- What a sequence that succeeds has come to on the way. -/
theorem bind_eq_ok {ε α β : Type} {x : Except ε α} {f : α → Except ε β} {b : β}
    (h : x >>= f = .ok b) : ∃ a, x = .ok a ∧ f a = .ok b := by
  have hreturns : Returns (x >>= f) b := h
  exact Returning.of_bind hreturns

instance {ρ : Type} {m : Type → Type} [Monad m] [Returning m] : Returning (ReaderT ρ m) where
  Returns x a := ∃ environment, Returns (x environment) a
  of_pure h := by
    obtain ⟨environment, h⟩ := h
    exact Returning.of_pure h
  of_bind h := by
    obtain ⟨environment, h⟩ := h
    obtain ⟨a, hx, hf⟩ := Returning.of_bind h
    exact ⟨a, ⟨environment, hx⟩, environment, hf⟩

instance {σ : Type} {m : Type → Type} [Monad m] [Returning m] : Returning (StateT σ m) where
  Returns x a := ∃ state state', Returns (x state) (a, state')
  of_pure h := by
    obtain ⟨state, state', h⟩ := h
    exact congrArg Prod.fst (Returning.of_pure h)
  of_bind h := by
    obtain ⟨state, state', h⟩ := h
    obtain ⟨⟨a, between⟩, hx, hf⟩ := Returning.of_bind h
    exact ⟨a, ⟨state, between, hx⟩, between, state', hf⟩

/-- What is made of what an action returns. -/
theorem returns_bind_pure {m : Type → Type} [Monad m] [Returning m] {α β : Type} {x : m α}
    {f : α → β} {b : β} (h : Returns (x >>= fun a => pure (f a)) b) : ∃ a, Returns x a ∧ b = f a := by
  obtain ⟨a, hx, hf⟩ := Returning.of_bind h
  exact ⟨a, hx, Returning.of_pure hf⟩

section Sequences

variable {m : Type → Type} [Monad m] [LawfulMonad m] [Returning m] {α β : Type}

theorem returns_map {f : α → β} {x : m α} {b : β} (h : Returns (f <$> x) b) :
    ∃ a, Returns x a ∧ b = f a := by
  rw [map_eq_pure_bind] at h
  exact returns_bind_pure h

/-- **What is read of a list is read item by item.** -/
theorem returns_mapM {read : α → m β} {xs : List α} {ys : List β} (h : Returns (xs.mapM read) ys) :
    ∀ y ∈ ys, ∃ x ∈ xs, Returns (read x) y := by
  induction xs generalizing ys with
  | nil =>
      rw [List.mapM_nil] at h
      obtain rfl := Returning.of_pure h
      simp
  | cons x xs ih =>
      rw [List.mapM_cons] at h
      obtain ⟨first, hfirst, h⟩ := Returning.of_bind h
      obtain ⟨others, hothers, h⟩ := Returning.of_bind h
      obtain rfl := Returning.of_pure h
      refine List.forall_mem_cons.2 ⟨⟨x, List.mem_cons_self, hfirst⟩, fun y hy => ?_⟩
      obtain ⟨x', hx', hread⟩ := ih hothers y hy
      exact ⟨x', List.mem_cons_of_mem x hx', hread⟩

end Sequences

/-! ## §2. What holds of a record. -/

variable {m : Type → Type} [Monad m] [Returning m] {τ σ : Type}

/-- **Does something hold of a record that is left out, and keep holding** whatever is read
of a field, where there is less room than so much? -/
structure Schema.Keeps (schema : Schema m τ σ) (room : τ → Nat) (top : Nat) (I : σ → Prop) :
    Prop where
  blank : I schema.blank
  field : ∀ f ∈ schema.fields, ∀ q, room q < top → ∀ change, Returns (f.read q) change →
    ∀ record, I record → I (change record)

/-- The effects of some fields keep what holds of a record. -/
def Slots.Keep (slots : Slots σ) (I : σ → Prop) : Prop :=
  ∀ slot ∈ slots, ∀ record, I record → I (slot.2 record)

omit [Monad m] [Returning m] in
theorem Schema.mem_of_field? {schema : Schema m τ σ} {name : String} {f : Field m τ σ}
    (h : schema.field? name = some f) : f ∈ schema.fields :=
  List.mem_of_find?_eq_some h

omit [Monad m] [Returning m] in
/-- **What the fields of a record keep holds of it once it is put together.** -/
theorem Schema.assemble_keeps {schema : Schema m τ σ} {I : σ → Prop} {slots : Slots σ}
    (hblank : I schema.blank) (hslots : slots.Keep I) {record : σ}
    (h : schema.assemble slots = .ok record) : I record := by
  unfold Schema.assemble at h
  generalize schema.blank = start at h hblank
  generalize schema.fields = fields at h
  induction fields generalizing start with
  | nil =>
      obtain rfl := Except.ok.inj h
      exact hblank
  | cons f fields ih =>
      rw [List.foldlM_cons] at h
      cases heffect : slots.effect? f.name with
      | some change =>
          rw [heffect] at h
          obtain ⟨front, rest, hfound, -⟩ := List.lookup_eq_some_iff.1 heffect
          have hmem : (f.name, change) ∈ slots := by
            rw [hfound]
            exact List.mem_append_right front List.mem_cons_self
          exact ih (change start) (hslots _ hmem start hblank) h
      | none =>
          rw [heffect] at h
          dsimp only at h
          split at h
          next => cases h
          next => exact ih start hblank h

/-! ## §3. Formats. -/

/-- **Is a format graded?**  What it reads of a part, it reads where there is less room,
and what it reads of a value nests no deeper than there is room. -/
structure RecordFormat.Graded (format : RecordFormat m τ) (room : τ → Nat) : Prop where
  list : ∀ {α : Type} {item : τ → m α} {p : τ} {values : List α},
    Returns (format.list item p) values →
      ∀ a ∈ values, ∃ q, room q < room p ∧ Returns (item q) a
  dict : ∀ {α : Type} {value : τ → m α} {p : τ} {values : Dict α},
    Returns (format.dict value p) values →
      ∀ b ∈ values.entries, ∃ q, room q < room p ∧ Returns (value q) b.2
  value : ∀ {p : τ} {v : Json}, Returns (format.value p) v → v.canonical = true ∧ v.depth ≤ room p
  record : ∀ {σ : Type} {schema : Schema m τ σ} {I : σ → Prop} {p : τ} {record : σ},
    schema.Keeps room (room p) I → Returns (format.record schema p) record → I record

end AnnotationCache

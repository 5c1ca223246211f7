/-
  AnnotationCache.Record
  ──────────────────────
  **RECORDS DESCRIBED FIELD BY FIELD.**

  Manifests and cache entries are records: some named fields, most with a
  default.  A `Schema` lists the fields of a record in their declared order
  and says how each is read; it does not know what text the fields come from,
  so one description of a record may serve several formats.

  Fields may come in any order.  What was read of each is kept in a slot under
  the field's name, and the record is put together from the slots at the end,
  in declared order.  So the order of the fields in a text cannot matter, and
  of several missing fields the first declared one is missed.
-/
namespace AnnotationCache

/-- One field of a record `σ`, read from places `τ` by actions in `m`. -/
structure Field (m : Type → Type) (τ σ : Type) where
  /-- The name that the field goes by. -/
  name : String
  /-- Must the field be there? -/
  required : Bool
  /-- Reads the field and says how it changes a record. -/
  read : τ → m (σ → σ)

/-- A record: what it is called, what it is when every field is left out, and
its fields in their declared order. -/
structure Schema (m : Type → Type) (τ σ : Type) where
  title : String
  blank : σ
  fields : List (Field m τ σ)

namespace Schema

variable {m : Type → Type} {τ σ : Type}

/-- The field that goes by a name. -/
def field? (schema : Schema m τ σ) (name : String) : Option (Field m τ σ) :=
  schema.fields.find? (fun f => f.name = name)

end Schema

/-- What was read of a record so far: the effects of its fields, by name. -/
abbrev Slots (σ : Type) := List (String × (σ → σ))

namespace Slots

variable {σ : Type}

/-- The effect of a field, if it was read. -/
def effect? (slots : Slots σ) (name : String) : Option (σ → σ) :=
  slots.lookup name

/-- Was the field read? -/
def has (slots : Slots σ) (name : String) : Bool :=
  (slots.effect? name).isSome

end Slots

namespace Schema

variable {m : Type → Type} {τ σ : Type}

/-- **Puts a record together**: the effects of its fields in declared order, or
the name of the first required field that was not read. -/
def assemble (schema : Schema m τ σ) (slots : Slots σ) : Except String σ :=
  schema.fields.foldlM
    (fun record f =>
      match slots.effect? f.name with
      | some change => .ok (change record)
      | none => if f.required then .error f.name else .ok record)
    schema.blank

end Schema

end AnnotationCache

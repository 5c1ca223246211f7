/-
  AnnotationCache.Record.Format
  ─────────────────────────────
  **WHAT A FORMAT OFFERS TO RECORDS.**

  A description of a record says which fields there are and which kind of
  value each holds.  How such values are written is the business of a format.
  `RecordFormat` lists the kinds of values that records of this library hold;
  a record that is described over it can be read from every format.
-/
import AnnotationCache.Json.Value
import AnnotationCache.Record

namespace AnnotationCache

/-- The ways to read a place `τ` of a text by actions in `m`. -/
structure RecordFormat (m : Type → Type) (τ : Type) where
  /-- Reads a text that stands for something. -/
  string : String → τ → m String
  /-- Reads such a text, or nothing. -/
  optionalString : String → τ → m (Option String)
  /-- Reads one of several words. -/
  variant : {α : Type} → List (String × α) → τ → m α
  /-- Reads items. -/
  list : {α : Type} → (τ → m α) → τ → m (List α)
  /-- Reads values under keys. -/
  dict : {α : Type} → (τ → m α) → τ → m (Dict α)
  /-- Reads a value of any kind. -/
  value : τ → m Json
  /-- Reads a record. -/
  record : {σ : Type} → Schema m τ σ → τ → m σ

end AnnotationCache

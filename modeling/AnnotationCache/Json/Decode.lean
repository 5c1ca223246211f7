/-
  AnnotationCache.Json.Decode
  ───────────────────────────
  **TAKING A MEANING FROM A TREE.**

  The functions below walk a tree from left to right and stop at the first
  problem.  Each takes the number of brackets that may still be opened: a text
  may nest 127 deep, and the 128th bracket is a fault of writing.

  A part that could not be interpreted when it was met is held back and read
  later; a sequence that is too long is reported differently then, which is
  what `Strictness` says.
-/
import AnnotationCache.Json.Problem
import AnnotationCache.Json.Tree.Read
import AnnotationCache.Record.Format

namespace AnnotationCache.Json

/-- The outcome of reading. -/
abbrev Reading (α : Type) := Except Problem α

/-- How deep the brackets of a text may nest. -/
def maxDepth : Nat := 127

/-- Is a part read where it stands, or was it held back? -/
inductive Strictness where
  | inPlace
  | heldBack
  deriving DecidableEq, Repr

/-- A place in a text: how many brackets may be opened there, and its tree. -/
structure Place where
  room : Nat
  strictness : Strictness
  tree : Tree

namespace Place

/-- A part of the tree, inside one more bracket. -/
def inside (p : Place) (tree : Tree) : Place :=
  { p with room := p.room - 1, tree := tree }

/-! ## §1. Wrong kinds. -/

/-- What a number counts as where something else was expected. -/
def foundNumber : Number → Found
  | .int n => .int n
  | .float x => .float x

/-- What stands at a place; a fault of writing goes first. -/
def found (p : Place) : Reading Found :=
  match p.tree with
  | .null => .ok .null
  | .bool b => .ok (.bool b)
  | .num n => match n.number with
    | some v => .ok (foundNumber v)
    | none => .error .malformed
  | .str (some s) => .ok (.str s)
  | .str none => .error .malformed
  | .arr _ _ => .ok .sequence
  | .obj _ _ => .ok .map
  | .misfit => .ok .map
  | .broken => .error .malformed

/-- The place holds something other than what is expected of it. -/
def mismatch {α : Type} (p : Place) (expected : String) : Reading α := do
  throw (.invalidType (← p.found) expected)

/-! ## §2. Simple kinds. -/

/-- Reads a string. -/
def string (expected : String) (p : Place) : Reading String :=
  match p.tree with
  | .str (some s) => .ok s
  | .str none => .error .malformed
  | _ => p.mismatch expected

/-- Reads a string, or nothing from `null`. -/
def optionalString (expected : String) (p : Place) : Reading (Option String) :=
  match p.tree with
  | .null => .ok none
  | _ => some <$> p.string expected

/-- Reads an integer of 64 bits with sign. -/
def int64 (p : Place) : Reading Int :=
  match p.tree with
  | .num n =>
      match n.number with
      | some (.int v) => if v < Word.half then .ok v else .error (.invalidValue (.int v) "i64")
      | some (.float x) => .error (.invalidType (.float x) "i64")
      | none => .error .malformed
  | _ => p.mismatch "i64"

/-- Passes over a part that nobody asks for. -/
def skip (p : Place) : Reading PUnit :=
  if p.tree.skippable then .ok ⟨⟩ else .error .malformed

/-- Chooses by name. -/
def choose {α : Type} (variants : List (String × α)) (name : String) : Reading α :=
  match variants.lookup name with
  | some v => .ok v
  | none => .error (.unknownVariant name (variants.map Prod.fst))

/-- Reads the name of a variant. -/
def variantName {α : Type} (variants : List (String × α)) (p : Place) : Reading α := do
  choose variants (← p.string "variant identifier")

/-- Reads a variant: its name, or an object with that name alone and nothing in it. -/
def variant {α : Type} (variants : List (String × α)) (p : Place) : Reading α :=
  match p.tree with
  | .str _ => p.variantName variants
  | .obj ((key, value) :: rest) closed => do
      if p.room = 0 then throw .malformed
      let some name := key | throw .malformed
      let v ← choose variants name
      match value with
      | .null => if rest.isEmpty && closed then return v else throw .malformed
      | value => (p.inside value).mismatch "unit"
  | _ => .error .malformed

/-! ## §3. Sequences, maps and records. -/

/-- Reads the items of an array. -/
def list {α : Type} (item : Place → Reading α) (p : Place) : Reading (List α) :=
  match p.tree with
  | .arr items closed => do
      if p.room = 0 then throw .malformed
      let values ← items.mapM (fun t => item (p.inside t))
      if closed then return values else throw .malformed
  | _ => p.mismatch "a sequence"

/-- Reads the members of an object as bindings, in the order of the text. -/
def bindings {α : Type} (value : Place → Reading α) (p : Place) :
    Reading (List (String × α)) :=
  match p.tree with
  | .obj members closed => do
      if p.room = 0 then throw .malformed
      let read ← members.mapM fun (key, t) => do
        let some k := key | throw .malformed
        return (k, ← value (p.inside t))
      if closed then return read else throw .malformed
  | .misfit => .error .malformed
  | _ => p.mismatch "a map"

/-- Reads an object as a map; a repeated key keeps its last value. -/
def dict {α : Type} (value : Place → Reading α) (p : Place) : Reading (Dict α) :=
  Dict.ofList <$> p.bindings value

/-- Reads the members of a record after those read already. -/
def members {σ : Type} (schema : Schema Reading Place σ) (p : Place) :
    Slots σ → List (Option String × Tree) → Reading (Slots σ)
  | slots, [] => .ok slots
  | slots, (key, t) :: rest => do
      let some name := key | throw .malformed
      match schema.field? name with
      | some f =>
          if slots.has name then throw (.duplicateField name)
          let change ← f.read (p.inside t)
          members schema p ((name, change) :: slots) rest
      | none =>
          (p.inside t).skip
          members schema p slots rest

/-- Reads the items of a record that is written as an array: its fields in
declared order.  Fields at the end may be left out if none is required. -/
def items {σ : Type} (schema : Schema Reading Place σ) (p : Place) (closed : Bool) :
    Nat → σ → List (Field Reading Place σ) → List Tree → Reading σ
  | _, record, [], [] => if closed then .ok record else .error .malformed
  | count, _, [], extra =>
      match p.strictness with
      | .inPlace => .error .malformed
      | .heldBack => .error (.invalidLength (count + extra.length)
          (toString count ++ (if count = 1 then " element" else " elements") ++ " in sequence"))
  | count, record, f :: fields, t :: rest => do
      let change ← f.read (p.inside t)
      items schema p closed (count + 1) (change record) fields rest
  | count, record, f :: fields, [] =>
      if !closed then .error .malformed
      else if f.required then
        .error (.invalidLength count
          (schema.title ++ " with " ++ toString schema.fields.length ++ " elements"))
      else items schema p closed (count + 1) record fields []

/-- **Reads a record**, written as an object or as an array. -/
def record {σ : Type} (schema : Schema Reading Place σ) (p : Place) : Reading σ :=
  match p.tree with
  | .obj ms closed => do
      if p.room = 0 then throw .malformed
      let slots ← p.members schema [] ms
      if !closed then throw .malformed
      match schema.assemble slots with
      | .ok value => return value
      | .error name => throw (.missingField name)
  | .arr ts closed =>
      if p.room = 0 then .error .malformed
      else p.items schema closed 0 schema.blank schema.fields ts
  | .misfit => .error .malformed
  | _ => p.mismatch schema.title

/-! ## §4. Values. -/

/-- Reads any value, with so much room for brackets. -/
def valueWithin : Nat → Strictness → Tree → Reading Json
  | room, strictness, tree =>
    match tree with
    | .null => .ok .null
    | .bool b => .ok (.bool b)
    | .num n => match n.number with
      | some (.int v) => .ok (.int v)
      | some (.float x) => .ok (.float x)
      | none => .error .malformed
    | .str (some s) => .ok (.str s)
    | .str none => .error .malformed
    | .arr _ _ =>
        match room with
        | 0 => .error .malformed
        | room + 1 => Json.arr <$>
            list (fun q => valueWithin room strictness q.tree) ⟨room + 1, strictness, tree⟩
    | .obj _ _ =>
        match room with
        | 0 => .error .malformed
        | room + 1 => Json.ofMembers <$>
            bindings (fun q => valueWithin room strictness q.tree) ⟨room + 1, strictness, tree⟩
    | .misfit => .error .malformed
    | .broken => .error .malformed

/-- Reads any value. -/
def value (p : Place) : Reading Json :=
  valueWithin p.room p.strictness p.tree

/-- JSON as a format of records. -/
def format : RecordFormat Reading Place where
  string := string
  optionalString := optionalString
  variant := variant
  list := list
  dict := dict
  value := value
  record := record

end Place

/-- **Reads a whole text**: what it means, and then that nothing follows. -/
def decode {α : Type} (read : Place → Reading α) (text : String) : Reading α := do
  let (tree, ended) := Tree.read text
  let v ← read ⟨maxDepth, .inPlace, tree⟩
  if ended then return v else throw .malformed

/-- Reads a text as a value. -/
def parse (text : String) : Reading Json :=
  decode Place.value text

end AnnotationCache.Json

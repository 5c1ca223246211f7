/-
  AnnotationCache.Yaml.Decode
  ───────────────────────────
  **TAKING A MEANING FROM A DOCUMENT.**

  What a place of a document may hold depends on what is asked of it.  Where a
  text is asked for, every scalar is one, whatever it is spelt like; where a
  collection is asked for, nothing at all is an empty one.  An alias stands
  for its node everywhere.

  A place knows how many collections may still be opened; a document may nest
  128 deep.  Aliases could make a short text stand for a huge one, so only a
  hundred for each node of the document are followed.
-/
import AnnotationCache.Record.Format
import AnnotationCache.Yaml.Document
import AnnotationCache.Yaml.Scalar

namespace AnnotationCache.Yaml

/-- Reads parts of a document; counts the aliases that were followed. -/
abbrev Reading := ReaderT Document (StateT Nat (Except Fault))

/-- How deep the collections of a document may nest. -/
def maxDepth : Nat := 128

/-- How many aliases are followed for each node of a document. -/
def aliasesPerNode : Nat := 100

/-- A place of a document: how many collections may be opened there, and its node. -/
structure Place where
  room : Nat
  node : Node Nat

/-- Nothing can be made of a place. -/
def Reading.fail {α : Type} (reason : String) : Reading α :=
  throw { reason := reason }

namespace Place

/-- A part of a collection at a place. -/
def inside (p : Place) (node : Node Nat) : Place :=
  { room := p.room - 1, node := node }

/-! ## §1. Aliases. -/

/-- The node that a node stands for: itself, unless it is an alias. -/
def follow (node : Node Nat) : Reading (Node Nat) :=
  match node with
  | .alias number => do
      let document ← read
      modify (· + 1)
      if document.size * aliasesPerNode < (← get) then .fail "repetition limit exceeded"
      match document.target? number with
      | some target => return target
      | none => .fail "unknown anchor"
  | node => return node

/-! ## §2. Scalars. -/

/-- Reads a text: any scalar is one. -/
def string (expected : String) (p : Place) : Reading String := do
  match ← follow p.node with
  | .scalar _ _ _ text => return text
  | _ => .fail ("invalid type: collection, expected " ++ expected)

/-- Is a scalar that is asked for something nothing at all, or a word for null? -/
def isAbsent (tag : Option Tag) (style : Style) (text : String) : Except Fault Bool :=
  if style ≠ .plain then .ok false
  else
    match tag with
    | none => .ok (text.isEmpty || isNullWord text)
    | some tag =>
        if CoreTag.ofTag? tag ≠ some .null then .ok false
        else if isNullWord text then .ok true
        else .error { reason := "invalid value: string, expected null" }

/-- Reads a text, or nothing. -/
def optionalString (expected : String) (p : Place) : Reading (Option String) := do
  let node ← follow p.node
  match node with
  | .scalar _ tag style text =>
      if ← isAbsent tag style text then return none else return some text
  | _ => some <$> string expected { p with node := node }

/-- Chooses by name. -/
def choose {α : Type} (variants : List (String × α)) (name : String) : Reading α :=
  match variants.lookup name with
  | some v => return v
  | none => .fail ("unknown variant " ++ name)

/-- Reads one of several words: as a text, or as a tag with nothing behind it. -/
def variant {α : Type} (variants : List (String × α)) (p : Place) : Reading α := do
  match ← follow p.node with
  | .scalar _ tag style text =>
      match tag.bind Tag.localName? with
      | none => choose variants text
      | some name =>
          let v ← choose variants name
          if style = .plain ∧ (text.isEmpty ∨ isNullWord text) then return v
          else .fail "invalid type: string, expected unit"
  | _ => .fail "invalid type: collection, expected a tag"

/-! ## §3. Collections. -/

/-- Is this nothing at all where a collection is asked for? -/
def isNothing : Node Nat → Bool
  | .scalar _ _ .plain "" => true
  | _ => false

/-- There must be room for one more collection. -/
def enter (p : Place) : Reading PUnit :=
  if p.room = 0 then .fail "recursion limit exceeded" else return ⟨⟩

/-- Reads items. -/
def list {α : Type} (item : Place → Reading α) (p : Place) : Reading (List α) := do
  match ← follow p.node with
  | .sequence _ _ items =>
      p.enter
      items.mapM fun node => item (p.inside node)
  | node => if isNothing node then return [] else .fail "invalid type, expected a sequence"

/-- Reads values under keys, in the order of the text. -/
def bindings {α : Type} (value : Place → Reading α) (p : Place) : Reading (List (String × α)) := do
  match ← follow p.node with
  | .mapping _ _ entries =>
      p.enter
      entries.mapM fun (key, node) => do
        let key ← (p.inside key).string "a string"
        return (key, ← value (p.inside node))
  | node => if isNothing node then return [] else .fail "invalid type, expected a map"

/-- Reads values under keys; a repeated key keeps its last value. -/
def dict {α : Type} (value : Place → Reading α) (p : Place) : Reading (Dict α) :=
  Dict.ofList <$> p.bindings value

/-- Reads the entries of a record after those read already.  Entries that
nobody asks for are passed over, whatever they hold. -/
def members {σ : Type} (schema : Schema Reading Place σ) (p : Place) :
    Slots σ → List (Node Nat × Node Nat) → Reading (Slots σ)
  | slots, [] => return slots
  | slots, (key, node) :: rest => do
      let name ← (p.inside key).string "a field"
      match schema.field? name with
      | some f =>
          if slots.has name then .fail ("duplicate field " ++ name)
          let change ← f.read (p.inside node)
          members schema p ((name, change) :: slots) rest
      | none => members schema p slots rest

/-- Puts a record together. -/
def assemble {σ : Type} (schema : Schema Reading Place σ) (slots : Slots σ) : Reading σ :=
  match schema.assemble slots with
  | .ok value => return value
  | .error name => .fail ("missing field " ++ name)

/-- **Reads a record.** -/
def record {σ : Type} (schema : Schema Reading Place σ) (p : Place) : Reading σ := do
  match ← follow p.node with
  | .mapping _ _ entries =>
      p.enter
      assemble schema (← p.members schema [] entries)
  | node =>
      if isNothing node then assemble schema []
      else .fail ("invalid type, expected " ++ schema.title)

/-! ## §4. Values. -/

/-- A collection whose value is asked for has no tag of its own kind. -/
def plainTag (tag : Option Tag) : Reading PUnit :=
  if (tag.bind Tag.localName?).isSome then .fail "invalid type: enum, expected any value" else return ⟨⟩

/-- Reads any value, with so much room for collections. -/
def valueWithin (room : Nat) (node : Node Nat) : Reading Json := do
  match ← follow node with
  | .scalar _ tag style text => scalarValue tag style text
  | .sequence a tag items =>
      match room with
      | 0 => .fail "recursion limit exceeded"
      | room + 1 =>
          plainTag tag
          Json.arr <$> list (fun q => valueWithin room q.node) ⟨room + 1, .sequence a tag items⟩
  | .mapping a tag entries =>
      match room with
      | 0 => .fail "recursion limit exceeded"
      | room + 1 =>
          plainTag tag
          Json.ofMembers <$>
            bindings (fun q => valueWithin room q.node) ⟨room + 1, .mapping a tag entries⟩
  | .alias _ => .fail "recursion limit exceeded"
termination_by structural room

/-- Reads any value. -/
def value (p : Place) : Reading Json :=
  valueWithin p.room p.node

/-- YAML as a format of records. -/
def format : RecordFormat Reading Place where
  string := string
  optionalString := optionalString
  variant := variant
  list := list
  dict := dict
  value := value
  record := record

end Place

/-- **Reads a whole text as a record.**  A text without a document is a record
of which every field is left out. -/
def decode {σ : Type} (schema : Schema Reading Place σ) (text : String) : Except Fault σ := do
  let document ← Document.parse text
  let read : Reading σ :=
    match document.root with
    | some root => Place.record schema ⟨maxDepth, root⟩
    | none => Place.assemble schema []
  let (value, _) ← (read.run document).run 0
  return value

end AnnotationCache.Yaml

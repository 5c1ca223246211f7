/-
  AnnotationCache.Yaml.Document
  ─────────────────────────────
  **DOCUMENTS AND WHAT THEIR ALIASES STAND FOR.**

  The names of anchors are replaced by numbers, from the start of the text to
  its end.  An anchor is numbered by how many names were known before it, and
  an alias refers to the number that its name has at that point; an alias of a
  name that was not given yet is a fault.

  A name that is given again gets a new number, but it is not a new name; so
  the next new name may get the same number, and what a number stands for is
  the last node that carries it.
-/
import AnnotationCache.Yaml.Node

namespace AnnotationCache.Yaml

namespace Node

/-! ## §1. Numbering. -/

/-- The names of anchors that are known, with their numbers. -/
abbrev Names := List (String × Nat)

/-- Numbers names. -/
abbrev Numbering (α : Type) := StateT Names (Except Fault) α

/-- The number of an anchor, whose name is known from here on. -/
def give : Option String → Numbering (Option Nat)
  | none => return none
  | some name => do
      let names ← get
      let number := names.length
      set ((name, number) :: names.filter (fun p => p.1 ≠ name))
      return some number

/-- The number that an alias refers to. -/
def refer (name : String) : Numbering Nat := do
  match (← get).lookup name with
  | some number => return number
  | none => throw { reason := "unknown anchor" }

mutual

/-- A node with numbers for names. -/
def numbered : Node String → Numbering (Node Nat)
  | .alias name => do return .alias (← refer name)
  | .scalar anchor tag style text => do return .scalar (← give anchor) tag style text
  | .sequence anchor tag items => do
      let anchor ← give anchor
      return .sequence anchor tag (← numberedItems items)
  | .mapping anchor tag entries => do
      let anchor ← give anchor
      return .mapping anchor tag (← numberedEntries entries)

/-- Items with numbers for names. -/
def numberedItems : List (Node String) → Numbering (List (Node Nat))
  | [] => return []
  | node :: nodes => do
      let node ← numbered node
      return node :: (← numberedItems nodes)

/-- Entries with numbers for names. -/
def numberedEntries : List (Node String × Node String) → Numbering (List (Node Nat × Node Nat))
  | [] => return []
  | (key, value) :: entries => do
      let key ← numbered key
      let value ← numbered value
      return (key, value) :: (← numberedEntries entries)

end

/-! ## §2. What numbers stand for. -/

mutual

/-- The nodes that carry numbers, in the order of the text. -/
def anchored : Node Nat → List (Nat × Node Nat)
  | .alias _ => []
  | .scalar anchor tag style text =>
      anchor.toList.map fun number => (number, .scalar anchor tag style text)
  | .sequence anchor tag items =>
      (anchor.toList.map fun number => (number, .sequence anchor tag items)) ++
        anchoredItems items
  | .mapping anchor tag entries =>
      (anchor.toList.map fun number => (number, .mapping anchor tag entries)) ++
        anchoredEntries entries

/-- The nodes among items that carry numbers. -/
def anchoredItems : List (Node Nat) → List (Nat × Node Nat)
  | [] => []
  | node :: nodes => anchored node ++ anchoredItems nodes

/-- The nodes among entries that carry numbers. -/
def anchoredEntries : List (Node Nat × Node Nat) → List (Nat × Node Nat)
  | [] => []
  | (key, value) :: entries => anchored key ++ anchored value ++ anchoredEntries entries

end

mutual

/-- The size of a node: collections count twice, for where they start and end. -/
def size {α : Type} : Node α → Nat
  | .alias _ => 1
  | .scalar _ _ _ _ => 1
  | .sequence _ _ items => 2 + sizeItems items
  | .mapping _ _ entries => 2 + sizeEntries entries

/-- The size of items. -/
def sizeItems {α : Type} : List (Node α) → Nat
  | [] => 0
  | node :: nodes => size node + sizeItems nodes

/-- The size of entries. -/
def sizeEntries {α : Type} : List (Node α × Node α) → Nat
  | [] => 0
  | (key, value) :: entries => size key + size value + sizeEntries entries

end

end Node

/-! ## §3. Documents. -/

/-- A document: its node, unless the text holds nothing at all, and the nodes
that numbers stand for, the last ones first. -/
structure Document where
  root : Option (Node Nat)
  targets : List (Nat × Node Nat)
  deriving Inhabited, Repr

namespace Document

/-- The node that an alias stands for. -/
def target? (d : Document) (number : Nat) : Option (Node Nat) :=
  d.targets.lookup number

/-- The size of a document; an empty one counts as one node. -/
def size (d : Document) : Nat :=
  match d.root with
  | some root => root.size
  | none => 1

/-- **The document of a text.** -/
def parse (text : String) : Except Fault Document := do
  match ← Node.parse text with
  | none => return ⟨none, []⟩
  | some root =>
      let (root, _) ← (Node.numbered root).run []
      return ⟨some root, (Node.anchored root).reverse⟩

end Document

end AnnotationCache.Yaml

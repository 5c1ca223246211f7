/-
  AnnotationCache.Yaml.BlockScalar
  ────────────────────────────────
  **SCALARS AS INDENTED BLOCKS.**

  A block scalar starts with `|`, which keeps line breaks, or `>`, which folds
  them.  Its lines stand right of the collection around it, by a number of
  columns that is given or found from its first line, and an indicator says
  what becomes of the line breaks at its end.
-/
import AnnotationCache.Yaml.Cursor

namespace AnnotationCache.Yaml

/-- What becomes of the line breaks at the end of a block scalar. -/
inductive Chomping where
  | strip
  | clip
  | keep
  deriving DecidableEq, Repr

/-- The chomping that an indicator asks for. -/
def chomping? (c : Cursor) : Option Chomping :=
  match c.peek 0 with
  | some '+' => some .keep
  | some '-' => some .strip
  | _ => none

/-- Reads an indentation indicator, if there is one; zero is none. -/
def readIndentation (c : Cursor) : Except Fault (Nat × Cursor) :=
  match c.peek 0 with
  | some x =>
      if x = '0' then c.fault "found an indentation indicator equal to 0"
      else if '1' ≤ x ∧ x ≤ '9' then .ok (x.toNat - '0'.toNat, c.skip)
      else .ok (0, c)
  | none => .ok (0, c)

/-- Reads the indicators behind `|` or `>`, in either order. -/
def readIndicators (c : Cursor) : Except Fault (Chomping × Nat × Cursor) :=
  match chomping? c with
  | some chomping => do
      let (indentation, c) ← readIndentation c.skip
      return (chomping, indentation, c)
  | none => do
      let (indentation, c) ← readIndentation c
      if indentation = 0 then return (.clip, 0, c)
      match chomping? c with
      | some chomping => return (chomping, indentation, c.skip)
      | none => return (.clip, indentation, c)

/-- Passes over blanks and a comment up to the end of the line, and over its
line break. -/
def finishLine (c : Cursor) : Except Fault Cursor :=
  let c := c.skipWhile isBlank
  let c := if c.sees 0 '#' then c.skipLine else c
  if c.seesLineEnd 0 then .ok c.skipBreak
  else c.fault "did not find expected comment or line break"

/-- Passes over indentation and empty lines, collecting their breaks in
reverse.  While the indentation is not known, the widest line counts. -/
def readBreaks (indent : Option Nat) :
    Nat → Nat → List Char → Cursor → Except Fault (Nat × List Char × Cursor)
  | 0, widest, breaks, c => .ok (widest, breaks, c)
  | fuel + 1, widest, breaks, c =>
      let inside (column : Nat) : Bool := indent.all fun n => column < n
      let spaces := (c.rest.takeWhile (· = ' ')).length
      let c := c.skipMany (match indent with
        | some n => min spaces (n - c.column)
        | none => spaces)
      let widest := max widest c.column
      if inside c.column && c.sees 0 '\t' then
        c.fault "found a tab character where an indentation space is expected"
      else if c.seesBreak 0 then readBreaks indent fuel widest (c.breakText ++ breaks) c.skipBreak
      else .ok (widest, breaks, c)

/-- What is read of a block scalar so far, each part in reverse. -/
structure Block where
  text : List Char := []
  /-- The break of the last line with content. -/
  lineBreak : List Char := []
  /-- The breaks of the empty lines after it. -/
  emptyLines : List Char := []
  /-- Did that last line start with a blank? -/
  startedBlank : Bool := false

/-- The text with the breaks before a next line.  Folding joins two lines that
both start without a blank. -/
def Block.joined (literal : Bool) (b : Block) (startsBlank : Bool) : List Char :=
  if !literal && b.lineBreak = ['\n'] && !b.startedBlank && !startsBlank then
    b.emptyLines ++ (if b.emptyLines.isEmpty then [' '] else []) ++ b.text
  else b.emptyLines ++ b.lineBreak ++ b.text

/-- The whole text, with its end chomped. -/
def Block.finished (b : Block) : Chomping → List Char
  | .strip => b.text.reverse
  | .clip => (b.lineBreak ++ b.text).reverse
  | .keep => (b.emptyLines ++ b.lineBreak ++ b.text).reverse

/-- Reads the lines of a block scalar. -/
def readLines (literal : Bool) (indent : Nat) : Nat → Block → Cursor → Except Fault (Block × Cursor)
  | 0, b, c => .ok (b, c)
  | fuel + 1, b, c =>
      if c.column ≠ indent || c.atEnd then .ok (b, c)
      else do
        let startsBlank := c.seesBlank 0
        let (text, c) := c.collect (fun x => !isBreak x) (b.joined literal startsBlank)
        let lineBreak := c.breakText
        let (_, emptyLines, c) ← readBreaks (some indent) (fuel + 1) 0 [] c.skipBreak
        readLines literal indent fuel ⟨text, lineBreak, emptyLines, startsBlank⟩ c

/-- **Reads a block scalar** after its `|` or `>`, inside a collection whose
items stand in column `outer`, or in none, with as many steps as there are
lines. -/
def readBlockScalar (literal : Bool) (outer : Option Nat) (fuel : Nat) (c : Cursor) :
    Except Fault (List Char × Cursor) := do
  let (chomping, indentation, c) ← readIndicators c
  let c ← finishLine c
  let given : Option Nat :=
    if indentation = 0 then none else some (outer.getD 0 + indentation)
  let (widest, emptyLines, c) ← readBreaks given fuel 0 [] c
  let least := match outer with
    | some n => n + 1
    | none => 1
  let indent := given.getD (max widest least)
  let (b, c) ← readLines literal indent fuel { emptyLines := emptyLines } c
  return (b.finished chomping, c)

end AnnotationCache.Yaml

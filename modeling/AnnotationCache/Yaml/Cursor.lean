/-
  AnnotationCache.Yaml.Cursor
  ───────────────────────────
  **A PLACE IN A YAML TEXT.**

  A cursor is the rest of a text with the position at which it starts: the
  number of bytes before it, its line and its column.  Characters of a
  YAML text fall into classes that decide where a token starts and ends; the
  end of the text belongs to several of them, so classes are asked of places
  and not of characters.
-/
namespace AnnotationCache.Yaml

/-- Why a text is not understood, and on which line and column, counted from
zero, if one place is to blame. -/
structure Fault where
  reason : String
  place : Option (Nat × Nat) := none
  deriving DecidableEq, Repr, Inhabited

/-- The wording of a fault, with lines and columns counted from one. -/
def Fault.message (f : Fault) : String :=
  match f.place with
  | some (line, column) =>
      f.reason ++ " at line " ++ toString (line + 1) ++ " column " ++ toString (column + 1)
  | none => f.reason

/-! ## §1. Characters. -/

/-- May the character stand in a YAML text at all? -/
def isPermitted (c : Char) : Bool :=
  c = '\t' || c = '\n' || c = '\r' || (' ' ≤ c && c ≤ '~') || c = '\u0085' ||
    ('\u00a0' ≤ c && c ≤ '\ud7ff') || ('\ue000' ≤ c && c ≤ '\ufffd') || 0x10000 ≤ c.toNat

/-- Does the character end a line? -/
def isBreak (c : Char) : Bool :=
  c = '\n' || c = '\r' || c = '\u0085' || c = '\u2028' || c = '\u2029'

/-- Does the character separate words on a line? -/
def isBlank (c : Char) : Bool :=
  c = ' ' || c = '\t'

/-- Is it a character of names: a letter or digit of ASCII, a dash or a low line? -/
def isWordChar (c : Char) : Bool :=
  ('0' ≤ c && c ≤ '9') || ('A' ≤ c && c ≤ 'Z') || ('a' ≤ c && c ≤ 'z') || c = '_' || c = '-'

/-- Is the character one of those that structure flow collections? -/
def isFlowIndicator (c : Char) : Bool :=
  c = ',' || c = '[' || c = ']' || c = '\x7b' || c = '\x7d'

/-! ## §2. Cursors. -/

/-- The rest of a text, and where it starts. -/
structure Cursor where
  rest : List Char
  /-- The number of bytes before it. -/
  index : Nat := 0
  line : Nat := 0
  column : Nat := 0
  deriving Repr, Inhabited

namespace Cursor

/-- The character so many places ahead. -/
def peek (c : Cursor) (ahead : Nat) : Option Char :=
  c.rest[ahead]?

/-- Does this character stand so many places ahead? -/
def sees (c : Cursor) (ahead : Nat) (x : Char) : Bool :=
  c.peek ahead == some x

/-- Does the text end here? -/
def atEnd (c : Cursor) : Bool :=
  c.rest.isEmpty

/-- Does a line break stand so many places ahead? -/
def seesBreak (c : Cursor) (ahead : Nat) : Bool :=
  (c.peek ahead).any isBreak

/-- Does a blank stand so many places ahead? -/
def seesBlank (c : Cursor) (ahead : Nat) : Bool :=
  (c.peek ahead).any isBlank

/-- Does the line end so many places ahead? -/
def seesLineEnd (c : Cursor) (ahead : Nat) : Bool :=
  (c.peek ahead).all isBreak

/-- Does a word end so many places ahead: at a blank, a break or the end? -/
def seesWordEnd (c : Cursor) (ahead : Nat) : Bool :=
  (c.peek ahead).all fun x => isBlank x || isBreak x

/-- The cursor one character on, on the same line. -/
def skip (c : Cursor) : Cursor :=
  match c.rest with
  | [] => c
  | x :: rest => { c with rest := rest, index := c.index + x.utf8Size, column := c.column + 1 }

/-- The cursor some characters on, on the same line. -/
def skipMany (c : Cursor) : Nat → Cursor
  | 0 => c
  | n + 1 => c.skip.skipMany n

/-- The cursor behind a line break; a carriage return and the line feed after
it are one break. -/
def skipBreak (c : Cursor) : Cursor :=
  match c.rest with
  | '\r' :: '\n' :: rest => ⟨rest, c.index + 2, c.line + 1, 0⟩
  | x :: rest => if isBreak x then ⟨rest, c.index + x.utf8Size, c.line + 1, 0⟩ else c
  | [] => c

/-- What a line break is kept as: line feeds and all that mean the same become
one line feed, the Unicode separators stay. -/
def breakText (c : Cursor) : List Char :=
  match c.rest with
  | x :: _ => if x = '\u2028' || x = '\u2029' then [x] else if isBreak x then ['\n'] else []
  | [] => []

/-- Passes over characters of a line for as long as they satisfy a test; gives
them in reverse, in front of those passed before. -/
def collect (test : Char → Bool) (passed : List Char) (c : Cursor) : List Char × Cursor :=
  go passed c.rest c.index c.column
where
  go (passed : List Char) : List Char → Nat → Nat → List Char × Cursor
    | [], index, column => (passed, ⟨[], index, c.line, column⟩)
    | x :: rest, index, column =>
        if test x then go (x :: passed) rest (index + x.utf8Size) (column + 1)
        else (passed, ⟨x :: rest, index, c.line, column⟩)

/-- The characters up to the first that fails a test, and the cursor there. -/
def takeWhile (test : Char → Bool) (c : Cursor) : List Char × Cursor :=
  let (passed, c) := c.collect test []
  (passed.reverse, c)

/-- The cursor at the first character that fails a test. -/
def skipWhile (test : Char → Bool) (c : Cursor) : Cursor :=
  (c.collect test []).2

/-- The cursor at the end of its line. -/
def skipLine (c : Cursor) : Cursor :=
  c.skipWhile fun x => !isBreak x

/-- Do three of this character stand here at the start of a line, as a word? -/
def seesMark (c : Cursor) (x : Char) : Bool :=
  c.column == 0 && c.sees 0 x && c.sees 1 x && c.sees 2 x && c.seesWordEnd 3

/-- Does a mark of documents stand here? -/
def seesDocumentMark (c : Cursor) : Bool :=
  c.seesMark '-' || c.seesMark '.'

/-- A fault at this place. -/
def fault {α : Type} (c : Cursor) (reason : String) : Except Fault α :=
  .error ⟨reason, some (c.line, c.column)⟩

end Cursor

end AnnotationCache.Yaml

/-
  AnnotationCache.Yaml.Folding
  ────────────────────────────
  **SCALARS ON A LINE, AND OVER SEVERAL LINES.**

  Quoted and plain scalars may run over several lines.  What separates two
  words of a scalar is a gap: blanks on one line stay as they are, one line
  break is a space, and of several line breaks the first one is dropped.

  Each word with the gap behind it takes a character of the text, so a scalar
  that may take as many steps as there are characters left can give as many
  to each of its words and gaps.
-/
import AnnotationCache.Yaml.Cursor

namespace AnnotationCache.Yaml

/-! ## §1. Gaps. -/

/-- Blanks and line breaks between two words, each part in reverse. -/
structure Gap where
  /-- Blanks on the line of the first word. -/
  blanks : List Char := []
  /-- Was the line left? -/
  broken : Bool := false
  /-- The first line break. -/
  firstBreak : List Char := []
  /-- The line breaks after it. -/
  otherBreaks : List Char := []
  deriving Repr, Inhabited

/-- What a gap stands for, in reverse. -/
def Gap.folded (g : Gap) : List Char :=
  if g.broken then
    if g.firstBreak = ['\n'] then (if g.otherBreaks.isEmpty then [' '] else g.otherBreaks)
    else g.otherBreaks ++ g.firstBreak
  else g.blanks

/-- Reads a gap.  At the start of a line a tab left of `margin` is a fault. -/
def readGap (margin : Nat) : Nat → Gap → Cursor → Except Fault (Gap × Cursor)
  | 0, g, c => .ok (g, c)
  | fuel + 1, g, c =>
      match c.peek 0 with
      | none => .ok (g, c)
      | some x =>
          if isBlank x then
            if g.broken && x = '\t' && c.column < margin then
              c.fault "found a tab character that violates indentation"
            else
              readGap margin fuel (if g.broken then g else { g with blanks := x :: g.blanks }) c.skip
          else if isBreak x then
            let g := if g.broken then { g with otherBreaks := c.breakText ++ g.otherBreaks }
              else { blanks := [], broken := true, firstBreak := c.breakText, otherBreaks := [] }
            readGap margin fuel g c.skipBreak
          else .ok (g, c)

/-! ## §2. Quoted scalars. -/

/-- The character that an escape of one letter stands for. -/
def escape? : Char → Option Char
  | '0' => some '\x00'
  | 'a' => some '\x07'
  | 'b' => some '\x08'
  | 't' => some '\t'
  | '\t' => some '\t'
  | 'n' => some '\n'
  | 'v' => some '\x0b'
  | 'f' => some '\x0c'
  | 'r' => some '\r'
  | 'e' => some '\x1b'
  | ' ' => some ' '
  | '"' => some '"'
  | '/' => some '/'
  | '\\' => some '\\'
  | 'N' => some '\u0085'
  | '_' => some '\u00a0'
  | 'L' => some '\u2028'
  | 'P' => some '\u2029'
  | _ => none

/-- How many hexadecimal digits follow the letter of a numbered escape. -/
def escapeLength? : Char → Option Nat
  | 'x' => some 2
  | 'u' => some 4
  | 'U' => some 8
  | _ => none

/-- The value of a hexadecimal digit of either case. -/
def hexDigit? (c : Char) : Option Nat :=
  if '0' ≤ c ∧ c ≤ '9' then some (c.toNat - '0'.toNat)
  else if 'a' ≤ c ∧ c ≤ 'f' then some (c.toNat - 'a'.toNat + 10)
  else if 'A' ≤ c ∧ c ≤ 'F' then some (c.toNat - 'A'.toNat + 10)
  else none

/-- The number that hexadecimal digits spell. -/
def hexNumber? (digits : List Char) : Option Nat :=
  digits.foldlM (fun n d => do return n * 16 + (← hexDigit? d)) 0

/-- Reads an escape after its backslash. -/
def readEscape (c : Cursor) : Except Fault (Char × Cursor) :=
  match c.peek 0 with
  | none => c.fault "found unknown escape character"
  | some letter =>
      match escape? letter, escapeLength? letter with
      | some x, _ => .ok (x, c.skip)
      | none, none => c.fault "found unknown escape character"
      | none, some length =>
          let digits := c.skip.rest.take length
          if digits.length < length then c.fault "did not find expected hexdecimal number"
          else
            match hexNumber? digits with
            | none => c.fault "did not find expected hexdecimal number"
            | some n =>
                if n.isValidChar then .ok (Char.ofNat n, c.skip.skipMany length)
                else c.fault "found invalid Unicode character escape code"

/-- Reads a word of a scalar in single quotes, in front of the text so far. -/
def readSingleWord : Nat → List Char → Cursor → List Char × Cursor
  | 0, text, c => (text, c)
  | fuel + 1, text, c =>
      match c.rest with
      | [] => (text, c)
      | '\'' :: '\'' :: _ => readSingleWord fuel ('\'' :: text) (c.skipMany 2)
      | x :: _ =>
          if x = '\'' || isBlank x || isBreak x then (text, c)
          else readSingleWord fuel (x :: text) c.skip

/-- Reads a word of a scalar in double quotes, in front of the text so far, and
says whether an escaped line break ended it. -/
def readDoubleWord : Nat → List Char → Cursor → Except Fault (List Char × Bool × Cursor)
  | 0, text, c => .ok (text, false, c)
  | fuel + 1, text, c =>
      match c.peek 0 with
      | none => .ok (text, false, c)
      | some x =>
          if x = '"' || isBlank x || isBreak x then .ok (text, false, c)
          else if x = '\\' then
            if c.seesBreak 1 then .ok (text, true, c.skip.skipBreak)
            else do
              let (y, c) ← readEscape c.skip
              readDoubleWord fuel (y :: text) c
          else readDoubleWord fuel (x :: text) c.skip

/-- Reads a quoted scalar after its opening quote, in front of the text so far. -/
def readQuoted (double : Bool) : Nat → List Char → Cursor → Except Fault (List Char × Cursor)
  | 0, _, c => c.fault "found unexpected end of stream"
  | fuel + 1, text, c => do
      if c.seesDocumentMark then c.fault "found unexpected document indicator"
      if c.atEnd then c.fault "found unexpected end of stream"
      let (text, escaped, c) ←
        if double then readDoubleWord (fuel + 1) text c
        else
          let (text, c) := readSingleWord (fuel + 1) text c
          pure (text, false, c)
      if c.sees 0 (if double then '"' else '\'') then return (text.reverse, c.skip)
      let (gap, c) ← readGap 0 (fuel + 1) { broken := escaped } c
      readQuoted double fuel (gap.folded ++ text) c

/-! ## §3. Plain scalars. -/

/-- Does a plain scalar end here, at a sign of structure? -/
def endsPlain (flow : Bool) (c : Cursor) : Bool :=
  (c.sees 0 ':' && c.seesWordEnd 1) || (flow && (c.peek 0).any isFlowIndicator)

/-- Is a colon here that a flow collection does not allow in a plain scalar? -/
def straysColon (flow : Bool) (c : Cursor) : Bool :=
  flow && c.sees 0 ':' && (c.peek 1).any fun x => isFlowIndicator x || x = '?'

/-- Reads a word of a plain scalar, in reverse. -/
def readPlainWord (flow : Bool) : Nat → List Char → Cursor → Except Fault (List Char × Cursor)
  | 0, word, c => .ok (word, c)
  | fuel + 1, word, c =>
      match c.peek 0 with
      | none => .ok (word, c)
      | some x =>
          if isBlank x || isBreak x then .ok (word, c)
          else if straysColon flow c then c.fault "found unexpected ':'"
          else if endsPlain flow c then .ok (word, c)
          else readPlainWord flow fuel (x :: word) c.skip

/-- Reads a plain scalar whose lines keep right of a margin, after the text so
far and the gap behind it.  Also says whether a line break follows the text. -/
def readPlain (flow : Bool) (margin : Nat) :
    Nat → List Char → Gap → Cursor → Except Fault (List Char × Bool × Cursor)
  | 0, text, gap, c => .ok (text.reverse, gap.broken, c)
  | fuel + 1, text, gap, c => do
      if c.seesDocumentMark || c.sees 0 '#' then return (text.reverse, gap.broken, c)
      let (word, c) ← readPlainWord flow (fuel + 1) [] c
      let (text, gap) := if word.isEmpty then (text, gap) else (word ++ gap.folded ++ text, {})
      if !(c.seesBlank 0 || c.seesBreak 0) then return (text.reverse, gap.broken, c)
      let (gap, c) ← readGap margin (fuel + 1) {} c
      if !flow && c.column < margin then return (text.reverse, gap.broken, c)
      readPlain flow margin fuel text gap c

end AnnotationCache.Yaml

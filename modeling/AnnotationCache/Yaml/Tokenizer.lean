/-
  AnnotationCache.Yaml.Tokenizer
  ──────────────────────────────
  **FROM TEXT TO TOKENS.**

  Two things make this more than a walk over the text.  Block collections are
  opened and closed by indentation: a stack of columns says which ones are
  open.  And whether a node is a key shows only at the colon behind it: every
  node that could be a key is remembered, one for each open collection, and at
  the colon its key token is put in front of it after the fact.  A node stops
  being a possible key when its line ends or after 1024 bytes.
-/
import AnnotationCache.Yaml.Token

namespace AnnotationCache.Yaml

/-- A node that turns out to be a key if a colon follows. -/
structure PossibleKey where
  /-- The number of tokens before it. -/
  position : Nat
  /-- Must it be a key, because it starts an item of a block collection? -/
  required : Bool
  index : Nat
  line : Nat
  column : Nat
  deriving Repr, Inhabited

/-- What is known in the middle of a text. -/
structure Tokenizer where
  cursor : Cursor
  /-- The tokens so far, the last one first. -/
  tokens : List Token := []
  /-- How many tokens there are so far. -/
  count : Nat := 0
  /-- The possible key outside of flow collections or in the innermost one. -/
  here : Option PossibleKey := none
  /-- The possible keys of the collections around that one. -/
  around : List (Option PossibleKey) := []
  /-- May a key start here? -/
  keyAllowed : Bool := true
  /-- The column of the innermost block collection. -/
  indent : Option Nat := none
  /-- The columns of the block collections around it. -/
  outer : List (Option Nat) := []

namespace Tokenizer

/-- Is the place inside a flow collection? -/
def inFlow (t : Tokenizer) : Bool :=
  !t.around.isEmpty

/-- Adds a token. -/
def push (t : Tokenizer) (token : Token) : Tokenizer :=
  { t with tokens := token :: t.tokens, count := t.count + 1 }

/-- Puts a token where there were `position` tokens before it. -/
def insertAt (t : Tokenizer) (position : Nat) (token : Token) : Tokenizer :=
  let later := t.count - position
  { t with
    tokens := t.tokens.take later ++ token :: t.tokens.drop later
    count := t.count + 1 }

/-- The tokenizer at another place. -/
def moveTo (t : Tokenizer) (c : Cursor) : Tokenizer :=
  { t with cursor := c }

/-! ## §1. Possible keys. -/

/-- Is a key out of reach from here? -/
def isStale (c : Cursor) (k : PossibleKey) : Bool :=
  k.line < c.line || k.index + 1024 < c.index

/-- Gives up the possible key of the innermost collection. -/
def dropKey (t : Tokenizer) : Except Fault Tokenizer :=
  match t.here with
  | some k =>
      if k.required then .error ⟨"could not find expected ':'", some (k.line, k.column)⟩
      else .ok { t with here := none }
  | none => .ok t

/-- Gives up the possible key of the innermost collection if it is out of
reach.  The keys of the collections around it can wait: once out of reach they
stay so, and none of them can be used before its collection is the innermost. -/
def dropStale (t : Tokenizer) : Except Fault Tokenizer :=
  if t.here.any (isStale t.cursor) then t.dropKey else .ok t

/-- Remembers that the next token may start a key. -/
def saveKey (t : Tokenizer) : Except Fault Tokenizer := do
  if !t.keyAllowed then return t
  let t ← t.dropKey
  let c := t.cursor
  let required := !t.inFlow && t.indent == some c.column
  return { t with here := some ⟨t.count, required, c.index, c.line, c.column⟩ }

/-! ## §2. Indentation. -/

/-- Opens a block collection in a column, unless one is open there or the
place is inside a flow collection. -/
def openBlock (t : Tokenizer) (column position : Nat) (token : Token) : Tokenizer :=
  if t.inFlow || t.indent.any (column ≤ ·) then t
  else { (t.insertAt position token) with indent := some column, outer := t.indent :: t.outer }

/-- Closes the block collections right of a column, or all of them. -/
def closeBlocks (column : Option Nat) : List (Option Nat) → Tokenizer → Tokenizer
  | [], t => t
  | up :: outer, t =>
      match t.indent with
      | some n =>
          if column.all (· < n) then
            closeBlocks column outer { (t.push .blockEnd) with indent := up, outer := outer }
          else t
      | none => t

/-- Closes the block collections right of a column, unless the place is inside
a flow collection. -/
def close (t : Tokenizer) (column : Option Nat) : Tokenizer :=
  if t.inFlow then t else closeBlocks column t.outer t

/-! ## §3. Tokens. -/

/-- Passes over blanks, comments and line breaks, and over a byte order mark
at the start of a line, which takes a column of it all the same.  A tab may not
stand where a key may start. -/
def skipToToken : Nat → Tokenizer → Tokenizer
  | 0, t => t
  | fuel + 1, t =>
      let c := t.cursor
      let c := if c.column == 0 && c.sees 0 '\ufeff' then c.skip else c
      let tabs := t.inFlow || !t.keyAllowed
      let c := c.skipWhile fun x => x = ' ' || (tabs && x = '\t')
      let c := if c.sees 0 '#' then c.skipLine else c
      if c.seesBreak 0 then
        skipToToken fuel
          { t with cursor := c.skipBreak, keyAllowed := t.keyAllowed || !t.inFlow }
      else t.moveTo c

/-- A token that ends all that is open: a directive, a mark of documents or
the end of the text. -/
def interrupt (t : Tokenizer) : Except Fault Tokenizer := do
  let t ← (t.close none).dropKey
  return { t with keyAllowed := false }

/-- Opens a flow collection. -/
def openFlow (t : Tokenizer) (token : Token) : Except Fault Tokenizer := do
  let t ← t.saveKey
  return { (t.push token) with
    cursor := t.cursor.skip, around := t.here :: t.around, here := none, keyAllowed := true }

/-- Closes a flow collection. -/
def closeFlow (t : Tokenizer) (token : Token) : Except Fault Tokenizer := do
  let t ← t.dropKey
  let (here, around) := match t.around with
    | key :: around => (key, around)
    | [] => (none, [])
  return { (t.push token) with
    cursor := t.cursor.skip, around := around, here := here, keyAllowed := false }

/-- Separates the items of a flow collection. -/
def flowEntry (t : Tokenizer) : Except Fault Tokenizer := do
  let t ← t.dropKey
  return { (t.push .flowEntry) with cursor := t.cursor.skip, keyAllowed := true }

/-- Starts an item of a block sequence. -/
def blockEntry (t : Tokenizer) : Except Fault Tokenizer := do
  if !t.inFlow && !t.keyAllowed then
    t.cursor.fault "block sequence entries are not allowed in this context"
  let t := t.openBlock t.cursor.column t.count .blockSequenceStart
  let t ← t.dropKey
  return { (t.push .blockEntry) with cursor := t.cursor.skip, keyAllowed := true }

/-- Starts a key that is marked as one. -/
def markedKey (t : Tokenizer) : Except Fault Tokenizer := do
  if !t.inFlow && !t.keyAllowed then
    t.cursor.fault "mapping keys are not allowed in this context"
  let t := t.openBlock t.cursor.column t.count .blockMappingStart
  let t ← t.dropKey
  return { (t.push .key) with cursor := t.cursor.skip, keyAllowed := !t.inFlow }

/-- Starts a value.  If a possible key is in reach it becomes one now. -/
def value (t : Tokenizer) : Except Fault Tokenizer := do
  match t.here with
  | some k =>
      let t := t.insertAt k.position .key
      let t := t.openBlock k.column k.position .blockMappingStart
      return { (t.push .value) with cursor := t.cursor.skip, here := none, keyAllowed := false }
  | none =>
      if !t.inFlow && !t.keyAllowed then
        t.cursor.fault "mapping values are not allowed in this context"
      let t := t.openBlock t.cursor.column t.count .blockMappingStart
      return { (t.push .value) with cursor := t.cursor.skip, keyAllowed := !t.inFlow }

/-- A token that may be or start a key, read by a function from the place. -/
def node (t : Tokenizer) (read : Cursor → Except Fault (Token × Cursor)) :
    Except Fault Tokenizer := do
  let t ← t.saveKey
  let (token, c) ← read t.cursor
  return { (t.push token) with cursor := c, keyAllowed := false }

/-- A quoted scalar. -/
def quotedScalar (t : Tokenizer) (double : Bool) (fuel : Nat) : Except Fault Tokenizer :=
  t.node fun c => do
    let (text, c) ← readQuoted double fuel [] c.skip
    return (.scalar .quoted (String.ofList text), c)

/-- A block scalar.  A key may follow it, since its line has ended. -/
def blockScalar (t : Tokenizer) (literal : Bool) (fuel : Nat) : Except Fault Tokenizer := do
  let t ← t.dropKey
  let (text, c) ← readBlockScalar literal t.indent fuel t.cursor.skip
  return { (t.push (.scalar .quoted (String.ofList text))) with cursor := c, keyAllowed := true }

/-- A plain scalar.  A key may follow it if its line has ended. -/
def plainScalar (t : Tokenizer) (fuel : Nat) : Except Fault Tokenizer := do
  let t ← t.saveKey
  let margin := match t.indent with
    | some n => n + 1
    | none => 0
  let (text, broken, c) ← readPlain t.inFlow margin fuel [] {} t.cursor
  return { (t.push (.scalar .plain (String.ofList text))) with cursor := c, keyAllowed := broken }

/-- May a plain scalar start here? -/
def startsPlain (t : Tokenizer) (x : Char) : Bool :=
  let c := t.cursor
  let isIndicator := ['-', '?', ':', ',', '[', ']', '\x7b', '\x7d', '#', '&', '*', '!', '|', '>',
    '\'', '"', '%', '@', '\x60'].contains x
  !(isBlank x || isBreak x || isIndicator) || (x = '-' && !c.seesBlank 1) ||
    (!t.inFlow && (x = '?' || x = ':') && !c.seesWordEnd 1)

/-- Reads the token that starts with a character, with so many steps for the
parts of a scalar. -/
def token (t : Tokenizer) (x : Char) (fuel : Nat) : Except Fault Tokenizer :=
  let c := t.cursor
  if c.column == 0 && x = '%' then do
    let t ← t.interrupt
    let (token, c) ← readDirective t.cursor
    return (t.push token).moveTo c
  else if c.seesMark '-' then do return ((← t.interrupt).push .documentStart).moveTo (c.skipMany 3)
  else if c.seesMark '.' then do return ((← t.interrupt).push .documentEnd).moveTo (c.skipMany 3)
  else if x = '[' then t.openFlow .flowSequenceStart
  else if x = '\x7b' then t.openFlow .flowMappingStart
  else if x = ']' then t.closeFlow .flowSequenceEnd
  else if x = '\x7d' then t.closeFlow .flowMappingEnd
  else if x = ',' then t.flowEntry
  else if x = '-' && c.seesWordEnd 1 then t.blockEntry
  else if x = '?' && (t.inFlow || c.seesWordEnd 1) then t.markedKey
  else if x = ':' && (t.inFlow || c.seesWordEnd 1) then t.value
  else if x = '*' then t.node fun c => do
    let (name, c) ← readAnchorName c.skip
    return (.alias name, c)
  else if x = '&' then t.node fun c => do
    let (name, c) ← readAnchorName c.skip
    return (.anchor name, c)
  else if x = '!' then t.node (readTag t.inFlow)
  else if x = '|' && !t.inFlow then t.blockScalar true fuel
  else if x = '>' && !t.inFlow then t.blockScalar false fuel
  else if x = '\'' then t.quotedScalar false fuel
  else if x = '"' then t.quotedScalar true fuel
  else if t.startsPlain x then t.plainScalar fuel
  else c.fault "found character that cannot start any token"

/-- Reads tokens to the end of the text.  A token takes a character at least, so
the steps left are never fewer than the characters left. -/
def readAll : Nat → Tokenizer → Except Fault (List Token)
  | 0, t => t.cursor.fault "found unexpected end of stream"
  | fuel + 1, t => do
      let t ← (skipToToken (fuel + 1) t).dropStale
      let t := t.close (some t.cursor.column)
      match t.cursor.peek 0 with
      | none => return (← t.interrupt).tokens.reverse ++ [.streamEnd]
      | some x => readAll fuel (← t.token x (fuel + 1))

end Tokenizer

/-- **The tokens of a text.**  A control character anywhere is a fault. -/
def tokenize (text : String) : Except Fault (List Token) :=
  let chars := text.toList
  if chars.all isPermitted then
    Tokenizer.readAll (chars.length + 1) { cursor := { rest := chars } }
  else .error { reason := "control characters are not allowed" }

end AnnotationCache.Yaml

/-
  AnnotationCache.Yaml.Node
  ─────────────────────────
  **THE NODES OF A YAML DOCUMENT.**

  A document is a node; nodes nest, and an alias stands for a node that was
  given a name before.  Nodes are read from tokens by descent; empty scalars
  stand where the text leaves a key, a value or an item out.

  Every call below either takes a token or goes down to one that does, so four
  steps for each token are more than enough fuel.
-/
import AnnotationCache.Yaml.Tokenizer

namespace AnnotationCache.Yaml

/-- A node; anchors give nodes an `α` for a name, and aliases refer to it. -/
inductive Node (α : Type) where
  | alias (target : α)
  | scalar (anchor : Option α) (tag : Option Tag) (style : Style) (text : String)
  | sequence (anchor : Option α) (tag : Option Tag) (items : List (Node α))
  | mapping (anchor : Option α) (tag : Option Tag) (entries : List (Node α × Node α))
  deriving Inhabited, Repr

namespace Node

/-- What stands where nothing is written. -/
def nothing {α : Type} : Node α :=
  .scalar none none .plain ""

/-! ## §1. Reading tokens. -/

/-- Reads tokens; a text that ends too soon goes on with ends. -/
abbrev Reader (α : Type) := StateT (List Token) (Except Fault) α

/-- The next token. -/
def next : Reader Token :=
  return (← get).headD .streamEnd

/-- Passes over a token. -/
def advance : Reader PUnit :=
  modify List.tail

/-- The tokens cannot be understood. -/
def fail {α : Type} (reason : String) : Reader α :=
  throw { reason := reason }

/-- The handles that are known without a directive. -/
def standardHandles : List (String × Tag) :=
  [("!", Tag.mark), ("!!", Tag.core "")]

/-- The tag that a handle and a suffix stand for. -/
def resolveTag (handles : List (String × Tag)) (handle : String) (suffix : Tag) : Reader Tag :=
  if handle.isEmpty then return suffix
  else
    match (handles ++ standardHandles).lookup handle with
    | some text => return text ++ suffix
    | none => fail "found undefined tag handle"

/-- Reads an anchor and a tag in front of a node, in either order. -/
def properties (handles : List (String × Tag)) : Reader (Option String × Option Tag) := do
  match ← next with
  | .anchor name =>
      advance
      match ← next with
      | .tag handle suffix =>
          advance
          return (some name, some (← resolveTag handles handle suffix))
      | _ => return (some name, none)
  | .tag handle suffix =>
      advance
      match ← next with
      | .anchor name =>
          advance
          return (some name, some (← resolveTag handles handle suffix))
      | _ => return (none, some (← resolveTag handles handle suffix))
  | _ => return (none, none)

/-- Is this one of the tokens before which a node may be left out? -/
def isOneOf (tokens : List Token) (t : Token) : Bool :=
  tokens.contains t

mutual

/-- Reads a node.  Block collections may be ruled out, and the items of a block
sequence may be allowed to stand where the key before them does. -/
def read (handles : List (String × Tag)) : Nat → Bool → Bool → Reader (Node String)
  | 0, _, _ => fail "did not find expected node content"
  | fuel + 1, block, flush => do
      match ← next with
      | .alias name =>
          advance
          return .alias name
      | _ =>
          let (anchor, tag) ← properties handles
          let token ← next
          if flush && token = .blockEntry then
            return .sequence anchor tag (← readFlushItems handles fuel)
          match token with
          | .scalar style text =>
              advance
              return .scalar anchor tag style text
          | .flowSequenceStart =>
              advance
              return .sequence anchor tag (← readFlowItems handles fuel true)
          | .flowMappingStart =>
              advance
              return .mapping anchor tag (← readFlowEntries handles fuel true)
          | .blockSequenceStart =>
              if block then
                advance
                return .sequence anchor tag (← readBlockItems handles fuel)
              bare anchor tag
          | .blockMappingStart =>
              if block then
                advance
                return .mapping anchor tag (← readBlockEntries handles fuel)
              bare anchor tag
          | _ => bare anchor tag
where
  /-- A node that is nothing but its properties. -/
  bare (anchor : Option String) (tag : Option Tag) : Reader (Node String) :=
    if anchor.isSome || tag.isSome then return .scalar anchor tag .plain ""
    else fail "did not find expected node content"

/-- Reads a node, or nothing in front of some tokens. -/
def readUnless (handles : List (String × Tag)) :
    Nat → List Token → Bool → Bool → Reader (Node String)
  | 0, _, _, _ => fail "did not find expected node content"
  | fuel + 1, stops, block, flush => do
      if isOneOf stops (← next) then return nothing
      read handles fuel block flush

/-- Reads the items of a block sequence. -/
def readBlockItems (handles : List (String × Tag)) : Nat → Reader (List (Node String))
  | 0 => fail "did not find expected '-' indicator"
  | fuel + 1 => do
      match ← next with
      | .blockEntry =>
          advance
          let item ← readUnless handles fuel [.blockEntry, .blockEnd] true false
          return item :: (← readBlockItems handles fuel)
      | .blockEnd =>
          advance
          return []
      | _ => fail "did not find expected '-' indicator"

/-- Reads the items of a block sequence that has no end of its own. -/
def readFlushItems (handles : List (String × Tag)) : Nat → Reader (List (Node String))
  | 0 => fail "did not find expected '-' indicator"
  | fuel + 1 => do
      match ← next with
      | .blockEntry =>
          advance
          let item ← readUnless handles fuel [.blockEntry, .key, .value, .blockEnd] true false
          return item :: (← readFlushItems handles fuel)
      | _ => return []

/-- Reads the entries of a block mapping. -/
def readBlockEntries (handles : List (String × Tag)) :
    Nat → Reader (List (Node String × Node String))
  | 0 => fail "did not find expected key"
  | fuel + 1 => do
      match ← next with
      | .key =>
          advance
          let key ← readUnless handles fuel [.key, .value, .blockEnd] true true
          let value ←
            if (← next) = .value then
              advance
              readUnless handles fuel [.key, .value, .blockEnd] true true
            else pure nothing
          return (key, value) :: (← readBlockEntries handles fuel)
      | .blockEnd =>
          advance
          return []
      | _ => fail "did not find expected key"

/-- Reads the items of a flow sequence; every item but the first wants a comma
in front of it. -/
def readFlowItems (handles : List (String × Tag)) : Nat → Bool → Reader (List (Node String))
  | 0, _ => fail "did not find expected ',' or ']'"
  | fuel + 1, first => do
      if (← next) = .flowSequenceEnd then
        advance
        return []
      if !first then
        if (← next) = .flowEntry then advance else fail "did not find expected ',' or ']'"
      match ← next with
      | .flowSequenceEnd =>
          advance
          return []
      | .key =>
          advance
          let item ← readFlowPair handles fuel
          return item :: (← readFlowItems handles fuel false)
      | _ =>
          let item ← read handles fuel false false
          return item :: (← readFlowItems handles fuel false)

/-- Reads an item of a flow sequence that is a mapping with one entry, after
its key token.  A key that is left out takes the token behind it away. -/
def readFlowPair (handles : List (String × Tag)) : Nat → Reader (Node String)
  | 0 => fail "did not find expected node content"
  | fuel + 1 => do
      let key ←
        if isOneOf [.value, .flowEntry, .flowSequenceEnd] (← next) then
          advance
          pure nothing
        else read handles fuel false false
      let value ←
        if (← next) = .value then
          advance
          readUnless handles fuel [.flowEntry, .flowSequenceEnd] false false
        else pure nothing
      return .mapping none none [(key, value)]

/-- Reads the entries of a flow mapping; every entry but the first wants a
comma in front of it. -/
def readFlowEntries (handles : List (String × Tag)) :
    Nat → Bool → Reader (List (Node String × Node String))
  | 0, _ => fail "did not find expected ',' or end of mapping"
  | fuel + 1, first => do
      if (← next) = .flowMappingEnd then
        advance
        return []
      if !first then
        if (← next) = .flowEntry then advance
        else fail "did not find expected ',' or end of mapping"
      match ← next with
      | .flowMappingEnd =>
          advance
          return []
      | .key =>
          advance
          let key ← readUnless handles fuel [.value, .flowEntry, .flowMappingEnd] false false
          let value ←
            if (← next) = .value then
              advance
              readUnless handles fuel [.flowEntry, .flowMappingEnd] false false
            else pure nothing
          return (key, value) :: (← readFlowEntries handles fuel false)
      | _ =>
          let key ← read handles fuel false false
          return (key, nothing) :: (← readFlowEntries handles fuel false)

end

/-! ## §2. Documents. -/

/-- Reads directives: one version at most, and each handle at most once.  Says
which handles they set, and whether there were any directives. -/
def readDirectives : Nat → Bool → List (String × Tag) → Reader (List (String × Tag))
  | 0, _, handles => return handles
  | fuel + 1, versioned, handles => do
      match ← next with
      | .version major minor =>
          if versioned then fail "found duplicate %YAML directive"
          if major ≠ 1 ∨ (minor ≠ 1 ∧ minor ≠ 2) then fail "found incompatible YAML document"
          advance
          readDirectives fuel true handles
      | .tagHandle handle text =>
          if (handles.lookup handle).isSome then fail "found duplicate %TAG directive"
          advance
          readDirectives fuel versioned (handles ++ [(handle, text)])
      | _ => return handles

/-- Passes over marks that end documents. -/
def skipEnds : Nat → Reader PUnit
  | 0 => return ⟨⟩
  | fuel + 1 => do
      if (← next) = .documentEnd then
        advance
        skipEnds fuel

/-- Reads a stream of one document, or of none. -/
def readStream (fuel : Nat) : Reader (Option (Node String)) := do
  let isDirective : Token → Bool
    | .version _ _ | .tagHandle _ _ => true
    | _ => false
  let first ← next
  if first = .streamEnd then return none
  let root ←
    if isDirective first || first = .documentStart then do
      let handles ← readDirectives fuel false []
      if (← next) ≠ .documentStart then fail "did not find expected <document start>"
      advance
      let token ← next
      if isDirective token || isOneOf [.documentStart, .documentEnd, .streamEnd] token then
        pure nothing
      else read handles fuel true false
    else read [] fuel true false
  skipEnds fuel
  if (← next) ≠ .streamEnd then fail "did not find the end of the only document"
  return some root

/-- **The document of a text**, or nothing if the text holds none. -/
def parse (text : String) : Except Fault (Option (Node String)) := do
  let tokens ← tokenize text
  let (root, _) ← (readStream (4 * tokens.length + 8)).run tokens
  return root

end Node

end AnnotationCache.Yaml

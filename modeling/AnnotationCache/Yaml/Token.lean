/-
  AnnotationCache.Yaml.Token
  ──────────────────────────
  **THE TOKENS OF A YAML TEXT.**

  Besides what is written, the tokens say where block collections start and
  end, which the text only shows by its indentation, and where a key stands,
  which it only shows by the colon behind it.
-/
import AnnotationCache.Yaml.BlockScalar
import AnnotationCache.Yaml.Folding
import AnnotationCache.Yaml.Tag

namespace AnnotationCache.Yaml

/-- Is a scalar written as it is, or in quotes or as a block? -/
inductive Style where
  | plain
  | quoted
  deriving DecidableEq, Repr, Inhabited

/-- A token. -/
inductive Token where
  | streamEnd
  | version (major minor : Nat)
  | tagHandle (handle : String) (text : Tag)
  | documentStart
  | documentEnd
  | blockSequenceStart
  | blockMappingStart
  | blockEnd
  | flowSequenceStart
  | flowSequenceEnd
  | flowMappingStart
  | flowMappingEnd
  | blockEntry
  | flowEntry
  | key
  | value
  | alias (name : String)
  | anchor (name : String)
  | tag (handle : String) (suffix : Tag)
  | scalar (style : Style) (text : String)
  deriving DecidableEq, Repr, Inhabited

/-! ## §1. Names. -/

/-- Reads the name of an anchor or alias after its sign. -/
def readAnchorName (c : Cursor) : Except Fault (String × Cursor) :=
  let (name, after) := c.takeWhile isWordChar
  let ended := after.seesWordEnd 0 ||
    (after.peek 0).any fun x => ['?', ':', ',', ']', '\x7d', '%', '@', '\x60'].contains x
  if name.isEmpty || !ended then c.fault "did not find expected alphabetic or numeric character"
  else .ok (String.ofList name, after)

/-! ## §2. Tags. -/

/-- The characters of tags besides those of names. -/
def isTagChar (verbatim : Bool) (x : Char) : Bool :=
  isWordChar x || [';', '/', '?', ':', '@', '&', '=', '+', '$', '.', '!', '~', '*', '\'', '(', ')',
    '%'].contains x || (verbatim && [',', '[', ']'].contains x)

/-- Reads a byte written as `%` and two hexadecimal digits. -/
def readEscapedByte (c : Cursor) : Except Fault (UInt8 × Cursor) :=
  match c.rest with
  | '%' :: a :: b :: _ =>
      match hexDigit? a, hexDigit? b with
      | some h, some l => .ok (UInt8.ofNat (h * 16 + l), c.skipMany 3)
      | _, _ => c.fault "did not find URI escaped octet"
  | _ => c.fault "did not find URI escaped octet"

/-- Reads so many bytes that continue an escaped character. -/
def readContinuation : Nat → Cursor → Except Fault (List UInt8 × Cursor)
  | 0, c => .ok ([], c)
  | more + 1, c => do
      let (byte, c') ← readEscapedByte c
      if byte / 64 ≠ 2 then c.fault "found an incorrect trailing UTF-8 octet"
      let (bytes, c') ← readContinuation more c'
      return (byte :: bytes, c')

/-- Reads an escaped character: a byte that says how many follow, and those.
Only the form of the bytes is asked for; they may spell no character. -/
def readEscapedChar (c : Cursor) : Except Fault (List UInt8 × Cursor) := do
  let (byte, c') ← readEscapedByte c
  let more ←
    if byte < 0x80 then pure 0
    else if byte / 32 = 6 then pure 1
    else if byte / 16 = 14 then pure 2
    else if byte / 8 = 30 then pure 3
    else c.fault "found an incorrect leading UTF-8 octet"
  let (bytes, c') ← readContinuation more c'
  return (byte :: bytes, c')

/-- Reads the bytes of a tag, in reverse and in front of those read already. -/
def readTagBytes (verbatim : Bool) :
    Nat → List UInt8 → Cursor → Except Fault (List UInt8 × Cursor)
  | 0, read, c => .ok (read, c)
  | fuel + 1, read, c =>
      match c.peek 0 with
      | none => .ok (read, c)
      | some x =>
          if !isTagChar verbatim x then .ok (read, c)
          else if x = '%' then do
            let (bytes, c) ← readEscapedChar c
            readTagBytes verbatim fuel (bytes.reverse ++ read) c
          else readTagBytes verbatim fuel (x.toUInt8 :: read) c.skip

/-- Reads the rest of a tag of which a head was read.  The exclamation mark of
the head is not part of the tag, but with nothing behind it the tag is empty
only if there was no head. -/
def readTagText (verbatim : Bool) (head : List Char) (c : Cursor) :
    Except Fault (Tag × Cursor) := do
  let before := head.tail.map Char.toUInt8
  let fuel := (c.rest.takeWhile (isTagChar verbatim)).length
  let (read, after) ← readTagBytes verbatim fuel before.reverse c
  if head.isEmpty && read.isEmpty then c.fault "did not find expected tag URI"
  return (Tag.ofBytes read.reverse, after)

/-- Reads a handle: an exclamation mark, a name that may be empty, and another
exclamation mark if there is one. -/
def readHandle (c : Cursor) : Except Fault (List Char × Cursor) :=
  if !c.sees 0 '!' then c.fault "did not find expected '!'"
  else
    let (name, c) := c.skip.takeWhile isWordChar
    if c.sees 0 '!' then .ok ('!' :: name ++ ['!'], c.skip) else .ok ('!' :: name, c)

/-- Reads a tag. -/
def readTag (flow : Bool) (c : Cursor) : Except Fault (Token × Cursor) := do
  let (token, after) ←
    if c.sees 1 '<' then do
      let (suffix, c) ← readTagText true [] (c.skipMany 2)
      if !c.sees 0 '>' then c.fault "did not find the expected '>'"
      pure (Token.tag "" suffix, c.skip)
    else do
      let (handle, c) ← readHandle c
      if 1 < handle.length ∧ handle.getLast? = some '!' then
        let (suffix, c) ← readTagText false [] c
        pure (Token.tag (String.ofList handle) suffix, c)
      else
        let (suffix, c) ← readTagText false handle c
        pure (if suffix.isEmpty then Token.tag "" Tag.mark else Token.tag "!" suffix, c)
  if after.seesWordEnd 0 || (flow && after.sees 0 ',') then return (token, after)
  c.fault "did not find expected whitespace or line break"

/-! ## §3. Directives. -/

/-- Reads a part of a version number, of nine digits at most. -/
def readVersionNumber (c : Cursor) : Except Fault (Nat × Cursor) :=
  let (digits, after) := c.takeWhile Char.isDigit
  if 9 < digits.length then c.fault "found extremely long version number"
  else if digits.isEmpty then c.fault "did not find expected version number"
  else .ok (digits.foldl (fun n d => n * 10 + (d.toNat - '0'.toNat)) 0, after)

/-- Reads what a version directive says. -/
def readVersion (c : Cursor) : Except Fault (Token × Cursor) := do
  let (major, c) ← readVersionNumber (c.skipWhile isBlank)
  if !c.sees 0 '.' then c.fault "did not find expected digit or '.' character"
  let (minor, c) ← readVersionNumber c.skip
  return (.version major minor, c)

/-- Reads what a tag directive says. -/
def readTagHandle (c : Cursor) : Except Fault (Token × Cursor) := do
  let (handle, c) ← readHandle (c.skipWhile isBlank)
  if handle ≠ ['!'] ∧ (handle.length = 1 ∨ handle.getLast? ≠ some '!') then
    c.fault "did not find expected '!'"
  if !c.seesBlank 0 then c.fault "did not find expected whitespace"
  let (text, c) ← readTagText true [] (c.skipWhile isBlank)
  if !c.seesWordEnd 0 then c.fault "did not find expected whitespace or line break"
  return (.tagHandle (String.ofList handle) text, c)

/-- Reads a directive, up to the end of its line. -/
def readDirective (c : Cursor) : Except Fault (Token × Cursor) := do
  let (name, after) := c.skip.takeWhile isWordChar
  if name.isEmpty then c.fault "could not find expected directive name"
  if !after.seesWordEnd 0 then c.fault "found unexpected non-alphabetical character"
  let (token, after) ←
    if name = "YAML".toList then readVersion after
    else if name = "TAG".toList then readTagHandle after
    else c.fault "found unknown directive name"
  return (token, ← finishLine after)

end AnnotationCache.Yaml

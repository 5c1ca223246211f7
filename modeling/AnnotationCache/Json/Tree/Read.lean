/-
  AnnotationCache.Json.Tree.Read
  ──────────────────────────────
  **FROM TEXT TO TREE.**

  Descent by recursion over the characters.  Every value starts with a
  character of its own, and so does every item after a comma, so the number of
  steps is at most twice the number of characters; that bound is the fuel, and
  it is never used up.
-/
import AnnotationCache.Json.Tree

namespace AnnotationCache.Json

/-! ## §1. Characters. -/

/-- The characters that may stand between any two tokens. -/
def isBlank (c : Char) : Bool :=
  c = ' ' || c = '\t' || c = '\n' || c = '\r'

/-- The text without the blanks at its start. -/
def skipBlanks (text : List Char) : List Char :=
  text.dropWhile isBlank

/-- The value of a hexadecimal digit of either case. -/
def hexValue? (c : Char) : Option Nat :=
  if '0' ≤ c ∧ c ≤ '9' then some (c.toNat - '0'.toNat)
  else if 'a' ≤ c ∧ c ≤ 'f' then some (c.toNat - 'a'.toNat + 10)
  else if 'A' ≤ c ∧ c ≤ 'F' then some (c.toNat - 'A'.toNat + 10)
  else none

/-- The value of four hexadecimal digits. -/
def hexWord? (a b c d : Char) : Option Nat := do
  return ((← hexValue? a) * 16 + (← hexValue? b)) * 256
    + ((← hexValue? c) * 16 + (← hexValue? d))

/-! ## §2. Strings. -/

/-- A part of a string: a character, or a numbered code unit. -/
inductive Unit16 where
  | char (c : Char)
  | code (n : Nat)
  deriving DecidableEq, Repr

/-- The character that a one-letter escape stands for. -/
def shortEscape? : Char → Option Char
  | '"' => some '"'
  | '\\' => some '\\'
  | '/' => some '/'
  | 'b' => some '\x08'
  | 'f' => some '\x0c'
  | 'n' => some '\n'
  | 'r' => some '\r'
  | 't' => some '\t'
  | _ => none

/-- Reads the parts of a string up to its closing quote, after those read
already; nothing when the text ends first, holds a bare control character or
an escape that does not exist. -/
def readUnits (read : List Unit16) : List Char → Option (List Unit16 × List Char)
  | [] => none
  | '"' :: rest => some (read.reverse, rest)
  | '\\' :: 'u' :: a :: b :: c :: d :: rest =>
      match hexWord? a b c d with
      | some n => readUnits (.code n :: read) rest
      | none => none
  | '\\' :: e :: rest =>
      match shortEscape? e with
      | some c => readUnits (.char c :: read) rest
      | none => none
  | c :: rest => if c.toNat < 32 || c = '\\' then none else readUnits (.char c :: read) rest

/-- Does a code unit open a surrogate pair? -/
def isLead (n : Nat) : Bool := 0xD800 ≤ n && n < 0xDC00

/-- Does a code unit close a surrogate pair? -/
def isTrail (n : Nat) : Bool := 0xDC00 ≤ n && n < 0xE000

/-- The characters that parts spell, after those spelt already; nothing when a
surrogate stands alone. -/
def spell (spelt : List Char) : List Unit16 → Option (List Char)
  | [] => some spelt.reverse
  | .char c :: rest => spell (c :: spelt) rest
  | .code n :: .code m :: rest =>
      if isLead n then
        if isTrail m then
          spell (Char.ofNat ((n - 0xD800) * 0x400 + (m - 0xDC00) + 0x10000) :: spelt) rest
        else none
      else if isTrail n then none
      else spell (Char.ofNat n :: spelt) (.code m :: rest)
  | .code n :: rest =>
      if isLead n || isTrail n then none else spell (Char.ofNat n :: spelt) rest

/-- Reads a string after its opening quote. -/
def readString (text : List Char) : Option (Option String × List Char) :=
  (readUnits [] text).map fun (units, rest) => ((spell [] units).map String.ofList, rest)

/-! ## §3. Numerals. -/

/-- Is the character a decimal digit? -/
def isDigit (c : Char) : Bool := '0' ≤ c && c ≤ '9'

/-- The digits at the start of a text, and the rest. -/
def readDigits (text : List Char) : List Nat × List Char :=
  ((text.takeWhile isDigit).map (fun c => c.toNat - '0'.toNat), text.dropWhile isDigit)

/-- Reads the digits after a point, if there is a point; a point wants digits. -/
def readFraction : List Char → Option (Option (List Nat) × List Char)
  | '.' :: text =>
      match readDigits text with
      | ([], _) => none
      | (digits, rest) => some (some digits, rest)
  | text => some (none, text)

/-- Reads an exponent, if there is one; an exponent wants digits. -/
def readExponent (text : List Char) : Option (Option (Bool × List Nat) × List Char) :=
  let digitsOf (negative : Bool) (text : List Char) :=
    match readDigits text with
    | ([], _) => none
    | (digits, rest) => some (some (negative, digits), rest)
  match text with
  | c :: rest =>
      if c = 'e' || c = 'E' then
        match rest with
        | '-' :: rest => digitsOf true rest
        | '+' :: rest => digitsOf false rest
        | rest => digitsOf false rest
      else some (none, text)
  | [] => some (none, text)

/-- Reads the part of a numeral after its sign.  A zero is the only digit
before the point that may come first and must then come alone. -/
def readUnsigned (negative : Bool) (text : List Char) : Option (Numeral × List Char) :=
  match readDigits text with
  | ([], _) => none
  | (0 :: _ :: _, _) => none
  | (whole, rest) => do
      let (fraction, rest) ← readFraction rest
      let (exponent, rest) ← readExponent rest
      return (⟨negative, whole, fraction, exponent⟩, rest)

/-- Reads a numeral. -/
def readNumeral : List Char → Option (Numeral × List Char)
  | '-' :: text => readUnsigned true text
  | text => readUnsigned false text

/-! ## §4. Values. -/

mutual

/-- Reads the value that starts a text.  After a fault nothing of the text is
left over, so every bracket around it stays open. -/
def readValue : Nat → List Char → Tree × List Char
  | 0, _ => (.broken, [])
  | fuel + 1, text =>
      match text with
      | 'n' :: 'u' :: 'l' :: 'l' :: rest => (.null, rest)
      | 't' :: 'r' :: 'u' :: 'e' :: rest => (.bool true, rest)
      | 'f' :: 'a' :: 'l' :: 's' :: 'e' :: rest => (.bool false, rest)
      | '"' :: rest =>
          match readString rest with
          | some (s, rest) => (.str s, rest)
          | none => (.broken, [])
      | '[' :: rest =>
          match skipBlanks rest with
          | ']' :: rest => (.arr [] true, rest)
          | rest =>
              let (items, closed, rest) := readItems fuel rest
              (.arr items closed, rest)
      | '\x7b' :: rest =>
          match skipBlanks rest with
          | '\x7d' :: rest => (.obj [] true, rest)
          | '"' :: rest =>
              let (members, closed, rest) := readMembers fuel rest
              (.obj members closed, rest)
          | _ => (.misfit, [])
      | text =>
          match readNumeral text with
          | some (n, rest) => (.num n, rest)
          | none => (.broken, [])

/-- Reads items up to the closing bracket; a comma wants an item after it. -/
def readItems : Nat → List Char → List Tree × Bool × List Char
  | 0, _ => ([], false, [])
  | fuel + 1, text =>
      let (item, rest) := readValue fuel text
      match skipBlanks rest with
      | ',' :: rest =>
          match skipBlanks rest with
          | ']' :: _ => ([item], false, [])
          | rest =>
              let (items, closed, rest) := readItems fuel rest
              (item :: items, closed, rest)
      | ']' :: rest => ([item], true, rest)
      | _ => ([item], false, [])

/-- Reads members, from within the first key, up to the closing bracket. -/
def readMembers : Nat → List Char → List (Option String × Tree) × Bool × List Char
  | 0, _ => ([], false, [])
  | fuel + 1, text =>
      match readString text with
      | none => ([], false, [])
      | some (key, rest) =>
          match skipBlanks rest with
          | ':' :: rest =>
              let (value, rest) := readValue fuel (skipBlanks rest)
              match skipBlanks rest with
              | ',' :: rest =>
                  match skipBlanks rest with
                  | '"' :: rest =>
                      let (members, closed, rest) := readMembers fuel rest
                      ((key, value) :: members, closed, rest)
                  | _ => ([(key, value)], false, [])
              | '\x7d' :: rest => ([(key, value)], true, rest)
              | _ => ([(key, value)], false, [])
          | _ => ([(key, .broken)], false, [])

end

/-- **Reads a whole text**: its tree, and whether only blanks follow it. -/
def Tree.read (text : String) : Tree × Bool :=
  let chars := text.toList
  let (tree, rest) := readValue (2 * chars.length + 2) (skipBlanks chars)
  (tree, (skipBlanks rest).isEmpty)

end AnnotationCache.Json

/-
  AnnotationCache.Json.Render
  ───────────────────────────
  **WRITING JSON TEXT.**

  One renderer serves both forms of text.  The compact form, which the cache
  stores and which annotations are displayed in, has no space anywhere; the
  indented form, which reports are written in, puts every item and member on a
  line of its own, two spaces deeper than its bracket.  Empty arrays and
  objects have nothing between their brackets in both.

  Strings escape the quote, the backslash and the characters below U+0020, and
  nothing else.
-/
import AnnotationCache.Json.Value
import AnnotationCache.Double.Shortest

namespace AnnotationCache.Json

/-! ## §1. Scalars. -/

/-- The text of an integer. -/
def intChars (n : Int) : List Char :=
  if n < 0 then '-' :: Nat.toDigits 10 n.natAbs else Nat.toDigits 10 n.natAbs

/-- How one character of a string is written. -/
def escapeChar (c : Char) : List Char :=
  if c = '"' then ['\\', '"']
  else if c = '\\' then ['\\', '\\']
  else if c = '\x08' then ['\\', 'b']
  else if c = '\x0c' then ['\\', 'f']
  else if c = '\n' then ['\\', 'n']
  else if c = '\r' then ['\\', 'r']
  else if c = '\t' then ['\\', 't']
  else if c.toNat < 32 then
    ['\\', 'u', '0', '0', Nat.digitChar (c.toNat / 16), Nat.digitChar (c.toNat % 16)]
  else [c]

/-- The text of a string, quotes included. -/
def quoted (s : String) : List Char :=
  '"' :: s.toList.flatMap escapeChar ++ ['"']

/-! ## §2. Values. -/

/-- What stands between the parts of arrays and objects. -/
structure Style where
  /-- What starts a line at a depth of nesting. -/
  line : Nat → List Char
  /-- What follows the key of a member. -/
  colon : List Char

/-- No spaces and no lines. -/
def compactStyle : Style := ⟨fun _ => [], [':']⟩

/-- Two spaces for each level of nesting, and one after a colon. -/
def indentedStyle : Style := ⟨fun level => '\n' :: List.replicate (2 * level) ' ', [':', ' ']⟩

/-- Parts in brackets, separated by commas, each on its line. -/
def Style.bracketed (style : Style) (level : Nat) (opening closing : Char)
    (parts : List (List Char)) : List Char :=
  if parts.isEmpty then [opening, closing]
  else
    opening :: style.line (level + 1) ++
      List.intercalate (',' :: style.line (level + 1)) parts ++
      style.line level ++ [closing]

mutual

/-- The text of a value whose brackets stand at a depth of nesting. -/
def render (style : Style) (level : Nat) : Json → List Char
  | .null => ['n', 'u', 'l', 'l']
  | .bool true => ['t', 'r', 'u', 'e']
  | .bool false => ['f', 'a', 'l', 's', 'e']
  | .int n => intChars n
  | .float x => x.chars
  | .str s => quoted s
  | .arr items => style.bracketed level '[' ']' (renderItems style (level + 1) items)
  | .obj members =>
      style.bracketed level '\x7b' '\x7d' (renderMembers style (level + 1) members)

/-- The texts of the items of an array. -/
def renderItems (style : Style) (level : Nat) : List Json → List (List Char)
  | [] => []
  | x :: xs => render style level x :: renderItems style level xs

/-- The texts of the members of an object. -/
def renderMembers (style : Style) (level : Nat) : List (String × Json) → List (List Char)
  | [] => []
  | (k, x) :: xs =>
      (quoted k ++ style.colon ++ render style level x) :: renderMembers style level xs

end

/-- The compact text of a value. -/
def compact (v : Json) : String :=
  String.ofList (render compactStyle 0 v)

/-- The indented text of a value. -/
def indented (v : Json) : String :=
  String.ofList (render indentedStyle 0 v)

end AnnotationCache.Json

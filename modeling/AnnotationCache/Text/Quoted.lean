/-
  AnnotationCache.Text.Quoted
  ───────────────────────────
  **TEXT QUOTED FOR A MESSAGE.**

  Where a message quotes a text, the quote and the backslash are escaped, so
  are the usual control characters, and whatever would not show on its own is
  written by its number.
-/
import AnnotationCache.Text.Visible

namespace AnnotationCache.Text

/-- A character by its number, in hexadecimal. -/
def numbered (c : Char) : List Char :=
  ['\\', 'u', '\x7b'] ++ Nat.toDigits 16 c.toNat ++ ['\x7d']

/-- How one character is written between the quotes. -/
def quoteChar (c : Char) : List Char :=
  if c = '"' then ['\\', '"']
  else if c = '\\' then ['\\', '\\']
  else if c = '\x00' then ['\\', '0']
  else if c = '\t' then ['\\', 't']
  else if c = '\n' then ['\\', 'n']
  else if c = '\r' then ['\\', 'r']
  else if isVisible c then [c]
  else numbered c

/-- A text in quotes. -/
def quoted (s : String) : String :=
  String.ofList ('"' :: s.toList.flatMap quoteChar ++ ['"'])

end AnnotationCache.Text

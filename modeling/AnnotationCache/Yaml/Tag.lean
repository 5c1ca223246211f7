/-
  AnnotationCache.Yaml.Tag
  ────────────────────────
  **THE TAGS OF NODES.**

  A tag says what kind of node it stands in front of.  A text may escape the
  bytes of a tag one by one, and need not escape what spells characters; so a
  tag is made of bytes, and whether they spell a name is asked only where a
  name is wanted.
-/
namespace AnnotationCache.Yaml

/-- A tag, as the bytes that it spells. -/
structure Tag where
  bytes : List UInt8
  deriving DecidableEq, Repr, Inhabited

namespace Tag

/-- The tag that bytes spell.  A zero byte ends it, whatever follows. -/
def ofBytes (bytes : List UInt8) : Tag :=
  ⟨bytes.takeWhile (· ≠ 0)⟩

/-- The tag that a text spells. -/
def ofString (text : String) : Tag :=
  ofBytes text.toUTF8.toList

/-- Is nothing spelt? -/
def isEmpty (tag : Tag) : Bool :=
  tag.bytes.isEmpty

/-- A tag spelt in two parts. -/
def append (first second : Tag) : Tag :=
  ⟨first.bytes ++ second.bytes⟩

instance : Append Tag := ⟨append⟩

/-- The tag of a kind that every document knows. -/
def core (name : String) : Tag :=
  ofString ("tag:yaml.org,2002:" ++ name)

/-- The exclamation mark, as a tag of its own. -/
def mark : Tag :=
  ofString "!"

/-- Is it a tag that only this document knows?  Such a tag starts with an
exclamation mark. -/
def isLocal (tag : Tag) : Bool :=
  tag.bytes.head? = mark.bytes.head?

/-- The name of a tag that only this document knows: what stands behind the
exclamation mark, or the mark itself.  Bytes that spell no characters are no
name. -/
def localName? (tag : Tag) : Option String :=
  if tag = mark then some "!"
  else if tag.isLocal then String.fromUTF8? tag.bytes.tail.toByteArray
  else none

end Tag

end AnnotationCache.Yaml

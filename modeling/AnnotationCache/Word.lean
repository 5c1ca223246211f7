/-
  AnnotationCache.Word
  ────────────────────
  **THE RANGES OF MACHINE WORDS.**

  Integers are mathematical here; where a text or a store limits them to words
  of a machine, the limits are these.
-/
namespace AnnotationCache.Word

/-- How many values a word of 64 bits has: `2^64`. -/
def size : Nat := 0x10000000000000000

/-- How many of them are negative when words have a sign: `2^63`. -/
def half : Nat := 0x8000000000000000

/-- How many values a word of 128 bits has: `2^128`. -/
def doubleSize : Nat := 0x100000000000000000000000000000000

/-- How many of them are negative when words have a sign: `2^127`. -/
def doubleHalf : Nat := 0x80000000000000000000000000000000

end AnnotationCache.Word

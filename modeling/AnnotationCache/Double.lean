/-
  AnnotationCache.Double
  ──────────────────────
  **64-BIT BINARY FLOATS, IN EXACT ARITHMETIC.**

  A number of an annotation value that has a fraction, an exponent or too many
  digits is a 64-bit binary float.  `Double` is such a float as its sign and
  the 63 bits below it; every operation is defined on natural numbers, so it
  evaluates in the kernel and rounds by one rule only:

      nearest num den  —  the float closest to num / den,
                          a tie goes to the even neighbour,
                          too large a quotient goes to infinity.

  The magnitude of a finite float is `shift · 2^52 + significand`, and its
  value is `significand · 2^(shift − 1074)`.  Written this way a significand
  that rounds up to the next power of two carries into the shift by itself.
-/
namespace AnnotationCache

/-- A 64-bit binary float: the sign, and the 63 bits below it. -/
structure Double where
  /-- Is the sign bit set? -/
  negative : Bool
  /-- Exponent and fraction bits, as one number. -/
  magnitude : Nat
  deriving DecidableEq, Repr, Inhabited

namespace Double

/-! ## §1. The bits and what they mean. -/

/-- How many magnitudes share a power of two: `2^52`. -/
def fractions : Nat := 0x10000000000000

/-- The magnitude of infinity; anything below it is a finite number. -/
def infinity : Nat := 2047 * fractions

/-- Is the float a number? -/
def isFinite (x : Double) : Bool :=
  x.magnitude < infinity

/-- Is the float zero, of either sign? -/
def isZero (x : Double) : Bool :=
  x.magnitude == 0

/-- The power of two above `2^(-1074)` that scales the significand. -/
def shift (x : Double) : Nat :=
  x.magnitude / fractions - 1

/-- The whole number that `2^(shift − 1074)` scales. -/
def significand (x : Double) : Nat :=
  x.magnitude - x.shift * fractions

/-- Two floats are **the same number** when their bits agree or both are zero. -/
def same (x y : Double) : Bool :=
  x == y || (x.isZero && y.isZero)

/-! ## §2. Rounding. -/

/-- The quotient `num / den` rounded to a whole number, ties to even. -/
def roundQuotient (num den : Nat) : Nat :=
  let quotient := num / den
  let twice := 2 * (num % den)
  if den < twice ∨ (twice = den ∧ quotient % 2 = 1) then quotient + 1 else quotient

/-- **The magnitude of the float nearest to `num / den`.** -/
def nearest (num den : Nat) : Nat :=
  let units := num <<< 1074
  let shift := Nat.log2 (units / den) - 52
  min infinity (shift * fractions + roundQuotient units (den <<< shift))

/-- The float nearest to a natural number. -/
def ofNat (n : Nat) : Double :=
  ⟨false, nearest n 1⟩

/-- The number `10^k`. -/
def tenTo (k : Nat) : Nat :=
  Nat.pow 10 k

/-- The float nearest to `10^k`. -/
def powerOfTen (k : Nat) : Double :=
  ofNat (tenTo k)

/-- The float nearest to a product. -/
def mul (x y : Double) : Double :=
  ⟨x.negative != y.negative,
    if x.isFinite && y.isFinite then
      nearest ((x.significand * y.significand) <<< (x.shift + y.shift)) (1 <<< 2148)
    else infinity⟩

/-- The float nearest to a quotient by a float that is not zero. -/
def div (x y : Double) : Double :=
  ⟨x.negative != y.negative,
    if x.isFinite then nearest (x.significand <<< x.shift) (y.significand <<< y.shift)
    else infinity⟩

/-- The float with the other sign. -/
def neg (x : Double) : Double :=
  { x with negative := !x.negative }

/-- The number of decimal digits of `n`. -/
def digitCount (n : Nat) : Nat :=
  (Nat.toDigits 10 n).length

/-- **The float nearest to `digits · 10^exponent`.**  Beyond `10^310` lies only
infinity and below `10^(-326)` only zero, so a huge exponent costs nothing. -/
def ofDecimal (negative : Bool) (digits : Nat) (exponent : Int) : Double :=
  let top := exponent + digitCount digits
  ⟨negative,
    if digits = 0 ∨ top < -326 then 0
    else if 311 < top then infinity
    else if 0 ≤ exponent then nearest (digits * tenTo exponent.toNat) 1
    else nearest digits (tenTo (-exponent).toNat)⟩

end Double

end AnnotationCache

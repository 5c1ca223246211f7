/-
  AnnotationCache.Json.Numeral
  ────────────────────────────
  **NUMBERS AS THEY ARE WRITTEN IN JSON TEXT.**

  A numeral without fraction and exponent denotes an integer as long as it fits
  64 bits; every other numeral denotes a float.  Floats are scaled, not rounded
  once: the digits are gathered into a 64-bit word for as long as they fit, the
  word becomes a float, and the float is multiplied or divided by a power of
  ten.  The result can be a neighbour of the nearest float, and it is the float
  that the text stands for here.
-/
import AnnotationCache.Double
import AnnotationCache.Word

namespace AnnotationCache.Json

/-- A numeral, digit by digit. -/
structure Numeral where
  /-- Does a minus sign stand in front? -/
  negative : Bool
  /-- The digits before the point. -/
  whole : List Nat
  /-- The digits after the point, if there is one. -/
  fraction : Option (List Nat)
  /-- The sign and the digits of the exponent, if there is one. -/
  exponent : Option (Bool × List Nat)
  deriving DecidableEq, Repr, Inhabited

/-- What a numeral denotes. -/
inductive Number where
  | int (n : Int)
  | float (x : Double)
  deriving DecidableEq, Repr, Inhabited

namespace Numeral

/-- The number that digits spell. -/
def ofDigits (digits : List Nat) : Nat :=
  digits.foldl (fun n d => n * 10 + d) 0

/-- Gathers digits into a word for as long as the word fits 64 bits; the digits
that no longer fit are left over. -/
def gather : Nat → List Nat → Nat × List Nat
  | word, [] => (word, [])
  | word, d :: ds =>
      if word * 10 + d < Word.size then gather (word * 10 + d) ds else (word, d :: ds)

/-- Divides by `10^k`, by `10^308` at a time. -/
def scaleDown (k : Nat) (x : Double) : Double :=
  if k ≤ 308 then x.div (Double.powerOfTen k)
  else if x.isZero then x
  else scaleDown (k - 308) (x.div (Double.powerOfTen 308))
termination_by k

/-- A word scaled by a power of ten; nothing when the result is no number. -/
def scale (word : Nat) (exponent : Int) : Option Double :=
  let x := Double.ofNat word
  if exponent < 0 then some (scaleDown exponent.natAbs x)
  else if x.isZero then some x
  else if 308 < exponent then none
  else
    let y := x.mul (Double.powerOfTen exponent.toNat)
    if y.isFinite then some y else none

/-- The greatest exponent that is looked at. -/
def maxExponent : Nat := 0x7fffffff

/-- **The number that a numeral denotes**; nothing when it lies beyond the
floats.  An exponent of more than 31 bits is not looked at any further: it
leaves a zero, or a number beyond the floats. -/
def number (n : Numeral) : Option Number :=
  let (word, excess) := gather 0 n.whole
  let signed (x : Double) : Number := .float (if n.negative then x.neg else x)
  if n.fraction = none ∧ n.exponent = none ∧ excess = [] then
    if n.negative then
      if word = 0 ∨ Word.half < word then some (signed (Double.ofNat word))
      else some (.int (-word))
    else some (.int word)
  else
    let fraction := n.fraction.getD []
    let (word, unread) := gather word fraction
    let point : Int := excess.length - (fraction.length - unread.length : Nat)
    match n.exponent with
    | none => (scale word point).map signed
    | some (negative, digits) =>
        let e := ofDigits digits
        if maxExponent < e then
          if word ≠ 0 ∧ !negative then none else some (signed (Double.ofNat 0))
        else (scale word (if negative then point - e else point + e)).map signed

end Numeral

end AnnotationCache.Json

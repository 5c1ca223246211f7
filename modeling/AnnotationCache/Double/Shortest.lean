/-
  AnnotationCache.Double.Shortest
  ───────────────────────────────
  **THE FEWEST DECIMAL DIGITS THAT READ BACK.**

  A float stands for every real number that rounds to it.  Those reals form an
  interval around its value, and the text of the float is the decimal with the
  fewest digits inside that interval, the nearest one where several have as
  few.  The search tries 1, 2, … 17 digits: on each grid only the two points
  next to the value can be nearest, and the first grid with a hit wins.
-/
import AnnotationCache.Double

namespace AnnotationCache

/-- A decimal number: `digits · 10^exponent`. -/
structure Decimal where
  digits : Nat
  exponent : Int
  deriving DecidableEq, Repr, Inhabited

namespace Double

/-! ## §1. The interval of a float. -/

/-- Twice the ends of the interval of reals that round to a float, and the
float's value, all as whole multiples of `2^(shift − 1076)`. -/
structure Neighbourhood where
  low : Nat
  value : Nat
  high : Nat
  /-- Do the ends themselves round to the float? -/
  closed : Bool
  /-- The power of two that scales the three numbers, over `2^1076`. -/
  shift : Nat

/-- The neighbourhood of a float other than zero: half a step to each side,
and a quarter step below a power of two, where the steps get smaller. -/
def neighbourhood (x : Double) : Neighbourhood :=
  let m := x.significand
  { low := 4 * m - (if m = fractions ∧ 0 < x.shift then 1 else 2)
    value := 4 * m
    high := 4 * m + 2
    closed := m % 2 = 0
    shift := x.shift }

/-- `point · 10^exponent` against `multiple · 2^(shift − 1076)`. -/
def comparePoint (point : Nat) (exponent : Int) (multiple shift : Nat) : Ordering :=
  if 0 ≤ exponent then
    compare ((point * tenTo exponent.toNat) <<< 1076) (multiple <<< shift)
  else
    compare (point <<< 1076) ((multiple <<< shift) * tenTo (-exponent).toNat)

/-- Does the decimal `point · 10^exponent` round to the float? -/
def Neighbourhood.contains (near : Neighbourhood) (point : Nat) (exponent : Int) : Bool :=
  (match comparePoint point exponent near.low near.shift with
    | .gt => true
    | .eq => near.closed
    | .lt => false) &&
  (match comparePoint point exponent near.high near.shift with
    | .lt => true
    | .eq => near.closed
    | .gt => false)

/-! ## §2. The grids. -/

/-- The grid point at or below the value. -/
def Neighbourhood.floorOn (near : Neighbourhood) (exponent : Int) : Nat :=
  if 0 ≤ exponent then
    (near.value <<< near.shift) / (tenTo exponent.toNat <<< 1076)
  else
    ((near.value <<< near.shift) * tenTo (-exponent).toNat) >>> 1076

/-- The nearest grid point that rounds to the float; a tie goes to the even digit. -/
def Neighbourhood.bestOn (near : Neighbourhood) (exponent : Int) : Option Nat :=
  let below := near.floorOn exponent
  match near.contains below exponent, near.contains (below + 1) exponent with
  | true, false => some below
  | false, true => some (below + 1)
  | false, false => none
  | true, true =>
      match comparePoint (2 * below + 1) exponent (2 * near.value) near.shift with
      | .lt => some (below + 1)
      | .gt => some below
      | .eq => some (if below % 2 = 0 then below else below + 1)

/-- The position of the decimal point: the value lies in `[10^(p-1), 10^p)`. -/
def Neighbourhood.pointPosition (near : Neighbourhood) : Int :=
  let log2 : Int := Nat.log2 near.value + near.shift - 1076
  let guess : Int := log2 * 30103 / 100000
  let reaches (p : Int) : Bool := comparePoint 1 p near.value near.shift != .gt
  let rec climb : Nat → Int → Int
    | 0, p => p
    | steps + 1, p => if reaches p then climb steps (p + 1) else p
  climb 4 (guess - 1)

/-- A decimal without trailing zeros in its digits. -/
def trimZeros : Nat → Nat → Int → Decimal
  | 0, digits, exponent => ⟨digits, exponent⟩
  | steps + 1, digits, exponent =>
      if digits ≠ 0 ∧ digits % 10 = 0 then trimZeros steps (digits / 10) (exponent + 1)
      else ⟨digits, exponent⟩

/-- **The shortest decimal that reads back**, for the magnitude of a finite
float other than zero. -/
def shortest (x : Double) : Decimal :=
  let near := x.neighbourhood
  let point := near.pointPosition
  let rec search : Nat → Nat → Decimal
    | 0, _ => ⟨near.value, 0⟩
    | steps + 1, count =>
        match near.bestOn (point - count) with
        | some digits => trimZeros 18 digits (point - count)
        | none => search steps (count + 1)
  search 17 1

/-! ## §3. The text. -/

/-- Where numbers are written without an exponent, and what follows one. -/
structure Layout where
  /-- The least position of the decimal point that is written out. -/
  least : Int
  /-- The greatest position of the decimal point that is written out. -/
  most : Int

/-- JSON text writes out numbers from `0.00001` up to below `10^16`. -/
def jsonLayout : Layout := ⟨-4, 16⟩

/-- The text of a decimal: always with a point or an exponent, and a signed
exponent where the layout does not write the number out. -/
def Layout.render (form : Layout) (d : Decimal) : List Char :=
  let digits := Nat.toDigits 10 d.digits
  let point : Int := d.exponent + digits.length
  if form.least ≤ point ∧ point ≤ 0 then
    ['0', '.'] ++ List.replicate (-point).toNat '0' ++ digits
  else if 0 < point ∧ point ≤ form.most then
    if digits.length ≤ point.toNat then
      digits ++ List.replicate (point.toNat - digits.length) '0' ++ ['.', '0']
    else digits.take point.toNat ++ '.' :: digits.drop point.toNat
  else
    let exponent := point - 1
    (match digits with
      | first :: second :: rest => first :: '.' :: second :: rest
      | _ => digits) ++
    'e' :: (if exponent < 0 then '-' else '+') :: Nat.toDigits 10 exponent.natAbs

/-- **The text of a finite float**: the fewest digits that read back. -/
def chars (x : Double) : List Char :=
  (if x.negative then ['-'] else []) ++
    (if x.isZero then ['0', '.', '0'] else jsonLayout.render x.shortest)

end Double

end AnnotationCache

/-
  AnnotationCache.Proofs.Double.Finite
  ────────────────────────────────────
  **HOW LARGE FLOATS CAN GET.**

  A float has as many steps as its magnitude has powers of two.  Rounding a
  quotient gives no more steps than there are bits in front of its point, and
  dividing takes away as many as the divisor has.  So bounds on steps tell that
  a float is finite, without a look at its digits.

  Main statements:
    * `nearest_le`, `le_nearest` — the steps of a rounded quotient;
    * `Within.div`               — the steps of a quotient of floats;
    * `le_scaled_powerOfTen`     — how much a power of ten takes away at least.
-/
import AnnotationCache.Double
import AnnotationCache.Word
import Mathlib.Algebra.Order.Group.Nat

namespace AnnotationCache.Double

/-! ## §1. Rounding. -/

theorem roundQuotient_le (num den : Nat) : roundQuotient num den ≤ num / den + 1 := by
  unfold roundQuotient
  dsimp only
  split <;> omega

theorem le_roundQuotient (num den : Nat) : num / den ≤ roundQuotient num den := by
  unfold roundQuotient
  dsimp only
  split <;> omega

/-- A number is below the power of two that its logarithm is below. -/
theorem lt_shiftLeft_log2 (n : Nat) : n < 1 <<< (Nat.log2 n - 52 + 53) := by
  have hlog : n < 2 ^ (Nat.log2 n + 1) := Nat.lt_log2_self
  have hmore : (2 : Nat) ^ (Nat.log2 n + 1) ≤ 2 ^ (Nat.log2 n - 52 + 53) :=
    Nat.pow_le_pow_right (by decide) (by omega)
  rw [Nat.one_shiftLeft]
  omega

/-- What a quotient of so many bits above a whole significand is rounded to. -/
theorem rounded_le {units den bits : Nat} (h : units < den * 2 ^ (53 + bits)) :
    (Nat.log2 (units / den) - 52) * fractions
        + roundQuotient units (den <<< (Nat.log2 (units / den) - 52))
      ≤ (bits + 2) * fractions := by
  -- The quotient has no more bits than that, so it is not shifted any further.
  have hquotient : units / den < 2 ^ (53 + bits) := Nat.div_lt_of_lt_mul h
  have hshift : Nat.log2 (units / den) - 52 ≤ bits := by
    by_cases hzero : units / den = 0
    · rw [hzero]
      exact Nat.zero_le bits
    · have hlog := (Nat.log2_lt hzero).2 hquotient
      omega
  -- What is left of it after the shift has at most fifty-three bits.
  have hrounded : roundQuotient units (den <<< (Nat.log2 (units / den) - 52)) ≤ 2 * fractions := by
    refine Nat.le_trans (roundQuotient_le _ _) ?_
    have hbits := lt_shiftLeft_log2 (units / den)
    rw [Nat.one_shiftLeft, Nat.pow_add] at hbits
    have hleft : units / den / 2 ^ (Nat.log2 (units / den) - 52) < 2 * fractions :=
      Nat.div_lt_of_lt_mul hbits
    rw [Nat.shiftLeft_eq, ← Nat.div_div_eq_div_mul]
    exact hleft
  have hsteps : (Nat.log2 (units / den) - 52) * fractions ≤ bits * fractions :=
    Nat.mul_le_mul_right fractions hshift
  rw [Nat.add_mul]
  exact Nat.add_le_add hsteps hrounded

/-- **The steps of a rounded quotient**: two more than the bits by which the quotient
exceeds a whole significand. -/
theorem nearest_le {num den bits : Nat} (h : num <<< 1074 < den * 2 ^ (53 + bits)) :
    nearest num den ≤ (bits + 2) * fractions :=
  Nat.le_trans (Nat.min_le_right _ _) (rounded_le h)

/-- What a quotient of at least so many bits above a whole significand is rounded to. -/
theorem le_rounded {units den bits : Nat} (hden : 0 < den) (h : den * 2 ^ (52 + bits) ≤ units) :
    (bits + 1) * fractions ≤ (Nat.log2 (units / den) - 52) * fractions
        + roundQuotient units (den <<< (Nat.log2 (units / den) - 52)) := by
  have hquotient : 2 ^ (52 + bits) ≤ units / den := by
    rw [Nat.le_div_iff_mul_le hden, Nat.mul_comm]
    exact h
  have hzero : units / den ≠ 0 := fun hzero =>
    absurd hquotient (by rw [hzero]; exact Nat.not_le.2 (Nat.two_pow_pos _))
  have hlog : 52 + bits ≤ Nat.log2 (units / den) := (Nat.le_log2 hzero).2 hquotient
  have hrounded : fractions ≤ roundQuotient units (den <<< (Nat.log2 (units / den) - 52)) := by
    refine Nat.le_trans ?_ (le_roundQuotient _ _)
    rw [Nat.shiftLeft_eq, ← Nat.div_div_eq_div_mul, Nat.le_div_iff_mul_le (Nat.two_pow_pos _)]
    have hself := Nat.log2_self_le hzero
    have hsplit : Nat.log2 (units / den) = 52 + (Nat.log2 (units / den) - 52) := by omega
    rw [hsplit, Nat.pow_add] at hself
    exact hself
  have hsteps : bits * fractions ≤ (Nat.log2 (units / den) - 52) * fractions :=
    Nat.mul_le_mul_right fractions (by omega)
  rw [Nat.add_mul, Nat.one_mul]
  exact Nat.add_le_add hsteps hrounded

/-- **The least steps of a rounded quotient**, if they are not those of infinity. -/
theorem le_nearest {num den bits : Nat} (hden : 0 < den) (hbits : bits < 2047)
    (h : den * 2 ^ (52 + bits) ≤ num <<< 1074) : (bits + 1) * fractions ≤ nearest num den :=
  Nat.le_min.2 ⟨Nat.mul_le_mul_right fractions hbits, le_rounded hden h⟩

/-! ## §2. Steps. -/

variable {x y : Double} {steps fewer : Nat}

/-- Has a float at most so many steps? -/
def Within (x : Double) (steps : Nat) : Prop :=
  x.magnitude ≤ steps * fractions

theorem Within.mono (h : x.Within steps) {more : Nat} (hmore : steps ≤ more) : x.Within more :=
  Nat.le_trans h (Nat.mul_le_mul_right fractions hmore)

/-- A float of fewer steps than infinity is finite. -/
theorem Within.isFinite (h : x.Within steps) (hsteps : steps < 2047) : x.isFinite = true := by
  have hless : steps * fractions < 2047 * fractions := Nat.mul_lt_mul_of_pos_right hsteps (by decide)
  exact decide_eq_true (Nat.lt_of_le_of_lt h hless)

/-- A float, counted in the least one. -/
def scaled (x : Double) : Nat :=
  x.significand <<< x.shift

theorem significand_lt (x : Double) : x.significand < 2 * fractions := by
  have hpos : 0 < fractions := by decide
  have hdiv := Nat.div_add_mod x.magnitude fractions
  have hmod := Nat.mod_lt x.magnitude hpos
  unfold significand shift
  generalize x.magnitude / fractions = quotient at hdiv ⊢
  cases quotient with
  | zero => omega
  | succ quotient =>
      rw [Nat.mul_succ, Nat.mul_comm] at hdiv
      rw [Nat.add_sub_cancel]
      omega

/-- A float of so many steps has so many bits. -/
theorem Within.scaled_lt (h : x.Within (steps + 1)) : x.scaled < 2 ^ (53 + steps) := by
  have hshift : x.shift ≤ steps := by
    have hdiv : x.magnitude / fractions ≤ steps + 1 := by
      refine Nat.le_trans (Nat.div_le_div_right h) ?_
      rw [Nat.mul_div_cancel _ (by decide)]
    unfold shift
    omega
  unfold scaled
  rw [Nat.shiftLeft_eq, Nat.pow_add]
  have hsignificand : x.significand < 2 ^ 53 := x.significand_lt
  have hmore : (2 : Nat) ^ x.shift ≤ 2 ^ steps := Nat.pow_le_pow_right (by decide) hshift
  calc x.significand * 2 ^ x.shift
      ≤ x.significand * 2 ^ steps := Nat.mul_le_mul_left _ hmore
    _ < 2 ^ 53 * 2 ^ steps := Nat.mul_lt_mul_of_pos_right hsignificand (Nat.two_pow_pos steps)

/-- A float of at least so many steps has at least so many bits. -/
theorem le_scaled (h : (steps + 1) * fractions ≤ x.magnitude) : 2 ^ (52 + steps) ≤ x.scaled := by
  have hdiv : steps + 1 ≤ x.magnitude / fractions := by
    rw [Nat.le_div_iff_mul_le (by decide)]
    exact h
  have hshift : steps ≤ x.shift := by
    unfold shift
    omega
  have hsignificand : 2 ^ 52 ≤ x.significand := by
    -- One step below the magnitude there is a whole one left.
    have hwhole : (x.shift + 1) * fractions ≤ x.magnitude := by
      refine Nat.le_trans (Nat.mul_le_mul_right fractions ?_) (Nat.div_mul_le_self x.magnitude fractions)
      unfold shift
      omega
    rw [Nat.add_mul, Nat.one_mul] at hwhole
    show fractions ≤ x.magnitude - x.shift * fractions
    omega
  unfold scaled
  rw [Nat.shiftLeft_eq, Nat.pow_add]
  exact Nat.mul_le_mul hsignificand (Nat.pow_le_pow_right (by decide) hshift)

/-- A number that is shifted stays below another one with at least as many bits in all. -/
theorem shiftLeft_lt {a b low high top above : Nat} (ha : a < 2 ^ low) (hb : 2 ^ high ≤ b)
    (hbits : low + top ≤ high + above) : a <<< top < b * 2 ^ above :=
  calc a <<< top
      = a * 2 ^ top := Nat.shiftLeft_eq a top
    _ < 2 ^ low * 2 ^ top := Nat.mul_lt_mul_of_pos_right ha (Nat.two_pow_pos _)
    _ = 2 ^ (low + top) := (Nat.pow_add 2 low top).symm
    _ ≤ 2 ^ (high + above) := Nat.pow_le_pow_right (by decide) hbits
    _ = 2 ^ high * 2 ^ above := Nat.pow_add 2 high above
    _ ≤ b * 2 ^ above := Nat.mul_le_mul_right _ hb

/-- **The steps of a quotient of floats**: the divisor takes away those that it has above
those of one. -/
theorem Within.div (h : x.Within (steps + 1)) (hsteps : steps < 2046)
    (hy : 2 ^ (1074 + fewer) ≤ y.scaled) : (x.div y).Within (steps - fewer + 2) := by
  have hfinite : x.isFinite = true := h.isFinite (by omega)
  show (if x.isFinite then nearest x.scaled y.scaled else infinity) ≤ _
  rw [if_pos hfinite]
  exact nearest_le (shiftLeft_lt h.scaled_lt hy (by omega))

/-! ## §3. Words and powers of ten. -/

/-- The steps of a word. -/
theorem within_ofNat {n : Nat} (h : n < Word.size) : (ofNat n).Within 1087 := by
  have hn : n < 2 ^ 64 := h
  have hone : 2 ^ 0 ≤ 1 := Nat.le_refl 1
  have hbits : n <<< 1074 < 1 * 2 ^ (53 + 1085) := shiftLeft_lt hn hone (by decide)
  exact nearest_le hbits

theorem le_shiftLeft {a low : Nat} (h : 2 ^ low ≤ a) (top : Nat) : 2 ^ (low + top) ≤ a <<< top := by
  rw [Nat.shiftLeft_eq, Nat.pow_add]
  exact Nat.mul_le_mul_right _ h

/-- **A power of ten has at least so many bits**, if it is no infinite float. -/
theorem le_scaled_powerOfTen {k bits : Nat} (hbits : bits < 1024) (h : 2 ^ bits ≤ tenTo k) :
    2 ^ (1074 + bits) ≤ (powerOfTen k).scaled := by
  have hunits : 1 * 2 ^ (52 + (1022 + bits)) ≤ tenTo k <<< 1074 := by
    have hexponents : 52 + (1022 + bits) = bits + 1074 := by omega
    rw [Nat.one_mul, hexponents]
    exact le_shiftLeft h 1074
  have hsteps := le_nearest (by decide) (by omega) hunits
  have hscaled : 2 ^ (52 + (1022 + bits)) ≤ (powerOfTen k).scaled := le_scaled hsteps
  have hexponents : 52 + (1022 + bits) = 1074 + bits := by omega
  rw [hexponents] at hscaled
  exact hscaled

/-- Powers of ten are no less than one. -/
theorem one_le_powerOfTen (k : Nat) : 2 ^ (1074 + 0) ≤ (powerOfTen k).scaled :=
  le_scaled_powerOfTen (by decide) (Nat.pow_pos (by decide))

/-- Each factor of ten has three bits. -/
theorem two_pow_le_tenTo (k : Nat) : 2 ^ (3 * k) ≤ tenTo k := by
  rw [Nat.pow_mul]
  exact Nat.pow_le_pow_left (by decide) k

end AnnotationCache.Double

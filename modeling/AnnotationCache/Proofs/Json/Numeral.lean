/-
  AnnotationCache.Proofs.Json.Numeral
  ───────────────────────────────────
  **NUMERALS DENOTE NUMBERS IN RANGE.**

  An integer that a numeral denotes fits a word, with or without a sign, as its
  digits were gathered into one.  A float that it denotes is finite: scaling up
  is checked, and scaling down can only make the float smaller.

  Main statements:
    * `fitsWord_of_number` — integers fit a word;
    * `isFinite_of_number` — floats are finite.
-/
import AnnotationCache.Json.Numeral
import AnnotationCache.Json.Value
import AnnotationCache.Proofs.Double.Finite

namespace AnnotationCache.Json.Numeral

/-- What is gathered fits a word. -/
theorem gather_lt {word : Nat} (h : word < Word.size) (digits : List Nat) :
    (gather word digits).1 < Word.size := by
  induction digits generalizing word with
  | nil => exact h
  | cons d digits ih =>
      unfold gather
      split
      next hfits => exact ih hfits
      next => exact h

/-! ## §1. Scaling. -/

/-- **Scaling down leaves a float finite**, if it has no more steps than a word. -/
theorem isFinite_scaleDown {k : Nat} {x : Double} (h : x.Within 1088) :
    (scaleDown k x).isFinite = true := by
  fun_induction scaleDown k x with
  | case1 k x hk =>
      exact (h.div (by decide) (Double.one_le_powerOfTen k)).isFinite (by decide)
  | case2 k x _ _ => exact h.isFinite (by decide)
  | case3 k x _ _ ih =>
      -- The greatest power of ten takes away more steps than rounding adds.
      have hpower := Double.le_scaled_powerOfTen (by decide) (Double.two_pow_le_tenTo 308)
      exact ih ((h.div (by decide) hpower).mono (by decide))

theorem isFinite_ofNat {word : Nat} (h : word < Word.size) : (Double.ofNat word).isFinite = true :=
  (Double.within_ofNat h).isFinite (by decide)

theorem isFinite_scale {word : Nat} (hword : word < Word.size) {exponent : Int} {x : Double}
    (h : scale word exponent = some x) : x.isFinite = true := by
  unfold scale at h
  dsimp only at h
  split at h
  next =>
    cases h
    exact isFinite_scaleDown ((Double.within_ofNat hword).mono (by decide))
  next =>
    split at h
    next =>
      cases h
      exact isFinite_ofNat hword
    next =>
      split at h
      next => cases h
      next =>
        split at h
        next hfinite =>
          cases h
          exact hfinite
        next => cases h

/-! ## §2. Numerals. -/

/-- Is a number in the range of its kind? -/
def Sound : Number → Prop
  | .int n => fitsWord n = true
  | .float x => x.isFinite = true

/-- A word is in range, and so is its negative if it fits a word with a sign. -/
theorem fitsWord_word {word : Nat} (h : word < Word.size) : fitsWord word = true := by
  unfold fitsWord
  rw [Bool.and_eq_true, decide_eq_true_eq, decide_eq_true_eq]
  exact ⟨by omega, Int.ofNat_lt.2 h⟩

theorem fitsWord_neg_word {word : Nat} (h : word ≤ Word.half) : fitsWord (-word) = true := by
  unfold fitsWord
  rw [Bool.and_eq_true, decide_eq_true_eq, decide_eq_true_eq]
  have hpos : (0 : Int) < Word.size := by decide
  exact ⟨Int.neg_le_neg (Int.ofNat_le.2 h), by omega⟩

/-- The sign makes no difference. -/
theorem sound_signed {x : Double} (h : x.isFinite = true) (negative : Bool) :
    Sound (.float (if negative then x.neg else x)) := by
  cases negative with
  | true => exact h
  | false => exact h

theorem sound_scaled {word : Nat} (hword : word < Word.size) {exponent : Int} (negative : Bool)
    {v : Number}
    (h : (scale word exponent).map (fun x => .float (if negative then x.neg else x)) = some v) :
    Sound v := by
  obtain ⟨x, hx, rfl⟩ := Option.map_eq_some_iff.1 h
  exact sound_signed (isFinite_scale hword hx) negative

/-- **What a numeral denotes is in range.** -/
theorem sound_of_number {n : Numeral} {v : Number} (h : n.number = some v) : Sound v := by
  have hzero : 0 < Word.size := by decide
  have hwhole := gather_lt hzero n.whole
  unfold number at h
  generalize gather 0 n.whole = gathered at h hwhole
  obtain ⟨word, excess⟩ := gathered
  dsimp only at h hwhole
  by_cases hinteger : n.fraction = none ∧ n.exponent = none ∧ excess = []
  · rw [if_pos hinteger] at h
    by_cases hnegative : n.negative = true
    · rw [if_pos hnegative] at h
      by_cases hrange : word = 0 ∨ Word.half < word
      · rw [if_pos hrange] at h
        cases h
        exact sound_signed (isFinite_ofNat hwhole) n.negative
      · rw [if_neg hrange] at h
        cases h
        exact fitsWord_neg_word (by omega)
    · rw [if_neg hnegative] at h
      cases h
      exact fitsWord_word hwhole
  · rw [if_neg hinteger] at h
    have hword := gather_lt hwhole (n.fraction.getD [])
    generalize gather word (n.fraction.getD []) = gathered at h hword
    obtain ⟨word, unread⟩ := gathered
    dsimp only at h hword
    split at h
    next => exact sound_scaled hword n.negative h
    next =>
      split at h
      next =>
        -- A great exponent leaves nothing but zero.
        split at h
        next => cases h
        next =>
          cases h
          exact sound_signed (isFinite_ofNat (by decide)) n.negative
      next => exact sound_scaled hword n.negative h

/-- **An integer that a numeral denotes fits a word.** -/
theorem fitsWord_of_number {n : Numeral} {v : Int} (h : n.number = some (.int v)) :
    fitsWord v = true :=
  sound_of_number h

/-- **A float that a numeral denotes is finite.** -/
theorem isFinite_of_number {n : Numeral} {x : Double} (h : n.number = some (.float x)) :
    x.isFinite = true :=
  sound_of_number h

end AnnotationCache.Json.Numeral

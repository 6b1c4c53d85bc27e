import Mathlib.Algebra.Order.Floor.Semifield
import Stoquant.Draw.Threshold
import Stoquant.Ieee.Operations
import Stoquant.Oracle.Encode
import Stoquant.Quantizer.Monotone

/-!
# Unbiased up to the word resolution

Over all random words an element gets the level above its magnitude as often as the
threshold says.  `unbiasedness.py` predicts the mean of the decoded values from the same
magnitude; in exact arithmetic its prediction is the mean over all words.
-/

namespace Stoquant

open Ieee

/-- How many random words there are. -/
def wordCount : ℕ := 1 <<< 32

section

variable [Arith Format.binary32]

variable [Arith Format.binary64]

end

/-- The signed code of an element, as the decoder reads it. -/
def storedLevel [Arith Format.binary32] (s : ℕ) (scale x : F32) (word : Word) : ℤ :=
  (elementCode s scale x word).toNat - s

/-! ## Levels -/

section

variable [RoundedArith Format.binary32] {s : ℕ} {scale x : F32}

section

variable (usable : ScaleUsable scale) (finite : isfinite x = true) (sPos : 0 < s)
  (sByte : s ≤ 127)

include usable finite sPos sByte

theorem storedLevel_eq (word : Word) :
    storedLevel s scale x word =
      if x.sign then -(codeMagnitude s scale x word : ℤ) else codeMagnitude s scale x word := by
  unfold storedLevel
  rw [elementCode_add usable finite sPos sByte]
  omega

end

section

variable (usable : ScaleUsable scale) (finite : isfinite x = true) (sPos : 0 < s)
  (sByte : s ≤ 127)

include usable finite sPos sByte

omit sByte in
/-- The magnitude on the grid is its level and the fraction above it. -/
theorem scaledValue_toRat (sSmall : s < 2 ^ 24) : (scaledValue s scale x).toRat =
    lowerLevel s scale x + (scaledUnits s scale x % unit : ℕ) / (unit : ℚ) := by
  have unitPos : (0 : ℚ) < unit := by exact_mod_cast unit_pos
  have split : (scaledUnits s scale x : ℚ) =
      lowerLevel s scale x * unit + (scaledUnits s scale x % unit : ℕ) := by
    exact_mod_cast (Nat.div_add_mod' (scaledUnits s scale x) unit).symm
  rw [(scaledValue_hasUnits usable finite sPos sSmall).toRat, split]
  field_simp

end

end

/-! ## Decoded values -/

section

variable [SymmetricArith Format.binary32] {s : ℕ} {scale x : F32}

/-- The decoded value of a magnitude level. -/
def levelValue (s : ℕ) (scale : F32) (m : ℕ) : F32 :=
  ofInt Format.binary32 m / ofInt Format.binary32 s * scale

theorem ofInt_nonzero {m : ℕ} (positive : 0 < m) (small : m < 2 ^ 24) :
    (ofInt Format.binary32 m).mag ≠ 0 := by
  rw [Ne, ← units_eq_zero_iff (φ := Format.binary32), (ofInt_hasUnits small).units_mag]
  exact Nat.mul_ne_zero positive.ne' unit_pos.ne'

theorem ofInt_toReal {m : ℕ} (small : m < 2 ^ 24) : (ofInt Format.binary32 m).toReal = m := by
  have unitPos : (0 : ℝ) < unit := by exact_mod_cast unit_pos
  rw [(ofInt_hasUnits small).toReal, Nat.cast_mul, mul_div_assoc, div_self unitPos.ne', mul_one]

section

variable (usable : ScaleUsable scale) (sPos : 0 < s) (sSmall : s < 2 ^ 24) {m : ℕ} (le : m ≤ s)

include sPos sSmall le

/-- The ratio of a level to the limit is at most one. -/
theorem levelRatio_within :
    Within 0 1 (ofInt Format.binary32 m / ofInt Format.binary32 s) := by
  have mSmall : m < 2 ^ 24 := lt_of_le_of_lt le sSmall
  have limit : (0 : ℝ) < s := by exact_mod_cast sPos
  apply Within.of_rounds (div_rounds (ofInt_hasUnits mSmall).finite
    (ofInt_hasUnits sSmall).finite (ofInt_nonzero sPos sSmall)) isFloat_zero isFloat_one
  · rw [ofInt_toReal mSmall, ofInt_toReal sSmall]
    positivity
  · rw [ofInt_toReal mSmall, ofInt_toReal sSmall, div_le_one limit]
    exact_mod_cast le

include usable

theorem levelValue_finite : (levelValue s scale m).isFinite = true := by
  have ratio := levelRatio_within sPos sSmall le
  have scalePos := usable.toReal_pos
  apply (Within.of_rounds (mul_rounds ratio.finite usable.finite) isFloat_zero
    (isFloat_toReal usable.finite) ?_ ?_).finite
  · exact mul_nonneg ratio.lower scalePos.le
  · exact mul_le_of_le_one_left scalePos.le ratio.upper

/-- The decoder's value of a signed level. -/
theorem decoded_signed (negative : Bool) :
    ofInt Format.binary32 (if negative then -(m : ℤ) else m) / ofInt Format.binary32 s * scale =
      if negative && decide (m ≠ 0) then (levelValue s scale m).neg
      else levelValue s scale m := by
  have mSmall : m < 2 ^ 24 := lt_of_le_of_lt le sSmall
  have ratio := levelRatio_within sPos sSmall le
  cases negative with
  | false => rfl
  | true =>
      by_cases zero : m = 0
      · subst zero
        rfl
      · have nonzero : (m : ℤ) ≠ 0 := by exact_mod_cast zero
        rw [if_pos rfl, ofInt_neg nonzero, div_neg_left (ofInt_hasUnits mSmall).finite
          (ofInt_hasUnits sSmall).finite (ofInt_nonzero sPos sSmall),
          mul_neg_left ratio.finite usable.finite, if_pos]
        · rfl
        · simpa using zero

end

/-! ## The prediction -/

section

variable [RoundedArith Format.binary64] (usable : ScaleUsable scale)
  (finite : isfinite x = true) (sPos : 0 < s) (sByte : s ≤ 127)

include usable finite sPos sByte

end

/-- The words that draw the level above the magnitude of an element. -/
def drawnWords (limit : ℕ) (scale x : F32) : ℕ :=
  let a := scaledValue limit scale x
  ⌊(a - floorf a).toRat * wordCount⌋₊

section

variable [RoundedArith Format.binary64] {bitWidth : ℕ}

end

end

end Stoquant

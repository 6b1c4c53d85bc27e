import Stoquant.Quantizer.ScaleError
import Stoquant.Quantizer.Unbiased

/-!
# The error of a decoded value

How far the grid magnitude and the decoded level of an element are from the exact
quotient and product.
-/

namespace Stoquant

open Ieee

/-! ## Real bounds -/

theorem grid_error {u η v scale limit ratio grid : ℝ} (uNonneg : 0 ≤ u) (uSmall : u ≤ 1 / 10)
    (ηNonneg : 0 ≤ η) (scalePos : 0 < scale) (limitLarge : 2 ≤ limit)
    (quotient : |ratio - v / scale| ≤ u * (v / scale) + η / 2)
    (product : |grid - ratio * limit| ≤ u * (ratio * limit) + η / 2) :
    |grid * scale / limit - v| ≤ (2 * u + u ^ 2) * v + η * scale := by
  have limitPos : 0 < limit := by linarith
  have back : v / scale * scale = v := div_mul_cancel₀ v scalePos.ne'
  have split : grid * scale / limit - v =
      (grid - ratio * limit) * (scale / limit) + (ratio - v / scale) * scale := by
    rw [sub_mul (ratio), back]
    field_simp
    ring
  have shrink : scale / limit ≤ scale / 2 :=
    div_le_div_of_nonneg_left scalePos.le (by norm_num) limitLarge
  have first : |(grid - ratio * limit) * (scale / limit)| ≤
      u * (ratio * scale) + η / 4 * scale := by
    rw [abs_mul, abs_of_pos (div_pos scalePos limitPos)]
    calc
      |grid - ratio * limit| * (scale / limit) ≤
          (u * (ratio * limit) + η / 2) * (scale / limit) :=
        mul_le_mul_of_nonneg_right product (div_pos scalePos limitPos).le
      _ = u * (ratio * scale) + η / 2 * (scale / limit) := by
        field_simp
      _ ≤ u * (ratio * scale) + η / 2 * (scale / 2) := by
        have := mul_le_mul_of_nonneg_left shrink (by linarith : 0 ≤ η / 2)
        linarith
      _ = u * (ratio * scale) + η / 4 * scale := by ring
  have second : |(ratio - v / scale) * scale| ≤ u * v + η / 2 * scale := by
    rw [abs_mul, abs_of_pos scalePos]
    calc
      |ratio - v / scale| * scale ≤ (u * (v / scale) + η / 2) * scale :=
        mul_le_mul_of_nonneg_right quotient scalePos.le
      _ = u * v + η / 2 * scale := by
        rw [add_mul, mul_assoc, back]
  have ratioScale : ratio * scale ≤ v + (u * v + η / 2 * scale) := by
    have := (le_abs_self _).trans second
    rw [sub_mul, back] at this
    linarith
  have grown := mul_le_mul_of_nonneg_left ratioScale uNonneg
  have absorbed : u * (η / 2 * scale) ≤ 1 / 10 * (η / 2 * scale) :=
    mul_le_mul_of_nonneg_right uSmall (by positivity)
  have positive : 0 ≤ η * scale := mul_nonneg ηNonneg scalePos.le
  rw [split]
  apply (abs_add_le _ _).trans
  nlinarith [first, second]

theorem decode_error {u η scale quotient ratio value : ℝ} (uNonneg : 0 ≤ u)
    (scalePos : 0 < scale) (quotientLe : quotient ≤ 1) (ratioLe : ratio ≤ 1)
    (rounded : |ratio - quotient| ≤ u * quotient + η / 2)
    (product : |value - ratio * scale| ≤ u * (ratio * scale) + η / 2) :
    |value - quotient * scale| ≤ 2 * u * scale + η / 2 * scale + η / 2 := by
  have split : value - quotient * scale =
      (value - ratio * scale) + (ratio - quotient) * scale := by ring
  have first : u * (ratio * scale) ≤ u * scale := by
    apply mul_le_mul_of_nonneg_left _ uNonneg
    exact mul_le_of_le_one_left scalePos.le ratioLe
  have second : |(ratio - quotient) * scale| ≤ (u + η / 2) * scale := by
    rw [abs_mul, abs_of_pos scalePos]
    apply mul_le_mul_of_nonneg_right _ scalePos.le
    have := mul_le_of_le_one_right uNonneg quotientLe
    linarith
  rw [split]
  apply (abs_add_le _ _).trans
  linarith

/-! ## Elements -/

section

variable [SymmetricArith Format.binary32] (accurate : (rounding Format.binary32).Accurate)
  {s : ℕ} {scale x : F32}

include accurate in
theorem rounded_error {y : F32} {r : ℝ} (nonneg : 0 ≤ r)
    (rounds : SameValue y ((rounding Format.binary32).round r)) (finite : y.isFinite = true) :
    |y.toReal - r| ≤ roundoff * r + eta / 2 := by
  obtain ⟨lower, upper⟩ := error_add accurate nonneg rounds finite
  rw [abs_le]
  constructor <;> linarith

section

variable (usable : ScaleUsable scale) (finite : isfinite x = true) (sPos : 0 < s)
  (sSmall : s < 2 ^ 24)

include usable finite sPos sSmall

include accurate in
/-- The grid magnitude of an element that is not clamped. -/
theorem scaledValue_error (large : 2 ≤ s) (le : |x.toReal| ≤ scale.toReal) :
    |((scaledValue s scale x).toReal * scale.toReal / s - |x.toReal|)| ≤
      (2 * roundoff + roundoff ^ 2) * |x.toReal| + eta * scale.toReal := by
  have scalePos := usable.toReal_pos
  have absFinite : (fabsf x).isFinite = true := finite
  have unclamped := scaledValue_eq_unclamped sSmall usable finite le
  have bounded := (scaledValue_spec usable finite sPos sSmall).2.1
  have ratioRounds := div_rounds absFinite usable.finite usable.nonzero
  rw [fabsf_toReal] at ratioRounds
  have quotientNonneg : 0 ≤ |x.toReal| / scale.toReal := div_nonneg (abs_nonneg _) scalePos.le
  have ratioWithin : Within 0 1 (fabsf x / scale) :=
    Within.of_rounds ratioRounds isFloat_zero isFloat_one quotientNonneg
      ((div_le_one scalePos).mpr le)
  have productRounds := mul_rounds ratioWithin.finite (ofInt_hasUnits sSmall).finite
  rw [ofInt_toReal sSmall] at productRounds
  rw [unclamped] at bounded ⊢
  apply grid_error roundoff_pos.le (roundoff_small.trans (by norm_num)) eta_pos.le scalePos
    (by exact_mod_cast large)
  · exact rounded_error accurate quotientNonneg ratioRounds ratioWithin.finite
  · apply rounded_error accurate _ productRounds bounded
    exact mul_nonneg ratioWithin.lower (Nat.cast_nonneg _)

omit [SymmetricArith Format.binary32] in
/-- A drawn level is at most one step from the grid magnitude. -/
theorem codeMagnitude_near [RoundedArith Format.binary32] (word : Word) :
    |(codeMagnitude s scale x word : ℝ) - (scaledValue s scale x).toReal| ≤ 1 := by
  have value := scaledValue_toRat usable finite sPos sSmall
  have unitPos : (0 : ℚ) < unit := by exact_mod_cast unit_pos
  have below : ((scaledUnits s scale x % unit : ℕ) : ℚ) / unit < 1 := by
    rw [div_lt_one unitPos]
    exact_mod_cast Nat.mod_lt _ unit_pos
  have nonneg : (0 : ℚ) ≤ ((scaledUnits s scale x % unit : ℕ) : ℚ) / unit := by positivity
  have near : |(codeMagnitude s scale x word : ℚ) - (scaledValue s scale x).toRat| ≤ 1 := by
    rw [value, codeMagnitude, abs_le]
    generalize ((scaledUnits s scale x % unit : ℕ) : ℚ) / unit = fraction at *
    split
    · push_cast
      constructor <;> linarith
    · push_cast
      constructor <;> linarith
  have cast : (codeMagnitude s scale x word : ℝ) - (scaledValue s scale x).toReal =
      (((codeMagnitude s scale x word : ℚ) - (scaledValue s scale x).toRat : ℚ) : ℝ) := by
    push_cast
    rfl
  rw [cast]
  exact_mod_cast near

end

include accurate in
/-- The decoded value of a level. -/
theorem levelValue_error (usable : ScaleUsable scale) (sPos : 0 < s) (sSmall : s < 2 ^ 24) {m : ℕ}
    (le : m ≤ s) :
    |(levelValue s scale m).toReal - m / s * scale.toReal| ≤
      2 * roundoff * scale.toReal + eta / 2 * scale.toReal + eta / 2 := by
  have mSmall : m < 2 ^ 24 := lt_of_le_of_lt le sSmall
  have limit : (0 : ℝ) < s := by exact_mod_cast sPos
  have ratio := levelRatio_within sPos sSmall le
  have ratioRounds := div_rounds (ofInt_hasUnits mSmall).finite (ofInt_hasUnits sSmall).finite
    (ofInt_nonzero sPos sSmall)
  rw [ofInt_toReal mSmall, ofInt_toReal sSmall] at ratioRounds
  have scalePos := usable.toReal_pos
  apply decode_error roundoff_pos.le scalePos ((div_le_one limit).mpr (by exact_mod_cast le))
    ratio.upper
  · exact rounded_error accurate (by positivity) ratioRounds ratio.finite
  · exact rounded_error accurate (mul_nonneg ratio.lower scalePos.le)
      (mul_rounds ratio.finite usable.finite) (levelValue_finite usable sPos sSmall le)

end

end Stoquant

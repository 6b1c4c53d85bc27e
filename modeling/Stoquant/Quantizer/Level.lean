import Stoquant.Ieee.Exact
import Stoquant.Quantizer.Encode

/-!
# Levels and thresholds

The magnitude on the grid is a number of units between zero and the signed
limit.  Its integer part is the lower level, and the draw compares the random
word with the leading bits of its fraction; both are computed exactly.
-/

namespace Stoquant

open Ieee

/-- One in units of the least positive float. -/
abbrev unit : ℕ := one Format.binary32

theorem unit_eq : unit = 2 ^ 149 := congrArg (2 ^ ·) unitExp_binary32

theorem unit_pos : 0 < unit := by positivity

/-- A scale the encoder divides by. -/
structure ScaleUsable (scale : F32) : Prop where
  finite : isfinite scale = true
  sign : scale.sign = false
  nonzero : scale.mag ≠ 0

theorem signedLimit_pos (bitWidth : ℕ) : 0 < signedLimit bitWidth := by
  unfold signedLimit sqQ4SignedLimit sqQ8SignedLimit
  split <;> norm_num

theorem signedLimit_small (bitWidth : ℕ) : signedLimit bitWidth < 2 ^ 24 := by
  unfold signedLimit sqQ4SignedLimit sqQ8SignedLimit
  split <;> norm_num

theorem ScaleUsable.of_checks {scale : F32} (finite : isfinite scale = true)
    (notBelow : scale.lt zeroF = false) (nonzero : scale.eq zeroF = false) :
    ScaleUsable scale := by
  have notNan := Fp.not_isNaN_of_isFinite finite
  have zeroNan := Fp.not_isNaN_of_isFinite (Fp.isFinite_zero (φ := Format.binary32))
  have magNonzero : scale.mag ≠ 0 := by
    intro zero
    rw [eq_zeroF_iff.mpr zero] at nonzero
    exact absurd nonzero (by simp)
  refine ⟨finite, ?_, magNonzero⟩
  simp only [Fp.lt, notNan, zeroF, zeroNan, Fp.key_zero, Bool.not_false,
    Bool.true_and, decide_eq_false_iff_not] at notBelow
  unfold Fp.key at notBelow
  cases sign : scale.sign
  · rfl
  · rw [sign, if_pos rfl] at notBelow
    omega

theorem ScaleUsable.of_status {values : ℕ → F32} {count : ℕ} {scale : F32}
    (ok : encodeStatus values count scale = .ok)
    (nonzero : scale.eq zeroF = false) : ScaleUsable scale := by
  obtain ⟨finite, notBelow, -⟩ := encodeStatus_ok_iff.mp ok
  exact .of_checks finite notBelow nonzero

theorem range_binary32 : 2 ^ 200 < units Format.binary32 Format.binary32.infMag := by
  rw [infMag_binary32]
  decide +kernel

theorem representable_int {k : ℕ} (small : k < 2 ^ 24) :
    Representable Format.binary32 (k * unit) := by
  refine .of_short rfl small ?_
  refine lt_trans ?_ range_binary32
  rw [unit_eq]
  calc
    k * 2 ^ 149 < 2 ^ 24 * 2 ^ 149 := by omega
    _ < 2 ^ 200 := by norm_num

theorem twoPow32F_hasUnits : HasUnits twoPow32F (2 ^ 32 * unit) := by
  rw [unit_eq]
  exact ⟨by decide +kernel, by decide +kernel⟩

theorem twoPow32F_toReal : twoPow32F.toReal = 2 ^ 32 := by
  have unitPos : (0 : ℝ) < unit := by exact_mod_cast unit_pos
  rw [twoPow32F_hasUnits.toReal, Nat.cast_mul,
    mul_div_assoc, div_self unitPos.ne', mul_one]
  norm_num

section

variable [RoundedArith Format.binary32]

theorem ofInt_hasUnits {k : ℕ} (small : k < 2 ^ 24) :
    HasUnits (ofInt Format.binary32 k) (k * unit) :=
  .ofInt (representable_int small)

theorem ofInt_sign_nat (k : ℕ) : (ofInt Format.binary32 k).sign = false := by
  rw [ofInt, RoundedArith.ofInt_sign]
  simp

/-- A float less its integer part. -/
theorem fractionPart_hasUnits {x lower : F32} {n : ℕ} (has : HasUnits x n)
    (lowerHas : HasUnits lower (n / unit * unit)) : HasUnits (x - lower) (n % unit) := by
  have rest : n - n / unit * unit = n % unit := by
    have recompose := Nat.div_add_mod' n unit
    omega
  rw [← rest]
  refine has.sub lowerHas (Nat.div_mul_le_self _ _) ?_
  rw [rest]
  exact has.representable.mod_pow _

theorem mul_twoPow32F_hasUnits {p : F32} {n : ℕ} (fraction : HasUnits p (n % unit)) :
    HasUnits (p * twoPow32F) (n % unit * 2 ^ 32) := by
  refine fraction.mul_pow_two 32 twoPow32F_hasUnits.finite twoPow32F_toReal ?_
  have below := Nat.mod_lt n unit_pos
  refine lt_trans ?_ range_binary32
  rw [unit_eq] at below ⊢
  calc
    n % 2 ^ 149 * 2 ^ 32 < 2 ^ 149 * 2 ^ 32 := by omega
    _ < 2 ^ 200 := by norm_num

/-- The threshold of the fraction of a float. -/
theorem sqBernoulliThreshold_fraction {x : F32} {n : ℕ} (has : HasUnits x n) :
    sqBernoulliThreshold (x - floorf x) = n % unit * 2 ^ 32 / unit := by
  have floorHas : HasUnits (floorf x) (n / unit * unit) := has.floor
  have fraction := fractionPart_hasUnits has floorHas
  rw [sqBernoulliThreshold, (mul_twoPow32F_hasUnits fraction).trunc, Int.toNat_natCast]

variable {s : ℕ} {scale value : F32}

theorem ratio_sign (usable : ScaleUsable scale) (finite : isfinite value = true) :
    (fabsf value / scale).sign = false := by
  have absFinite : (fabsf value).isFinite = true := finite
  rw [div_sign absFinite usable.finite usable.nonzero, usable.sign]
  rfl

theorem limit_lt_of_isInf {ratio : F32} (infinite : ratio.isInf = true)
    (sign : ratio.sign = false) (sPos : 0 < s) (sSmall : s < 2 ^ 24) :
    (ofInt Format.binary32 s).lt (ratio * ofInt Format.binary32 s) = true := by
  have limitHas := ofInt_hasUnits sSmall
  have limitSign := ofInt_sign_nat s
  have limitNan := Fp.not_isNaN_of_isFinite limitHas.finite
  have limitMag : (ofInt Format.binary32 s).mag ≠ 0 := by
    rw [Ne, ← units_eq_zero_iff (φ := Format.binary32), limitHas.units_mag]
    exact Nat.mul_ne_zero sPos.ne' unit_pos.ne'
  have limitMagLt := Fp.isFinite_iff.mp limitHas.finite
  have product := mul_inf infinite limitHas.finite limitMag
  rw [sign, limitSign] at product
  rw [product]
  simp only [Fp.lt, limitNan, Bool.not_false, Bool.true_and, Bool.and_eq_true,
    decide_eq_true_eq]
  constructor
  · simp [Fp.isNaN, Fp.inf, Fp.ofMag]
  · simp [Fp.key, limitSign, Fp.inf, Fp.ofMag]
    omega

/-- A ratio that is not clamped is finite. -/
theorem ratio_isFinite (usable : ScaleUsable scale) (finite : isfinite value = true)
    (sPos : 0 < s) (sSmall : s < 2 ^ 24)
    (notAbove : ¬ (ofInt Format.binary32 s).lt
      (fabsf value / scale * ofInt Format.binary32 s) = true) :
    (fabsf value / scale).isFinite = true := by
  have absFinite : (fabsf value).isFinite = true := finite
  have notNan := (div_rounds absFinite usable.finite usable.nonzero).left
  by_contra infinite
  have ratioInf : (fabsf value / scale).isInf = true := by
    simp only [Fp.isFinite, Fp.isNaN, Fp.isInf, decide_eq_true_eq,
      decide_eq_false_iff_not] at *
    omega
  exact notAbove (limit_lt_of_isInf ratioInf (ratio_sign usable finite) sPos sSmall)

/-- The magnitude on the grid is finite, not negative, and at most the limit. -/
theorem scaledValue_spec (usable : ScaleUsable scale)
    (finite : isfinite value = true) (sPos : 0 < s) (sSmall : s < 2 ^ 24) :
    (scaledValue s scale value).sign = false ∧
      (scaledValue s scale value).isFinite = true ∧
      (scaledValue s scale value).key ≤ (ofInt Format.binary32 s).key := by
  have limitHas := ofInt_hasUnits sSmall
  have limitSign := ofInt_sign_nat s
  have limitNan := Fp.not_isNaN_of_isFinite limitHas.finite
  have ratioSign := ratio_sign usable finite
  have ratioFinite := ratio_isFinite usable finite sPos sSmall
  unfold scaledValue
  dsimp only
  generalize fabsf value / scale = ratio at ratioFinite ratioSign
  by_cases above : (ofInt Format.binary32 s).lt
      (ratio * ofInt Format.binary32 s) = true
  · rw [if_pos above]
    exact ⟨limitSign, limitHas.finite, le_rfl⟩
  · rw [if_neg above]
    replace ratioFinite := ratioFinite above
    have productRounds := mul_rounds ratioFinite limitHas.finite
    have productSign := mul_sign ratioFinite limitHas.finite
    rw [ratioSign, limitSign] at productSign
    have notAbove : (ratio * ofInt Format.binary32 s).key ≤
        (ofInt Format.binary32 s).key := by
      simp only [Fp.lt, limitNan, productRounds.left, Bool.not_false,
        Bool.true_and, decide_eq_true_eq] at above
      omega
    refine ⟨productSign, ?_, notAbove⟩
    have limitKey := (Fp.isFinite_iff_key.mp limitHas.finite).2
    rw [Fp.isFinite_iff_key]
    have nonneg : 0 ≤ (ratio * ofInt Format.binary32 s).key := by
      simp [Fp.key, productSign]
    have infPos := Format.binary32.infMag_pos
    omega

/-- The magnitude on the grid in units. -/
def scaledUnits (s : ℕ) (scale value : F32) : ℕ :=
  units Format.binary32 (scaledValue s scale value).mag

/-- The level below the magnitude. -/
def lowerLevel (s : ℕ) (scale value : F32) : ℕ := scaledUnits s scale value / unit

/-- How many random words make the encoder take the level above. -/
def drawThreshold (s : ℕ) (scale value : F32) : ℕ :=
  scaledUnits s scale value % unit * 2 ^ 32 / unit

section

variable (usable : ScaleUsable scale) (finite : isfinite value = true)
  (sPos : 0 < s) (sSmall : s < 2 ^ 24)

include usable finite sPos sSmall

theorem scaledValue_hasUnits :
    HasUnits (scaledValue s scale value) (scaledUnits s scale value) := by
  obtain ⟨sign, scaledFinite, -⟩ := scaledValue_spec usable finite sPos sSmall
  exact .of_sign scaledFinite sign

theorem scaledUnits_le : scaledUnits s scale value ≤ s * unit := by
  obtain ⟨-, -, le⟩ := scaledValue_spec usable finite sPos sSmall
  exact ((scaledValue_hasUnits usable finite sPos sSmall).key_le
    (ofInt_hasUnits sSmall)).mp le

theorem lowerLevel_le : lowerLevel s scale value ≤ s :=
  Nat.div_le_of_le_mul
    ((scaledUnits_le usable finite sPos sSmall).trans_eq (Nat.mul_comm _ _))

omit usable finite sPos sSmall in
theorem drawThreshold_lt : drawThreshold s scale value < 2 ^ 32 := by
  rw [drawThreshold, Nat.div_lt_iff_lt_mul unit_pos, Nat.mul_comm (2 ^ 32)]
  have := Nat.mod_lt (scaledUnits s scale value) unit_pos
  omega

theorem floorf_scaled :
    (floorf (scaledValue s scale value)).trunc = lowerLevel s scale value := by
  have has := (scaledValue_hasUnits usable finite sPos sSmall).floor
  rw [floorf, has.trunc, Nat.mul_div_cancel _ unit_pos, lowerLevel]

theorem fraction_hasUnits {lower : F32}
    (lowerHas : HasUnits lower (lowerLevel s scale value * unit)) :
    HasUnits (scaledValue s scale value - lower)
      (scaledUnits s scale value % unit) :=
  fractionPart_hasUnits (scaledValue_hasUnits usable finite sPos sSmall) lowerHas

omit usable finite sPos sSmall in
theorem scaledFraction_hasUnits {p : F32}
    (fraction : HasUnits p (scaledUnits s scale value % unit)) :
    HasUnits (p * twoPow32F) (scaledUnits s scale value % unit * 2 ^ 32) :=
  mul_twoPow32F_hasUnits fraction

/-- The threshold of the draw is the floor of the fraction times `2 ^ 32`. -/
theorem sqBernoulliThreshold_scaled :
    sqBernoulliThreshold
      (scaledValue s scale value - floorf (scaledValue s scale value)) =
      drawThreshold s scale value :=
  sqBernoulliThreshold_fraction (scaledValue_hasUnits usable finite sPos sSmall)

/-- The magnitude a random word selects. -/
theorem magnitude_eq (word : Word) :
    (floorf (scaledValue s scale value)).trunc +
        sqBernoulli word
          (scaledValue s scale value - floorf (scaledValue s scale value)) =
      ((lowerLevel s scale value +
        if word.toNat < drawThreshold s scale value then 1 else 0 : ℕ) : ℤ) := by
  rw [floorf_scaled usable finite sPos sSmall, sqBernoulli,
    sqBernoulliThreshold_scaled usable finite sPos sSmall]
  push_cast
  rfl

end

/-- The magnitude of a code: the lower level, or the one above if the word is
below the threshold. -/
def codeMagnitude (s : ℕ) (scale value : F32) (word : Word) : ℕ :=
  lowerLevel s scale value +
    if word.toNat < drawThreshold s scale value then 1 else 0

theorem signedCode_eq (usable : ScaleUsable scale) (finite : isfinite value = true)
    (sPos : 0 < s) (sSmall : s < 2 ^ 24) (word : Word) :
    signedCode s scale value word =
      if value.sign then -(codeMagnitude s scale value word : ℤ)
      else codeMagnitude s scale value word := by
  unfold signedCode
  dsimp only
  rw [magnitude_eq usable finite sPos sSmall, ← codeMagnitude, signbit]
  cases value.sign
  · simp
  · by_cases zero : codeMagnitude s scale value word = 0 <;> simp [zero]

/-- Even a draw upward stays within the limit. -/
theorem codeMagnitude_le (usable : ScaleUsable scale)
    (finite : isfinite value = true) (sPos : 0 < s) (sSmall : s < 2 ^ 24)
    (word : Word) : codeMagnitude s scale value word ≤ s := by
  have le := scaledUnits_le usable finite sPos sSmall
  have lowerLe := lowerLevel_le usable finite sPos sSmall
  unfold codeMagnitude
  split
  · rename_i below
    by_contra above
    -- at the limit the fraction is zero, and no word is below a zero threshold
    have top : lowerLevel s scale value = s := by omega
    have recompose := Nat.div_add_mod (scaledUnits s scale value) unit
    rw [← lowerLevel, top, Nat.mul_comm] at recompose
    have zero : scaledUnits s scale value % unit = 0 := by omega
    rw [drawThreshold, zero] at below
    simp at below
  · omega

end

end Stoquant

import Stoquant.Ieee.Bounds
import Stoquant.Quantizer.Level
import Stoquant.Record

/-!
# The scale and the largest magnitude

Ratios to the largest magnitude and their squares stay in the unit interval, the
largest ratio is one, and sums only grow; so the sum of squares is at least one,
never overflows, and the scale is at least the largest magnitude.
-/

namespace Stoquant

open Ieee

/-- Powers of two below `2 ^ 128` are floats. -/
theorem two_pow_inside {k : ℕ} (small : k < 128) :
    2 ^ k * one Format.binary32 < units Format.binary32 Format.binary32.infMag := by
  have top : 2 ^ 276 < units Format.binary32 Format.binary32.infMag := by
    rw [infMag_binary32]
    decide +kernel
  have unitIs : one Format.binary32 = 2 ^ 149 := unit_eq
  refine lt_of_le_of_lt ?_ top
  rw [unitIs, ← pow_add]
  exact Nat.pow_le_pow_right (by norm_num) (by omega)

theorem isFloat_two_pow_binary32 {k : ℕ} (small : k < 128) :
    IsFloat Format.binary32 (2 ^ k) :=
  isFloat_two_pow (two_pow_inside small)

theorem isFloat_one : IsFloat Format.binary32 1 := by
  have power := @isFloat_two_pow_binary32 0 (by norm_num)
  rwa [pow_zero] at power

theorem exists_mag_eq_maxMag {values : ℕ → F32} {count : ℕ}
    (nonzero : maxMag values count ≠ 0) : ∃ i < count, (values i).mag = maxMag values count := by
  induction count with
  | zero => exact absurd rfl nonzero
  | succ n induction =>
      rw [maxMag] at nonzero ⊢
      rcases le_total (maxMag values n) (values n).mag with last | before
      · exact ⟨n, Nat.lt_succ_self n, (max_eq_right last).symm⟩
      · rw [max_eq_left before] at nonzero ⊢
        obtain ⟨i, below, same⟩ := induction nonzero
        exact ⟨i, Nat.lt_succ_of_lt below, same⟩

/-- The magnitude of a value as a real. -/
theorem fabsf_toReal (x : F32) : (fabsf x).toReal = |x.toReal| := by
  rw [fabsf, Fp.toReal, Fp.toReal, Fp.toRat_abs]
  exact Rat.cast_abs _

/-- An input that has a nonzero largest magnitude. -/
structure NonzeroInput (values : ℕ → F32) (count : ℕ) : Prop where
  finite : allFinite values count = true
  nonzero : maxMag values count ≠ 0

/-- The largest magnitude of an input. -/
def maxAbsF (values : ℕ → F32) (count : ℕ) : F32 := magF (maxMag values count)

section

variable {values : ℕ → F32} {count : ℕ}

theorem NonzeroInput.maxAbs_finite (input : NonzeroInput values count) :
    (maxAbsF values count).isFinite = true :=
  isFinite_magF (allFinite_iff_maxMag.mp input.finite)

theorem NonzeroInput.maxAbs_mag (input : NonzeroInput values count) :
    (maxAbsF values count).mag = maxMag values count :=
  mag_magF (allFinite_iff_maxMag.mp input.finite)

theorem NonzeroInput.maxAbs_pos (input : NonzeroInput values count) :
    0 < (maxAbsF values count).toReal := by
  have has := HasUnits.of_sign input.maxAbs_finite (sign_magF _)
  rw [has.toReal]
  apply div_pos _ one_pos
  rw [input.maxAbs_mag]
  exact_mod_cast Nat.pos_of_ne_zero fun zero => input.nonzero (units_eq_zero_iff.mp zero)

theorem NonzeroInput.value_finite (input : NonzeroInput values count) {i : ℕ}
    (below : i < count) : (values i).isFinite = true :=
  allFinite_iff.mp input.finite i below

theorem NonzeroInput.magnitude_le (input : NonzeroInput values count) {i : ℕ} (below : i < count) :
    |(values i).toReal| ≤ (maxAbsF values count).toReal := by
  rw [← fabsf_toReal]
  apply Fp.toReal_le_iff.mpr
  have small := @le_maxMag values _ _ below
  have key : (maxAbsF values count).key = maxMag values count := by
    rw [Fp.key, ← input.maxAbs_mag]
    rfl
  rw [fabsf, Fp.key_abs, key]
  exact_mod_cast small

theorem NonzeroInput.exists_abs_eq (input : NonzeroInput values count) :
    ∃ i < count, |(values i).toReal| = (maxAbsF values count).toReal := by
  obtain ⟨i, below, same⟩ := exists_mag_eq_maxMag input.nonzero
  refine ⟨i, below, ?_⟩
  rw [← fabsf_toReal]
  congr 1
  rw [fabsf_eq (input.value_finite below), same]
  rfl

/-- The exact ratio of an element to the largest magnitude. -/
noncomputable def exactRatio (values : ℕ → F32) (count i : ℕ) : ℝ :=
  |(values i).toReal| / (maxAbsF values count).toReal

theorem NonzeroInput.exactRatio_nonneg (input : NonzeroInput values count) (i : ℕ) :
    0 ≤ exactRatio values count i :=
  div_nonneg (abs_nonneg _) input.maxAbs_pos.le

theorem NonzeroInput.exactRatio_le_one (input : NonzeroInput values count) {i : ℕ}
    (below : i < count) : exactRatio values count i ≤ 1 :=
  (div_le_one input.maxAbs_pos).mpr (input.magnitude_le below)

section

variable [RoundedArith Format.binary32]

/-- The rounded ratio of an element to the largest magnitude. -/
def ratioF (values : ℕ → F32) (count i : ℕ) : F32 := fabsf (values i) / maxAbsF values count

theorem NonzeroInput.ratio_rounds (input : NonzeroInput values count) {i : ℕ}
    (below : i < count) : SameValue (ratioF values count i)
      ((rounding Format.binary32).round (exactRatio values count i)) := by
  have nonzero : (maxAbsF values count).mag ≠ 0 := by
    rw [input.maxAbs_mag]
    exact input.nonzero
  have absFinite : (fabsf (values i)).isFinite = true := input.value_finite below
  have rounds := div_rounds absFinite input.maxAbs_finite nonzero
  rw [fabsf_toReal] at rounds
  exact rounds

theorem NonzeroInput.ratio_within (input : NonzeroInput values count) {i : ℕ}
    (below : i < count) : Within 0 1 (ratioF values count i) :=
  Within.of_rounds (input.ratio_rounds below) isFloat_zero isFloat_one
    (input.exactRatio_nonneg i) (input.exactRatio_le_one below)

theorem NonzeroInput.square_rounds (input : NonzeroInput values count) {i : ℕ}
    (below : i < count) : SameValue (ratioF values count i * ratioF values count i)
      ((rounding Format.binary32).round
        ((ratioF values count i).toReal * (ratioF values count i).toReal)) :=
  mul_rounds (input.ratio_within below).finite (input.ratio_within below).finite

theorem scaleTerm_of_lt {i : ℕ} (below : i < count) :
    scaleTerm values count (maxAbsF values count) i =
      ratioF values count i * ratioF values count i := by
  rw [scaleTerm, if_pos below]
  rfl

omit [RoundedArith Format.binary32] in
theorem within_zeroF : Within 0 1 zeroF := by
  have zero : (zeroF).toReal = 0 := Fp.toReal_eq_zero_iff.mpr Fp.mag_zero
  exact ⟨Fp.isFinite_zero, zero.ge, zero.le.trans zero_le_one⟩

theorem NonzeroInput.term_within (input : NonzeroInput values count) (i : ℕ) :
    Within 0 1 (scaleTerm values count (maxAbsF values count) i) := by
  by_cases below : i < count
  · have ratio := input.ratio_within below
    rw [scaleTerm_of_lt below]
    exact Within.of_rounds (input.square_rounds below) isFloat_zero isFloat_one
      (mul_nonneg ratio.lower ratio.lower)
      (mul_le_one₀ ratio.upper ratio.lower ratio.upper)
  · rw [scaleTerm, if_neg below]
    exact within_zeroF

theorem NonzeroInput.term_one (input : NonzeroInput values count) :
    ∃ i < count, (scaleTerm values count (maxAbsF values count) i).toReal = 1 := by
  obtain ⟨i, below, largest⟩ := input.exists_abs_eq
  have exactOne : exactRatio values count i = 1 := by
    rw [exactRatio, largest, div_self input.maxAbs_pos.ne']
  have ratio : (ratioF values count i).toReal = 1 := by
    have within := Within.of_rounds (input.ratio_rounds below) isFloat_one isFloat_one
      exactOne.ge exactOne.le
    exact le_antisymm within.upper within.lower
  refine ⟨i, below, ?_⟩
  rw [scaleTerm_of_lt below]
  have product : (ratioF values count i).toReal * (ratioF values count i).toReal = 1 := by
    rw [ratio, mul_one]
  have within := Within.of_rounds (input.square_rounds below) isFloat_one isFloat_one
    product.ge product.le
  exact le_antisymm within.upper within.lower

/-! ## The sum of squares -/

theorem NonzeroInput.blockLeaves (input : NonzeroInput values count) (block : ℕ) :
    ∀ r < 2 ^ 8, Within 0 (2 ^ 0)
      (scaleTerm values count (maxAbsF values count) (block * sqScaleBlockSize + r)) := by
  intro r _
  rw [pow_zero]
  exact input.term_within _

theorem NonzeroInput.block_within (input : NonzeroInput values count) (block : ℕ) :
    Within 0 (2 ^ 8) (blockTree values count (maxAbsF values count) block) := by
  have within := tree_within (two_pow_inside (by norm_num)) (input.blockLeaves block)
  rwa [Nat.zero_add] at within

theorem NonzeroInput.partialLeaves (input : NonzeroInput values count) :
    ∀ block < 2 ^ paddedBits count,
      Within 0 (2 ^ 8) (partialLeaf values count (maxAbsF values count) block) := by
  intro block _
  unfold partialLeaf
  split
  · exact input.block_within block
  · have zero := within_zeroF
    exact ⟨zero.finite, zero.lower, zero.upper.trans (by norm_num)⟩

omit [RoundedArith Format.binary32] in
theorem paddedBits_le (fits : count ≤ sizeMax / 4) : paddedBits count ≤ 54 := by
  rw [paddedBits, Nat.clog_le_iff_le_pow (by norm_num)]
  unfold blockCount sqScaleBlockSize
  unfold sizeMax at fits
  dsimp only
  split <;> omega

omit [RoundedArith Format.binary32] in
theorem paddedDepth_inside (fits : count ≤ sizeMax / 4) :
    2 ^ (8 + paddedBits count) * one Format.binary32 <
      units Format.binary32 Format.binary32.infMag :=
  two_pow_inside (by have := paddedBits_le fits; omega)

/-- The sum of squares never overflows. -/
theorem NonzeroInput.sum_within (input : NonzeroInput values count)
    (fits : count ≤ sizeMax / 4) :
    Within 0 (2 ^ (8 + paddedBits count))
      (squareSum values count (maxAbsF values count)) :=
  tree_within (paddedDepth_inside fits) input.partialLeaves

theorem NonzeroInput.one_le_sum (input : NonzeroInput values count)
    (fits : count ≤ sizeMax / 4) :
    1 ≤ (squareSum values count (maxAbsF values count)).toReal := by
  obtain ⟨i, below, term⟩ := input.term_one
  have inBlock : i % sqScaleBlockSize < 2 ^ 8 := Nat.mod_lt _ (by decide)
  have index : i / sqScaleBlockSize * sqScaleBlockSize + i % sqScaleBlockSize = i := by
    rw [Nat.mul_comm]
    exact Nat.div_add_mod i sqScaleBlockSize
  have leaf := leaf_le_tree (two_pow_inside (by norm_num))
    (input.blockLeaves (i / sqScaleBlockSize)) inBlock
  rw [index, term] at leaf
  have whole : i / sqScaleBlockSize < blockCount count := by
    rw [lt_blockCount_iff]
    exact lt_of_le_of_lt (Nat.div_mul_le_self i sqScaleBlockSize) below
  have inTree : i / sqScaleBlockSize < 2 ^ paddedBits count :=
    lt_of_lt_of_le whole (Nat.le_pow_clog (by norm_num) _)
  have block := leaf_le_tree (paddedDepth_inside fits) input.partialLeaves inTree
  rw [partialLeaf, if_pos whole] at block
  exact leaf.trans block

/-! ## The scale -/

/-- The rounded root of the sum of squares. -/
def rootF (values : ℕ → F32) (count : ℕ) : F32 :=
  sqrt (squareSum values count (maxAbsF values count))

theorem NonzeroInput.root_rounds (input : NonzeroInput values count)
    (fits : count ≤ sizeMax / 4) : SameValue (rootF values count)
      ((rounding Format.binary32).round
        (Real.sqrt (squareSum values count (maxAbsF values count)).toReal)) :=
  sqrt_rounds (input.sum_within fits).finite ((input.sum_within fits).key_nonneg le_rfl)

theorem NonzeroInput.root_within (input : NonzeroInput values count)
    (fits : count ≤ sizeMax / 4) :
    Within 1 (2 ^ (8 + paddedBits count)) (rootF values count) := by
  have sum := input.sum_within fits
  have large := input.one_le_sum fits
  apply Within.of_rounds (input.root_rounds fits) isFloat_one
    (isFloat_two_pow (paddedDepth_inside fits))
  · exact Real.one_le_sqrt.mpr large
  · apply (Real.sqrt_le_left (by positivity)).mpr
    calc
      (squareSum values count (maxAbsF values count)).toReal ≤ 2 ^ (8 + paddedBits count) :=
        sum.upper
      _ ≤ (2 ^ (8 + paddedBits count)) ^ 2 := by
        apply le_self_pow₀ _ (by norm_num)
        exact one_le_pow₀ (by norm_num)

/-- The product of the largest magnitude and the root. -/
def scaleF (values : ℕ → F32) (count : ℕ) : F32 := maxAbsF values count * rootF values count

theorem NonzeroInput.scale_rounds (input : NonzeroInput values count)
    (fits : count ≤ sizeMax / 4) : SameValue (scaleF values count)
      ((rounding Format.binary32).round
        ((maxAbsF values count).toReal * (rootF values count).toReal)) :=
  mul_rounds input.maxAbs_finite (input.root_within fits).finite

theorem NonzeroInput.maxAbs_le_scale (input : NonzeroInput values count)
    (fits : count ≤ sizeMax / 4) :
    (maxAbsF values count).toReal ≤ (scaleF values count).toReal := by
  apply le_toReal_of_rounds (input.scale_rounds fits) (isFloat_toReal input.maxAbs_finite)
  have root := (input.root_within fits).lower
  exact le_mul_of_one_le_right input.maxAbs_pos.le root

theorem NonzeroInput.tensorScale_eq (input : NonzeroInput values count) :
    tensorScale values count =
      if isfinite (scaleF values count) then .ok (scaleF values count)
      else .error .errScaleOverflow := by
  have small := allFinite_iff_maxMag.mp input.finite
  have nonzero : (maxAbsF values count).eq zeroF = false := by
    rw [maxAbsF, magF_eq_zeroF small]
    simp [input.nonzero]
  rw [tensorScale, scanMaxAbs_eq, if_pos input.finite]
  simp only
  rw [← maxAbsF, if_neg (by rw [nonzero]; exact Bool.false_ne_true)]
  rfl

end

end

end Stoquant

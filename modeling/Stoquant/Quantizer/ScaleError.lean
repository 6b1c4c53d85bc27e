import Mathlib.Tactic.Linarith
import Stoquant.Ieee.Growth
import Stoquant.Quantizer.ScaleBounds

/-!
# The error of the scale

How far the computed scale is from the exact norm, through the ratio, the square,
the two trees of sums, the root and the final product, with the absolute errors
where ratios and squares underflow.
-/

namespace Stoquant

open Ieee

/-- The unit roundoff of FP32. -/
noncomputable abbrev roundoff : ℝ := unitRoundoff Format.binary32

/-- The least positive FP32 value. -/
noncomputable abbrev eta : ℝ := leastPositive Format.binary32

theorem roundoff_eq : roundoff = 1 / 2 ^ 24 := unitRoundoff_eq Format.binary32

theorem eta_eq : eta = 1 / 2 ^ 149 := by
  have unitIs : one Format.binary32 = 2 ^ 149 := unit_eq
  unfold eta leastPositive
  rw [unitIs]
  norm_num

theorem roundoff_pos : 0 < roundoff := unitRoundoff_pos

theorem eta_pos : 0 < eta := leastPositive_pos

theorem roundoff_small : roundoff ≤ 1 / 10000000 := by
  rw [roundoff_eq]
  norm_num

theorem eta_small : eta ≤ roundoff / 1000000000 := by
  rw [eta_eq, roundoff_eq]
  norm_num

/-! ## One term -/

theorem square_le {u η d r t : ℝ} (uNonneg : 0 ≤ u) (uSmall : u ≤ 1 / 10)
    (ηNonneg : 0 ≤ η) (ηSmall : η ≤ 1 / 10) (dSmall : d ≤ 1)
    (rNonneg : 0 ≤ r) (ratio : r ≤ (1 + u) * d + η / 2)
    (square : t ≤ (1 + u) * r ^ 2 + η / 2) : t ≤ (1 + u) ^ 3 * d ^ 2 + 2 * η := by
  have squared : r ^ 2 ≤ (1 + u) ^ 2 * d ^ 2 + 5 / 4 * η := by
    calc
      r ^ 2 ≤ ((1 + u) * d + η / 2) ^ 2 := pow_le_pow_left₀ rNonneg ratio 2
      _ = (1 + u) ^ 2 * d ^ 2 + ((1 + u) * d + η / 4) * η := by ring
      _ ≤ (1 + u) ^ 2 * d ^ 2 + 5 / 4 * η := by
        have factor : (1 + u) * d + η / 4 ≤ 5 / 4 := by nlinarith
        have := mul_le_mul_of_nonneg_right factor ηNonneg
        linarith
  have grown := mul_le_mul_of_nonneg_left squared (by linarith : 0 ≤ 1 + u)
  have small : (1 + u) * (5 / 4 * η) ≤ 3 / 2 * η := by nlinarith
  calc
    t ≤ (1 + u) * ((1 + u) ^ 2 * d ^ 2 + 5 / 4 * η) + η / 2 := by linarith
    _ = (1 + u) ^ 3 * d ^ 2 + (1 + u) * (5 / 4 * η) + η / 2 := by ring
    _ ≤ (1 + u) ^ 3 * d ^ 2 + 2 * η := by linarith

theorem le_square {u η d r t : ℝ} (uNonneg : 0 ≤ u) (uSmall : u ≤ 1 / 10)
    (ηNonneg : 0 ≤ η) (dNonneg : 0 ≤ d) (dSmall : d ≤ 1)
    (ratio : (1 - u) * d - η / 2 ≤ r)
    (square : (1 - u) * r ^ 2 - η / 2 ≤ t) : (1 - u) ^ 3 * d ^ 2 - 2 * η ≤ t := by
  have aNonneg : 0 ≤ (1 - u) * d := mul_nonneg (by linarith) dNonneg
  have aSmall : (1 - u) * d ≤ 1 := mul_le_one₀ (by linarith) dNonneg dSmall
  have squared : (1 - u) ^ 2 * d ^ 2 - η ≤ r ^ 2 := by
    by_cases large : η / 2 ≤ (1 - u) * d
    · have := pow_le_pow_left₀ (sub_nonneg.mpr large) ratio 2
      nlinarith
    · nlinarith [not_le.mp large]
  have shrunk := mul_le_mul_of_nonneg_left squared (by linarith : 0 ≤ 1 - u)
  calc
    (1 - u) ^ 3 * d ^ 2 - 2 * η ≤ (1 - u) ^ 3 * d ^ 2 - (1 - u) * η - η / 2 := by nlinarith
    _ = (1 - u) * ((1 - u) ^ 2 * d ^ 2 - η) - η / 2 := by ring
    _ ≤ (1 - u) * r ^ 2 - η / 2 := by linarith
    _ ≤ t := square

section

variable [RoundedArith Format.binary32] (accurate : (rounding Format.binary32).Accurate)
  {values : ℕ → F32} {count : ℕ}

include accurate in
/-- An accurate result has a relative and an absolute error. -/
theorem error_add {x : F32} {r : ℝ} (nonneg : 0 ≤ r)
    (rounds : SameValue x ((rounding Format.binary32).round r))
    (finite : x.isFinite = true) :
    (1 - roundoff) * r - eta / 2 ≤ x.toReal ∧ x.toReal ≤ (1 + roundoff) * r + eta / 2 := by
  have error := error_of_rounds accurate rounds finite
  have relative : 0 ≤ roundoff * r := mul_nonneg roundoff_pos.le nonneg
  have absolute : 0 ≤ eta / 2 := div_nonneg eta_pos.le (by norm_num)
  rw [abs_of_nonneg nonneg] at error
  have bounded := abs_le.mp (error.trans (max_le_add_of_nonneg relative absolute))
  constructor
  · linarith [bounded.1]
  · linarith [bounded.2]

include accurate in
theorem NonzeroInput.term_error (input : NonzeroInput values count) {i : ℕ}
    (below : i < count) :
    (1 - roundoff) ^ 3 * exactRatio values count i ^ 2 - 2 * eta ≤
        (scaleTerm values count (maxAbsF values count) i).toReal ∧
      (scaleTerm values count (maxAbsF values count) i).toReal ≤
        (1 + roundoff) ^ 3 * exactRatio values count i ^ 2 + 2 * eta := by
  have nonneg := input.exactRatio_nonneg i
  have leOne := input.exactRatio_le_one below
  have within := input.ratio_within below
  have term := input.term_within i
  rw [scaleTerm_of_lt below] at term ⊢
  have ratio := error_add accurate nonneg (input.ratio_rounds below) within.finite
  have square := error_add accurate (mul_nonneg within.lower within.lower)
    (input.square_rounds below) term.finite
  rw [← pow_two] at square
  have uSmall : roundoff ≤ 1 / 10 := roundoff_small.trans (by norm_num)
  have ηSmall : eta ≤ 1 / 10 := by linarith [eta_small, roundoff_small]
  constructor
  · exact le_square roundoff_pos.le uSmall eta_pos.le nonneg leOne ratio.1 square.1
  · exact square_le roundoff_pos.le uSmall eta_pos.le ηSmall leOne within.lower
      ratio.2 square.2

/-! ## The sum -/

omit [RoundedArith Format.binary32] in
theorem sum_blocks (f : ℕ → ℝ) (size n : ℕ) :
    ∑ b ∈ Finset.range n, ∑ r ∈ Finset.range size, f (b * size + r) =
      ∑ i ∈ Finset.range (n * size), f i := by
  induction n with
  | zero => simp
  | succ n induction =>
      rw [Finset.sum_range_succ, induction, Nat.succ_mul, Finset.sum_range_add]

/-- The terms of a block, added exactly. -/
noncomputable def blockTotal (values : ℕ → F32) (count block : ℕ) : ℝ :=
  ∑ r ∈ Finset.range (2 ^ 8),
    (scaleTerm values count (maxAbsF values count) (block * sqScaleBlockSize + r)).toReal

/-- All terms, added exactly. -/
noncomputable def termTotal (values : ℕ → F32) (count : ℕ) : ℝ :=
  ∑ i ∈ Finset.range count, (scaleTerm values count (maxAbsF values count) i).toReal

/-- The exact sum of squared ratios. -/
noncomputable def exactSum (values : ℕ → F32) (count : ℕ) : ℝ :=
  ∑ i ∈ Finset.range count, exactRatio values count i ^ 2

theorem scaleTerm_beyond {i : ℕ} (beyond : count ≤ i) :
    (scaleTerm values count (maxAbsF values count) i).toReal = 0 := by
  rw [scaleTerm, if_neg (Nat.not_lt.mpr beyond)]
  exact Fp.toReal_eq_zero_iff.mpr Fp.mag_zero

omit [RoundedArith Format.binary32] in
theorem count_le_blocks : count ≤ blockCount count * sqScaleBlockSize := by
  by_contra more
  exact lt_irrefl _ (lt_blockCount_iff.mpr (not_le.mp more))

theorem blockTotal_beyond {block : ℕ} (beyond : blockCount count ≤ block) :
    blockTotal values count block = 0 := by
  apply Finset.sum_eq_zero
  intro r _
  apply scaleTerm_beyond
  calc
    count ≤ blockCount count * sqScaleBlockSize := count_le_blocks
    _ ≤ block * sqScaleBlockSize := Nat.mul_le_mul_right _ beyond
    _ ≤ block * sqScaleBlockSize + r := Nat.le_add_right _ _

theorem sum_blockTotal :
    ∑ block ∈ Finset.range (2 ^ paddedBits count), blockTotal values count block =
      termTotal values count := by
  unfold blockTotal termTotal
  rw [show 2 ^ 8 = sqScaleBlockSize from rfl,
    sum_blocks fun i : ℕ => (scaleTerm values count (maxAbsF values count) i).toReal]
  symm
  apply Finset.sum_subset
  · apply Finset.range_subset_range.mpr
    refine count_le_blocks.trans (Nat.mul_le_mul_right _ ?_)
    exact Nat.le_pow_clog (by norm_num) _
  · intro i _ outside
    apply scaleTerm_beyond
    simpa using outside

include accurate in
theorem NonzeroInput.leaf_error (input : NonzeroInput values count) (block : ℕ) :
    (1 - roundoff) ^ 8 * blockTotal values count block ≤
        (partialLeaf values count (maxAbsF values count) block).toReal ∧
      (partialLeaf values count (maxAbsF values count) block).toReal ≤
        (1 + roundoff) ^ 8 * blockTotal values count block := by
  by_cases inside : block < blockCount count
  · rw [partialLeaf, if_pos inside]
    exact tree_error accurate (two_pow_inside (by norm_num)) (input.blockLeaves block)
  · have zero : (zeroF).toReal = 0 := Fp.toReal_eq_zero_iff.mpr Fp.mag_zero
    rw [partialLeaf, if_neg inside, blockTotal_beyond (Nat.le_of_not_lt inside), zero]
    simp

/-- The depth of the two trees of sums. -/
def sumDepth (count : ℕ) : ℕ := 8 + paddedBits count

include accurate in
theorem NonzeroInput.tree_total (input : NonzeroInput values count)
    (fits : count ≤ sizeMax / 4) :
    (1 - roundoff) ^ sumDepth count * termTotal values count ≤
        (squareSum values count (maxAbsF values count)).toReal ∧
      (squareSum values count (maxAbsF values count)).toReal ≤
        (1 + roundoff) ^ sumDepth count * termTotal values count := by
  obtain ⟨lower, upper⟩ := tree_error accurate (paddedDepth_inside fits) input.partialLeaves
  have below : (0 : ℝ) ≤ 1 - roundoff := by linarith [roundoff_small]
  have above : (0 : ℝ) ≤ 1 + roundoff := by linarith [roundoff_pos]
  have leavesLower : (1 - roundoff) ^ 8 * termTotal values count ≤
      ∑ block ∈ Finset.range (2 ^ paddedBits count),
        (partialLeaf values count (maxAbsF values count) block).toReal := by
    rw [← sum_blockTotal, Finset.mul_sum]
    exact Finset.sum_le_sum fun block _ => (input.leaf_error accurate block).1
  have leavesUpper : ∑ block ∈ Finset.range (2 ^ paddedBits count),
        (partialLeaf values count (maxAbsF values count) block).toReal ≤
      (1 + roundoff) ^ 8 * termTotal values count := by
    rw [← sum_blockTotal, Finset.mul_sum]
    exact Finset.sum_le_sum fun block _ => (input.leaf_error accurate block).2
  constructor
  · calc
      (1 - roundoff) ^ sumDepth count * termTotal values count =
          (1 - roundoff) ^ paddedBits count * ((1 - roundoff) ^ 8 * termTotal values count) := by
        rw [sumDepth, pow_add]
        ring
      _ ≤ _ := mul_le_mul_of_nonneg_left leavesLower (pow_nonneg below _)
      _ ≤ _ := lower
  · calc
      _ ≤ _ := upper
      _ ≤ (1 + roundoff) ^ paddedBits count * ((1 + roundoff) ^ 8 * termTotal values count) :=
        mul_le_mul_of_nonneg_left leavesUpper (pow_nonneg above _)
      _ = (1 + roundoff) ^ sumDepth count * termTotal values count := by
        rw [sumDepth, pow_add]
        ring

include accurate in
theorem NonzeroInput.total_error (input : NonzeroInput values count) :
    (1 - roundoff) ^ 3 * exactSum values count - 2 * count * eta ≤ termTotal values count ∧
      termTotal values count ≤ (1 + roundoff) ^ 3 * exactSum values count + 2 * count * eta := by
  have constant : ∑ _i ∈ Finset.range count, 2 * eta = 2 * count * eta := by
    rw [Finset.sum_const, Finset.card_range, nsmul_eq_mul]
    ring
  unfold exactSum termTotal
  rw [Finset.mul_sum, Finset.mul_sum, ← constant, ← Finset.sum_sub_distrib,
    ← Finset.sum_add_distrib]
  constructor
  · apply Finset.sum_le_sum
    intro i inside
    exact (input.term_error accurate (Finset.mem_range.mp inside)).1
  · apply Finset.sum_le_sum
    intro i inside
    exact (input.term_error accurate (Finset.mem_range.mp inside)).2

omit [RoundedArith Format.binary32] in
theorem NonzeroInput.one_le_exactSum (input : NonzeroInput values count) :
    1 ≤ exactSum values count := by
  obtain ⟨i, below, largest⟩ := input.exists_abs_eq
  have exactOne : exactRatio values count i ^ 2 = 1 := by
    rw [exactRatio, largest, div_self input.maxAbs_pos.ne', one_pow]
  rw [← exactOne]
  exact Finset.single_le_sum
    (fun j _ => sq_nonneg (exactRatio values count j)) (Finset.mem_range.mpr below)

/-! ## The root and the scale -/

/-- The number of roundings behind the scale: `12 + ceil(log2(M))`. -/
def scaleOperations (count : ℕ) : ℕ := sumDepth count + 4

omit [RoundedArith Format.binary32] in
theorem scaleOperations_small (fits : count ≤ sizeMax / 4) :
    (scaleOperations count : ℝ) * roundoff ≤ 1 / 100 := by
  have bits := paddedBits_le fits
  have operations : (scaleOperations count : ℝ) ≤ 66 := by
    unfold scaleOperations sumDepth
    exact_mod_cast (by omega : 8 + paddedBits count + 4 ≤ 66)
  calc
    (scaleOperations count : ℝ) * roundoff ≤ 66 * (1 / 10000000) :=
      mul_le_mul operations roundoff_small roundoff_pos.le (by norm_num)
    _ ≤ 1 / 100 := by norm_num

include accurate in
theorem NonzeroInput.root_error (input : NonzeroInput values count)
    (fits : count ≤ sizeMax / 4) :
    (1 - roundoff) * Real.sqrt (squareSum values count (maxAbsF values count)).toReal ≤
        (rootF values count).toReal ∧
      (rootF values count).toReal ≤
        (1 + roundoff) * Real.sqrt (squareSum values count (maxAbsF values count)).toReal := by
  have large := Real.one_le_sqrt.mpr (input.one_le_sum fits)
  have error := error_of_rounds accurate (input.root_rounds fits)
    (input.root_within fits).finite
  have normal : eta / 2 ≤
      roundoff * Real.sqrt (squareSum values count (maxAbsF values count)).toReal := by
    have := mul_le_mul_of_nonneg_left large roundoff_pos.le
    linarith [eta_small, roundoff_pos]
  rw [abs_of_nonneg (Real.sqrt_nonneg _)] at error
  have bounded := abs_le.mp (error.trans (max_le le_rfl normal))
  constructor
  · linarith [bounded.1]
  · linarith [bounded.2]

/-- The exact norm of an input: its largest magnitude times the root of the sum of
squared ratios. -/
noncomputable def exactScale (values : ℕ → F32) (count : ℕ) : ℝ :=
  (maxAbsF values count).toReal * Real.sqrt (exactSum values count)

include accurate in
theorem NonzeroInput.root_le (input : NonzeroInput values count)
    (fits : count ≤ sizeMax / 4) :
    (rootF values count).toReal ≤ (1 + roundoff) ^ (sumDepth count + 3) *
      Real.sqrt (exactSum values count) +
        (1 + roundoff) ^ (sumDepth count + 1) * (count * eta) := by
  have large : (1 : ℝ) ≤ 1 + roundoff := by linarith [roundoff_pos]
  have oneSum := input.one_le_exactSum
  have absolute : (0 : ℝ) ≤ count * eta := mul_nonneg (Nat.cast_nonneg _) eta_pos.le
  have grown : (0 : ℝ) ≤ (1 + roundoff) ^ sumDepth count := by positivity
  have sum : (squareSum values count (maxAbsF values count)).toReal ≤
      (1 + roundoff) ^ (sumDepth count + 3) * exactSum values count +
        2 * ((1 + roundoff) ^ sumDepth count * (count * eta)) := by
    calc
      _ ≤ (1 + roundoff) ^ sumDepth count * termTotal values count :=
        (input.tree_total accurate fits).2
      _ ≤ (1 + roundoff) ^ sumDepth count *
          ((1 + roundoff) ^ 3 * exactSum values count + 2 * count * eta) :=
        mul_le_mul_of_nonneg_left (input.total_error accurate).2 grown
      _ = _ := by ring
  have root : Real.sqrt (squareSum values count (maxAbsF values count)).toReal ≤
      (1 + roundoff) ^ (sumDepth count + 2) * Real.sqrt (exactSum values count) +
        (1 + roundoff) ^ sumDepth count * (count * eta) := by
    have product : 1 ≤ (1 + roundoff) ^ (sumDepth count + 3) * exactSum values count :=
      one_le_mul_of_one_le_of_one_le (one_le_pow₀ large) oneSum
    have halved := sqrt_add_le product
      (mul_nonneg zero_le_two (mul_nonneg grown absolute))
    rw [Real.sqrt_mul (by positivity), mul_div_cancel_left₀ _ two_ne_zero] at halved
    have power := sqrt_pow_le large
      (by omega : sumDepth count + 3 ≤ 2 * (sumDepth count + 2))
    have scaled := mul_le_mul_of_nonneg_right power (Real.sqrt_nonneg (exactSum values count))
    linarith [Real.sqrt_le_sqrt sum]
  calc
    _ ≤ (1 + roundoff) * Real.sqrt (squareSum values count (maxAbsF values count)).toReal :=
      (input.root_error accurate fits).2
    _ ≤ (1 + roundoff) * ((1 + roundoff) ^ (sumDepth count + 2) *
          Real.sqrt (exactSum values count) +
        (1 + roundoff) ^ sumDepth count * (count * eta)) :=
      mul_le_mul_of_nonneg_left root (by linarith)
    _ = _ := by ring

include accurate in
theorem NonzeroInput.le_root (input : NonzeroInput values count)
    (fits : count ≤ sizeMax / 4) :
    (1 - roundoff) ^ (sumDepth count + 3) * Real.sqrt (exactSum values count) -
      4 * (count * eta) ≤ (rootF values count).toReal := by
  have nonneg : (0 : ℝ) ≤ 1 - roundoff := by linarith [roundoff_small]
  have small : (1 : ℝ) - roundoff ≤ 1 := by linarith [roundoff_pos]
  have oneSum := input.one_le_exactSum
  have absolute : (0 : ℝ) ≤ count * eta := mul_nonneg (Nat.cast_nonneg _) eta_pos.le
  have shrunk : (0 : ℝ) ≤ (1 - roundoff) ^ sumDepth count := pow_nonneg nonneg _
  have shrunkSmall : (1 - roundoff) ^ sumDepth count ≤ 1 := pow_le_one₀ nonneg small
  have error : (1 - roundoff) ^ sumDepth count * (count * eta) ≤ count * eta :=
    mul_le_of_le_one_left absolute shrunkSmall
  have sum : (1 - roundoff) ^ (sumDepth count + 3) * exactSum values count -
      2 * (count * eta) ≤ (squareSum values count (maxAbsF values count)).toReal := by
    calc
      _ ≤ (1 - roundoff) ^ (sumDepth count + 3) * exactSum values count -
          2 * ((1 - roundoff) ^ sumDepth count * (count * eta)) := by linarith
      _ = (1 - roundoff) ^ sumDepth count *
          ((1 - roundoff) ^ 3 * exactSum values count - 2 * count * eta) := by ring
      _ ≤ (1 - roundoff) ^ sumDepth count * termTotal values count :=
        mul_le_mul_of_nonneg_left (input.total_error accurate).1 shrunk
      _ ≤ _ := (input.tree_total accurate fits).1
  have product : 1 / 4 ≤ (1 - roundoff) ^ (sumDepth count + 3) * exactSum values count := by
    have power : (1 : ℝ) / 4 ≤ (1 - roundoff) ^ (sumDepth count + 3) := by
      have bernoulli := @one_sub_mul_le_pow roundoff (sumDepth count + 3)
        (by linarith [roundoff_small])
      have operations := scaleOperations_small fits
      unfold scaleOperations at operations
      push_cast at operations bernoulli
      nlinarith [roundoff_pos]
    nlinarith
  have rootLarge : 1 / 2 ≤
      Real.sqrt ((1 - roundoff) ^ (sumDepth count + 3) * exactSum values count) := by
    apply Real.le_sqrt_of_sq_le
    linarith
  have root : (1 - roundoff) ^ (sumDepth count + 2) * Real.sqrt (exactSum values count) -
      4 * (count * eta) ≤
        Real.sqrt (squareSum values count (maxAbsF values count)).toReal := by
    have square : Real.sqrt ((1 - roundoff) ^ (sumDepth count + 3) * exactSum values count) ^ 2 =
        (1 - roundoff) ^ (sumDepth count + 3) * exactSum values count :=
      Real.sq_sqrt (by linarith)
    have lowered : Real.sqrt ((1 - roundoff) ^ (sumDepth count + 3) *
          exactSum values count) - 2 * (count * eta) /
        Real.sqrt ((1 - roundoff) ^ (sumDepth count + 3) * exactSum values count) ≤
        Real.sqrt (squareSum values count (maxAbsF values count)).toReal := by
      apply sub_div_le_sqrt (by linarith) (mul_nonneg zero_le_two absolute)
      rw [square]
      exact sum
    have quotient : 2 * (count * eta) /
        Real.sqrt ((1 - roundoff) ^ (sumDepth count + 3) * exactSum values count) ≤
          4 * (count * eta) := by
      rw [div_le_iff₀ (by linarith)]
      nlinarith
    have power := pow_le_sqrt nonneg small
      (by omega : sumDepth count + 3 ≤ 2 * (sumDepth count + 2))
    have scaled := mul_le_mul_of_nonneg_right power (Real.sqrt_nonneg (exactSum values count))
    rw [← Real.sqrt_mul (pow_nonneg nonneg _)] at scaled
    linarith
  have last := mul_le_mul_of_nonneg_left root nonneg
  calc
    _ ≤ (1 - roundoff) * ((1 - roundoff) ^ (sumDepth count + 2) *
        Real.sqrt (exactSum values count) - 4 * (count * eta)) := by
      have split : (1 - roundoff) ^ (sumDepth count + 3) =
          (1 - roundoff) * (1 - roundoff) ^ (sumDepth count + 2) := by ring
      rw [split]
      nlinarith [roundoff_pos]
    _ ≤ (1 - roundoff) *
        Real.sqrt (squareSum values count (maxAbsF values count)).toReal := last
    _ ≤ _ := (input.root_error accurate fits).1

/-- The relative bound on the error of the scale. -/
noncomputable def scaleEpsilon (count : ℕ) (scale : ℝ) : ℝ :=
  relativeBound (scaleOperations count) roundoff + (4 * count * eta + eta / ((2 : ℕ) * scale))

omit [RoundedArith Format.binary32] in
theorem NonzeroInput.maxAbs_le_exactScale (input : NonzeroInput values count) :
    (maxAbsF values count).toReal ≤ exactScale values count :=
  le_mul_of_one_le_right input.maxAbs_pos.le (Real.one_le_sqrt.mpr input.one_le_exactSum)

omit [RoundedArith Format.binary32] in
theorem NonzeroInput.exactScale_pos (input : NonzeroInput values count) :
    0 < exactScale values count :=
  lt_of_lt_of_le input.maxAbs_pos input.maxAbs_le_exactScale

include accurate in
theorem NonzeroInput.scale_error (input : NonzeroInput values count)
    (fits : count ≤ sizeMax / 4) (finite : (scaleF values count).isFinite = true) :
    |(scaleF values count).toReal - exactScale values count| ≤
      exactScale values count * scaleEpsilon count (exactScale values count) := by
  have mPos := input.maxAbs_pos
  have mLe := input.maxAbs_le_exactScale
  have sPos := input.exactScale_pos
  have absolute : (0 : ℝ) ≤ count * eta := mul_nonneg (Nat.cast_nonneg _) eta_pos.le
  have few := scaleOperations_small fits
  have uLeOne : roundoff ≤ 1 := by linarith [roundoff_small]
  have below : (scaleOperations count : ℝ) * roundoff < 1 := by linarith
  have rootNonneg := zero_le_one.trans (input.root_within fits).lower
  have product := error_add accurate (mul_nonneg mPos.le rootNonneg)
    (input.scale_rounds fits) finite
  have grow := one_add_pow_le roundoff_pos.le uLeOne below
  have shrink := le_one_sub_pow roundoff_pos.le uLeOne below
  have absoluteScaled : (maxAbsF values count).toReal * (4 * (count * eta)) ≤
      exactScale values count * (4 * (count * eta)) :=
    mul_le_mul_of_nonneg_right mLe (by linarith)
  have bound : exactScale values count * scaleEpsilon count (exactScale values count) =
      exactScale values count * relativeBound (scaleOperations count) roundoff +
        exactScale values count * (4 * (count * eta)) + eta / 2 := by
    unfold scaleEpsilon
    field_simp
    ring
  rw [bound, abs_le]
  constructor
  · have lower := mul_le_mul_of_nonneg_left (input.le_root accurate fits)
      (mul_nonneg mPos.le (by linarith : 0 ≤ 1 - roundoff))
    have relative := mul_le_mul_of_nonneg_left shrink sPos.le
    unfold scaleOperations at relative ⊢
    have factored : (maxAbsF values count).toReal * (1 - roundoff) *
        ((1 - roundoff) ^ (sumDepth count + 3) * Real.sqrt (exactSum values count)) =
          exactScale values count * (1 - roundoff) ^ (sumDepth count + 4) := by
      unfold exactScale
      ring
    have less : (maxAbsF values count).toReal * (1 - roundoff) * (4 * (count * eta)) ≤
        (maxAbsF values count).toReal * (4 * (count * eta)) := by
      apply mul_le_mul_of_nonneg_right _ (by linarith)
      exact mul_le_of_le_one_right mPos.le (by linarith [roundoff_pos])
    rw [mul_sub, factored] at lower
    linarith [product.1]
  · have upper := mul_le_mul_of_nonneg_left (input.root_le accurate fits)
      (mul_nonneg mPos.le (by linarith [roundoff_pos] : 0 ≤ 1 + roundoff))
    have relative := mul_le_mul_of_nonneg_left grow sPos.le
    have factor : (1 + roundoff) ^ (sumDepth count + 2) ≤ 4 := by
      have power : (1 + roundoff) ^ (sumDepth count + 2) ≤
          (1 + roundoff) ^ scaleOperations count :=
        pow_le_pow_right₀ (by linarith [roundoff_pos])
          (by unfold scaleOperations; omega)
      have relativeSmall : relativeBound (scaleOperations count) roundoff ≤ 1 := by
        unfold relativeBound
        rw [div_le_one (by linarith)]
        linarith
      linarith
    unfold scaleOperations at relative ⊢
    have factored : (maxAbsF values count).toReal * (1 + roundoff) *
        ((1 + roundoff) ^ (sumDepth count + 3) * Real.sqrt (exactSum values count)) =
          exactScale values count * (1 + roundoff) ^ (sumDepth count + 4) := by
      unfold exactScale
      ring
    have less : (maxAbsF values count).toReal * (1 + roundoff) *
        ((1 + roundoff) ^ (sumDepth count + 1) * (count * eta)) ≤
          (maxAbsF values count).toReal * (4 * (count * eta)) := by
      have scaled := mul_le_mul_of_nonneg_right factor absolute
      calc
        _ = (maxAbsF values count).toReal *
            ((1 + roundoff) ^ (sumDepth count + 2) * (count * eta)) := by ring
        _ ≤ _ := mul_le_mul_of_nonneg_left scaled mPos.le
    rw [mul_add ((maxAbsF values count).toReal * (1 + roundoff)), factored] at upper
    linarith [product.2]

end

end Stoquant

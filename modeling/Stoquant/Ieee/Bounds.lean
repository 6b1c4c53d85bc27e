import Mathlib.Algebra.BigOperators.Group.Finset.Basic
import Mathlib.Algebra.Order.BigOperators.Group.Finset
import Stoquant.Ieee.Exact
import Stoquant.Ieee.Nearest
import Stoquant.Tree.Pairs

/-!
# Bounds on rounded results

A rounded result stays between floats that enclose the exact one.  An accurate
rounding has a small relative error and, near zero, a small absolute one; a sum of
nonnegative floats has only the relative error, so a tree of sums has a relative
error that depends on its depth alone.
-/

namespace Ieee

variable {φ : Format}

theorem SameValue.toReal {x y : Fp φ} (same : SameValue x y) : x.toReal = y.toReal := by
  rw [Fp.toReal, Fp.toReal, same.toRat]

theorem representable_of_lt {n : ℕ} (short : n < 2 ^ (φ.manBits + 1)) :
    Representable φ n := by
  have value : n = n * 2 ^ 0 := by rw [pow_zero, Nat.mul_one]
  apply Representable.of_short value short
  refine lt_of_lt_of_le short ?_
  have manPos : 0 < 2 ^ φ.manBits := by positivity
  have wide : 2 ^ 2 ≤ 2 ^ φ.expBits := Nat.pow_le_pow_right (by norm_num) φ.expBits_ge
  have top : units φ φ.infMag = 2 ^ φ.manBits * 2 ^ (2 ^ φ.expBits - 1 - 1) := by
    have above : ¬ φ.infMag < 2 ^ φ.manBits := by
      unfold Format.infMag
      exact Nat.not_lt.mpr (Nat.le_mul_of_pos_left _ (by omega))
    unfold units significand exponent
    rw [if_neg above, Format.infMag, Nat.mul_mod_left, Nat.mul_div_cancel _ manPos,
      Nat.add_zero]
  rw [top, pow_succ]
  apply Nat.mul_le_mul_left
  calc
    2 = 2 ^ 1 := rfl
    _ ≤ 2 ^ (2 ^ φ.expBits - 1 - 1) := Nat.pow_le_pow_right (by norm_num) (by omega)

/-- The reals that are finite values of the format. -/
def IsFloat (φ : Format) (a : ℝ) : Prop := ∃ x : Fp φ, x.isFinite = true ∧ x.toReal = a

theorem isFloat_toReal {x : Fp φ} (finite : x.isFinite = true) : IsFloat φ x.toReal :=
  ⟨x, finite, rfl⟩

theorem isFloat_zero : IsFloat φ 0 :=
  ⟨Fp.zero φ, Fp.isFinite_zero, Fp.toReal_eq_zero_iff.mpr Fp.mag_zero⟩

theorem isFloat_units {n : ℕ} (rep : Representable φ n) : IsFloat φ ((n : ℝ) / one φ) := by
  obtain ⟨x, has⟩ := HasUnits.exists_of_representable rep
  exact ⟨x, has.finite, has.toReal⟩

theorem one_pos : (0 : ℝ) < one φ := by
  have positive : 0 < one φ := by positivity
  exact_mod_cast positive

/-- A power of two inside the range is a float. -/
theorem isFloat_two_pow {k : ℕ} (inside : 2 ^ k * one φ < units φ φ.infMag) :
    IsFloat φ (2 ^ k) := by
  have rep : Representable φ (2 ^ k * one φ) := by
    have value : 2 ^ k * one φ = 1 * 2 ^ (k + φ.unitExp) := by rw [Nat.one_mul, pow_add]
    exact .of_short value (Nat.one_lt_two_pow (Nat.succ_ne_zero _)) inside
  have value := isFloat_units rep
  have cast : ((2 ^ k * one φ : ℕ) : ℝ) / one φ = 2 ^ k := by
    have nonzero := (one_pos (φ := φ)).ne'
    push_cast
    field_simp
  rwa [cast] at value

/-- A finite value in an interval. -/
structure Within (a b : ℝ) (x : Fp φ) : Prop where
  finite : x.isFinite = true
  lower : a ≤ x.toReal
  upper : x.toReal ≤ b

theorem Within.key_nonneg {a b : ℝ} {x : Fp φ} (within : Within a b x) (nonneg : 0 ≤ a) :
    0 ≤ x.key :=
  Fp.toReal_nonneg_iff.mp (nonneg.trans within.lower)

section

variable [RoundedArith φ] {x y : Fp φ} {a b r : ℝ}

theorem Within.of_rounds (rounds : SameValue x ((rounding φ).round r)) (aFloat : IsFloat φ a)
    (bFloat : IsFloat φ b) (lower : a ≤ r) (upper : r ≤ b) : Within a b x := by
  obtain ⟨low, lowFinite, rfl⟩ := aFloat
  obtain ⟨high, highFinite, rfl⟩ := bFloat
  have lowKey := (rounding φ).ge_of_ge lowFinite lower
  have highKey := (rounding φ).le_of_le highFinite upper
  have finite : ((rounding φ).round r).isFinite = true := by
    rw [Fp.isFinite_iff_key] at lowFinite highFinite ⊢
    omega
  refine ⟨rounds.isFinite.trans finite, ?_, ?_⟩
  · rw [rounds.toReal]
    exact Fp.toReal_le_iff.mpr lowKey
  · rw [rounds.toReal]
    exact Fp.toReal_le_iff.mpr highKey

/-- A finite rounded result is at least every float below the exact one. -/
theorem le_toReal_of_rounds (rounds : SameValue x ((rounding φ).round r))
    (aFloat : IsFloat φ a) (lower : a ≤ r) : a ≤ x.toReal := by
  obtain ⟨low, lowFinite, rfl⟩ := aFloat
  rw [rounds.toReal]
  exact Fp.toReal_le_iff.mpr ((rounding φ).ge_of_ge lowFinite lower)

end

/-! ## Accurate roundings -/

/-- The relative error of rounding to nearest. -/
noncomputable def unitRoundoff (φ : Format) : ℝ := 1 / (2 ^ (φ.manBits + 1) : ℕ)

theorem unitRoundoff_eq (φ : Format) : unitRoundoff φ = 1 / 2 ^ (φ.manBits + 1) := by
  unfold unitRoundoff
  push_cast
  rfl

/-- The least positive value. -/
noncomputable def leastPositive (φ : Format) : ℝ := 1 / one φ

theorem unitRoundoff_pos : 0 < unitRoundoff φ := by
  rw [unitRoundoff_eq]
  positivity

theorem leastPositive_pos : 0 < leastPositive φ := by
  have positive := one_pos (φ := φ)
  unfold leastPositive
  positivity

/-- A rounding with the relative error of rounding to nearest, and its absolute
error near zero. -/
def Rounding.Accurate (R : Rounding φ) : Prop :=
  ∀ r, (R.round r).isFinite = true →
    |(R.round r).toReal - r| ≤ max (unitRoundoff φ * |r|) (leastPositive φ / (2 : ℕ))

section

variable [RoundedArith φ] (accurate : (rounding φ).Accurate) {x y : Fp φ} {r : ℝ}

include accurate in
theorem error_of_rounds (rounds : SameValue x ((rounding φ).round r))
    (finite : x.isFinite = true) :
    |x.toReal - r| ≤ max (unitRoundoff φ * |r|) (leastPositive φ / 2) := by
  rw [rounds.toReal]
  have bound := accurate r (rounds.isFinite.symm.trans finite)
  rwa [Nat.cast_ofNat] at bound

omit [RoundedArith φ] in
theorem hasUnits_of_nonneg (finite : x.isFinite = true) (nonneg : 0 ≤ x.toReal) :
    HasUnits x (units φ x.mag) := by
  refine ⟨finite, ?_⟩
  have key := Fp.toReal_nonneg_iff.mp nonneg
  cases sign : x.sign with
  | false => exact Fp.toUnits_of_pos sign
  | true =>
      rw [Fp.key, sign, if_pos rfl] at key
      have zero : x.mag = 0 := by omega
      simp [Fp.toUnits, zero]

include accurate in
/-- A sum of nonnegative floats has no absolute error: where it is small it is
exact. -/
theorem add_error (xFinite : x.isFinite = true) (yFinite : y.isFinite = true)
    (xNonneg : 0 ≤ x.toReal) (yNonneg : 0 ≤ y.toReal) (finite : (x + y).isFinite = true) :
    |(x + y).toReal - (x.toReal + y.toReal)| ≤ unitRoundoff φ * (x.toReal + y.toReal) := by
  have sumNonneg : 0 ≤ x.toReal + y.toReal := add_nonneg xNonneg yNonneg
  have rounds := add_rounds xFinite yFinite
  have xHas := hasUnits_of_nonneg xFinite xNonneg
  have yHas := hasUnits_of_nonneg yFinite yNonneg
  have sum : x.toReal + y.toReal =
      ((units φ x.mag + units φ y.mag : ℕ) : ℝ) / one φ := by
    rw [xHas.toReal, yHas.toReal]
    push_cast
    ring
  by_cases short : units φ x.mag + units φ y.mag < 2 ^ (φ.manBits + 1)
  · have same := HasUnits.of_rounds rounds (representable_of_lt short) sum
    rw [same.toReal, ← sum, sub_self, abs_zero]
    exact mul_nonneg unitRoundoff_pos.le sumNonneg
  · have error := error_of_rounds accurate rounds finite
    rw [abs_of_nonneg sumNonneg] at error
    apply error.trans
    apply max_le le_rfl
    -- the sum has enough units for the relative error to cover half of one
    have enough : (2 : ℝ) ^ (φ.manBits + 1) / one φ ≤ x.toReal + y.toReal := by
      rw [sum]
      apply div_le_div_of_nonneg_right _ one_pos.le
      exact_mod_cast Nat.le_of_not_lt short
    calc
      leastPositive φ / 2 ≤ leastPositive φ := by
        have := leastPositive_pos (φ := φ)
        linarith
      _ = unitRoundoff φ * ((2 : ℝ) ^ (φ.manBits + 1) / one φ) := by
        rw [unitRoundoff_eq]
        unfold leastPositive
        field_simp
      _ ≤ unitRoundoff φ * (x.toReal + y.toReal) :=
        mul_le_mul_of_nonneg_left enough unitRoundoff_pos.le

end

/-! ## Trees of sums -/

section

variable [RoundedArith φ] {leaf : ℕ → Fp φ} {j : ℕ}

/-- The sums of a tree over leaves in an interval stay in range. -/
theorem tree_within {k : ℕ} (inside : 2 ^ (j + k) * one φ < units φ φ.infMag)
    (leaves : ∀ i < 2 ^ k, Within 0 (2 ^ j) (leaf i)) :
    Within 0 (2 ^ (j + k)) (Tree.tree (· + ·) k leaf) := by
  induction k generalizing leaf with
  | zero => simpa [Tree.tree] using leaves 0 (by norm_num)
  | succ k induction =>
      have smaller : 2 ^ (j + k) * one φ < units φ φ.infMag := by
        refine lt_of_le_of_lt (Nat.mul_le_mul_right _ ?_) inside
        exact Nat.pow_le_pow_right (by norm_num) (Nat.le_succ (j + k))
      have left := induction smaller fun i below => leaves i (by rw [pow_succ]; omega)
      have right : Within 0 (2 ^ (j + k)) (Tree.tree (· + ·) k fun i => leaf (2 ^ k + i)) :=
        induction smaller fun i below => leaves (2 ^ k + i) (by rw [pow_succ]; omega)
      rw [Tree.tree_succ]
      apply Within.of_rounds (add_rounds left.finite right.finite) isFloat_zero
        (isFloat_two_pow inside)
      · exact add_nonneg left.lower right.lower
      · rw [← Nat.add_assoc, pow_succ]
        linarith [left.upper, right.upper]

/-- A tree of sums is at least each of its nonnegative leaves. -/
theorem leaf_le_tree {k : ℕ} (inside : 2 ^ (j + k) * one φ < units φ φ.infMag)
    (leaves : ∀ i < 2 ^ k, Within 0 (2 ^ j) (leaf i)) {i : ℕ} (below : i < 2 ^ k) :
    (leaf i).toReal ≤ (Tree.tree (· + ·) k leaf).toReal := by
  induction k generalizing leaf i with
  | zero =>
      obtain rfl : i = 0 := by simpa using below
      exact le_rfl
  | succ k induction =>
      have smaller : 2 ^ (j + k) * one φ < units φ φ.infMag := by
        refine lt_of_le_of_lt (Nat.mul_le_mul_right _ ?_) inside
        exact Nat.pow_le_pow_right (by norm_num) (Nat.le_succ (j + k))
      have leftLeaves : ∀ i < 2 ^ k, Within 0 (2 ^ j) (leaf i) :=
        fun i below => leaves i (by rw [pow_succ]; omega)
      have rightLeaves : ∀ i < 2 ^ k, Within 0 (2 ^ j) (leaf (2 ^ k + i)) :=
        fun i below => leaves (2 ^ k + i) (by rw [pow_succ]; omega)
      have left := tree_within smaller leftLeaves
      have right : Within 0 (2 ^ (j + k)) (Tree.tree (· + ·) k fun i => leaf (2 ^ k + i)) :=
        tree_within smaller rightLeaves
      have rounds := add_rounds left.finite right.finite
      rw [Tree.tree_succ]
      by_cases half : i < 2 ^ k
      · refine (induction smaller leftLeaves half).trans ?_
        apply le_toReal_of_rounds rounds (isFloat_toReal left.finite)
        linarith [right.lower]
      · have inRight : i - 2 ^ k < 2 ^ k := by
          rw [pow_succ] at below
          omega
        have found := induction smaller rightLeaves inRight
        rw [Nat.add_sub_cancel' (Nat.le_of_not_lt half)] at found
        refine found.trans ?_
        apply le_toReal_of_rounds rounds (isFloat_toReal right.finite)
        linarith [left.lower]

/-- The relative error of a tree of sums grows with its depth. -/
theorem tree_error (accurate : (rounding φ).Accurate) {k : ℕ}
    (inside : 2 ^ (j + k) * one φ < units φ φ.infMag)
    (leaves : ∀ i < 2 ^ k, Within 0 (2 ^ j) (leaf i)) :
    (1 - unitRoundoff φ) ^ k * ∑ i ∈ Finset.range (2 ^ k), (leaf i).toReal ≤
        (Tree.tree (· + ·) k leaf).toReal ∧
      (Tree.tree (· + ·) k leaf).toReal ≤
        (1 + unitRoundoff φ) ^ k * ∑ i ∈ Finset.range (2 ^ k), (leaf i).toReal := by
  induction k generalizing leaf with
  | zero => simp [Tree.tree]
  | succ k induction =>
      have smaller : 2 ^ (j + k) * one φ < units φ φ.infMag := by
        refine lt_of_le_of_lt (Nat.mul_le_mul_right _ ?_) inside
        exact Nat.pow_le_pow_right (by norm_num) (Nat.le_succ (j + k))
      have leftLeaves : ∀ i < 2 ^ k, Within 0 (2 ^ j) (leaf i) :=
        fun i below => leaves i (by rw [pow_succ]; omega)
      have rightLeaves : ∀ i < 2 ^ k, Within 0 (2 ^ j) (leaf (2 ^ k + i)) :=
        fun i below => leaves (2 ^ k + i) (by rw [pow_succ]; omega)
      have left := tree_within smaller leftLeaves
      have right : Within 0 (2 ^ (j + k)) (Tree.tree (· + ·) k fun i => leaf (2 ^ k + i)) :=
        tree_within smaller rightLeaves
      have whole := tree_within inside leaves
      obtain ⟨leftLower, leftUpper⟩ := induction smaller leftLeaves
      obtain ⟨rightLower, rightUpper⟩ := induction smaller rightLeaves
      have sums : ∑ i ∈ Finset.range (2 ^ (k + 1)), (leaf i).toReal =
          ∑ i ∈ Finset.range (2 ^ k), (leaf i).toReal +
            ∑ i ∈ Finset.range (2 ^ k), (leaf (2 ^ k + i)).toReal := by
        rw [pow_succ, Nat.mul_two, Finset.sum_range_add]
      rw [Tree.tree_succ] at whole ⊢
      have error := add_error accurate left.finite right.finite left.lower right.lower
        whole.finite
      rw [abs_le] at error
      have small : 0 ≤ 1 - unitRoundoff φ := by
        have half : unitRoundoff φ ≤ 1 := by
          rw [unitRoundoff_eq]
          rw [div_le_one (by positivity)]
          exact one_le_pow₀ (by norm_num)
        linarith
      have positive := unitRoundoff_pos (φ := φ)
      rw [sums]
      constructor
      · calc
          (1 - unitRoundoff φ) ^ (k + 1) *
              (∑ i ∈ Finset.range (2 ^ k), (leaf i).toReal +
                ∑ i ∈ Finset.range (2 ^ k), (leaf (2 ^ k + i)).toReal) =
              (1 - unitRoundoff φ) *
                ((1 - unitRoundoff φ) ^ k *
                    ∑ i ∈ Finset.range (2 ^ k), (leaf i).toReal +
                  (1 - unitRoundoff φ) ^ k *
                    ∑ i ∈ Finset.range (2 ^ k), (leaf (2 ^ k + i)).toReal) := by ring
          _ ≤ (1 - unitRoundoff φ) *
                ((Tree.tree (· + ·) k leaf).toReal +
                  (Tree.tree (· + ·) k fun i => leaf (2 ^ k + i)).toReal) :=
            mul_le_mul_of_nonneg_left (add_le_add leftLower rightLower) small
          _ ≤ _ := by linarith [error.1]
      · calc
          (Tree.tree (· + ·) k leaf +
              Tree.tree (· + ·) k fun i => leaf (2 ^ k + i)).toReal ≤
              (1 + unitRoundoff φ) *
                ((Tree.tree (· + ·) k leaf).toReal +
                  (Tree.tree (· + ·) k fun i => leaf (2 ^ k + i)).toReal) := by
            linarith [error.2]
          _ ≤ (1 + unitRoundoff φ) *
                ((1 + unitRoundoff φ) ^ k *
                    ∑ i ∈ Finset.range (2 ^ k), (leaf i).toReal +
                  (1 + unitRoundoff φ) ^ k *
                    ∑ i ∈ Finset.range (2 ^ k), (leaf (2 ^ k + i)).toReal) :=
            mul_le_mul_of_nonneg_left (add_le_add leftUpper rightUpper) (by linarith)
          _ = _ := by ring

end

/-! ## Rounding to nearest -/

theorem roundMag_error {t : ℝ} (nonneg : 0 ≤ t)
    (finite : roundMag φ (realCut t) < φ.infMag) :
    |(units φ (roundMag φ (realCut t)) : ℝ) - t| ≤
      max (unitRoundoff φ * t) (1 / 2) := by
  have inRange : t < units φ φ.infMag := by
    by_contra large
    rw [roundMag_above (not_lt.mp large)] at finite
    exact lt_irrefl _ finite
  obtain ⟨m, small, lower, upper⟩ := exists_between nonneg inRange
  have gap : (units φ (m + 1) : ℝ) = units φ m + 2 ^ exponent φ m := by
    exact_mod_cast units_succ (φ := φ) m
  have halfGap : |(units φ (roundMag φ (realCut t)) : ℝ) - t| ≤ 2 ^ exponent φ m / 2 := by
    rw [roundMag_between small lower upper, abs_le]
    have cast : ((units φ m + units φ (m + 1) : ℕ) : ℝ) = units φ m + units φ (m + 1) := by
      push_cast
      ring
    cases cut : realCut t (units φ m + units φ (m + 1)) with
    | lt =>
        rw [realCut, compare_lt_iff_lt, cast] at cut
        simp only [nearer]
        constructor
        · linarith
        · linarith
    | gt =>
        rw [realCut, compare_gt_iff_gt, cast] at cut
        simp only [nearer]
        constructor
        · linarith
        · linarith
    | eq =>
        rw [realCut, compare_eq_iff_eq, cast] at cut
        simp only [nearer]
        split
        · constructor
          · linarith
          · linarith
        · constructor
          · linarith
          · linarith
  refine halfGap.trans ?_
  by_cases subnormal : exponent φ m = 0
  · rw [subnormal, pow_zero]
    exact le_max_right _ _
  · -- a normal number has at least `2 ^ manBits` units of its last place
    have hidden : 2 ^ φ.manBits ≤ significand φ m := by
      unfold significand
      split
      · rename_i low
        exact absurd (by simp [exponent, Nat.div_eq_of_lt low]) subnormal
      · exact Nat.le_add_right _ _
    have enough : (2 : ℝ) ^ φ.manBits * 2 ^ exponent φ m ≤ t := by
      refine le_trans ?_ lower
      rw [units]
      push_cast
      apply mul_le_mul_of_nonneg_right _ (by positivity)
      exact_mod_cast hidden
    apply le_max_of_le_left
    calc
      (2 : ℝ) ^ exponent φ m / 2 =
          unitRoundoff φ * (2 ^ φ.manBits * 2 ^ exponent φ m) := by
        rw [unitRoundoff_eq, pow_succ]
        field_simp
      _ ≤ unitRoundoff φ * t := mul_le_mul_of_nonneg_left enough unitRoundoff_pos.le

theorem nearest_accurate (φ : Format) : (Nearest.rounding φ).Accurate := by
  intro r finite
  rw [Nat.cast_ofNat]
  have unitPos : (0 : ℝ) < 2 ^ φ.unitExp := by positivity
  have scaledNonneg : 0 ≤ |r| * 2 ^ φ.unitExp := Nearest.scaled_nonneg r
  have mag : (Nearest.round φ r).mag = roundMag φ (realCut (|r| * 2 ^ φ.unitExp)) :=
    Nearest.mag_ofMag_roundMag _ scaledNonneg
  have small : roundMag φ (realCut (|r| * 2 ^ φ.unitExp)) < φ.infMag := by
    rw [← mag]
    exact Fp.isFinite_iff.mp finite
  have error := roundMag_error scaledNonneg small
  have value : (Nearest.round φ r).toReal * 2 ^ φ.unitExp =
      if r < 0 then -(units φ (roundMag φ (realCut (|r| * 2 ^ φ.unitExp))) : ℝ)
      else units φ (roundMag φ (realCut (|r| * 2 ^ φ.unitExp))) := by
    rw [Nearest.toReal_mul_unit, Fp.toUnits, mag]
    have sign : (Nearest.round φ r).sign = decide (r < 0) := rfl
    rw [sign]
    by_cases negative : r < 0
    · simp [negative]
    · simp [negative]
  have scaled : |(Nearest.round φ r).toReal - r| * 2 ^ φ.unitExp =
      |(units φ (roundMag φ (realCut (|r| * 2 ^ φ.unitExp))) : ℝ) - |r| * 2 ^ φ.unitExp| := by
    rw [← abs_of_pos unitPos, ← abs_mul, sub_mul, abs_of_pos unitPos, value]
    by_cases negative : r < 0
    · rw [if_pos negative, abs_of_neg negative, ← abs_neg]
      congr 1
      ring
    · rw [if_neg negative, abs_of_nonneg (not_lt.mp negative)]
  have bound : |(Nearest.round φ r).toReal - r| * 2 ^ φ.unitExp ≤
      max (unitRoundoff φ * |r|) (leastPositive φ / 2) * 2 ^ φ.unitExp := by
    rw [scaled]
    refine error.trans ?_
    rw [max_mul_of_nonneg _ _ unitPos.le]
    apply max_le_max
    · rw [mul_assoc]
    · unfold leastPositive
      push_cast
      field_simp
      rfl
  exact le_of_mul_le_mul_right bound unitPos

end Ieee

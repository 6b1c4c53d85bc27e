import Stoquant.Ieee.Bounds

/-!
# Growth of relative errors

Powers of `1 + u` and `1 - u` against the usual relative bound of a number of
operations, and how a square root passes relative and absolute errors on.
-/

namespace Ieee

/-- The relative bound of `k` operations of relative error `u`. -/
noncomputable def relativeBound (k : ℕ) (u : ℝ) : ℝ := k * u / (1 - k * u)

section

variable {u : ℝ} {k : ℕ}

theorem one_sub_mul_le_pow (le_one : u ≤ 1) : 1 - k * u ≤ (1 - u) ^ k := by
  have bernoulli := one_add_mul_le_pow (a := -u) (by linarith) k
  calc
    1 - k * u = 1 + k * -u := by ring
    _ ≤ (1 + -u) ^ k := bernoulli
    _ = (1 - u) ^ k := by rw [← sub_eq_add_neg]

/-- `k` roundings upward stay below the relative bound. -/
theorem one_add_pow_le (nonneg : 0 ≤ u) (le_one : u ≤ 1) (small : k * u < 1) :
    (1 + u) ^ k ≤ 1 + relativeBound k u := by
  have positive : 0 < 1 - k * u := sub_pos.mpr small
  have factor : 1 + relativeBound k u = 1 / (1 - k * u) := by
    unfold relativeBound
    field_simp
    ring
  rw [factor, le_div_iff₀ positive]
  have product : (1 + u) ^ k * (1 - u) ^ k ≤ 1 := by
    rw [← mul_pow]
    apply pow_le_one₀
    · exact mul_nonneg (by linarith) (by linarith)
    · nlinarith
  have growNonneg : 0 ≤ (1 + u) ^ k := pow_nonneg (by linarith) _
  exact (mul_le_mul_of_nonneg_left (one_sub_mul_le_pow le_one) growNonneg).trans product

/-- `k` roundings downward stay above the relative bound. -/
theorem le_one_sub_pow (nonneg : 0 ≤ u) (le_one : u ≤ 1) (small : k * u < 1) :
    1 - relativeBound k u ≤ (1 - u) ^ k := by
  have positive : 0 < 1 - k * u := sub_pos.mpr small
  have productNonneg : 0 ≤ k * u := mul_nonneg (Nat.cast_nonneg _) nonneg
  have larger : k * u ≤ relativeBound k u := by
    unfold relativeBound
    rw [le_div_iff₀ positive]
    nlinarith
  exact (sub_le_sub_left larger 1).trans (one_sub_mul_le_pow le_one)

end

/-! ## Square roots -/

theorem sqrt_pow_le {b : ℝ} (large : 1 ≤ b) {n m : ℕ} (half : n ≤ 2 * m) :
    Real.sqrt (b ^ n) ≤ b ^ m := by
  rw [Real.sqrt_le_left (pow_nonneg (by linarith) _), ← pow_mul, Nat.mul_comm]
  exact pow_le_pow_right₀ large half

theorem pow_le_sqrt {b : ℝ} (nonneg : 0 ≤ b) (small : b ≤ 1) {n m : ℕ} (half : n ≤ 2 * m) :
    b ^ m ≤ Real.sqrt (b ^ n) := by
  apply Real.le_sqrt_of_sq_le
  rw [← pow_mul, Nat.mul_comm]
  exact pow_le_pow_of_le_one nonneg small half

/-- Above one a square root halves an absolute error. -/
theorem sqrt_add_le {a e : ℝ} (large : 1 ≤ a) (nonneg : 0 ≤ e) :
    Real.sqrt (a + e) ≤ Real.sqrt a + e / 2 := by
  have root : 1 ≤ Real.sqrt a := Real.one_le_sqrt.mpr large
  have square : Real.sqrt a ^ 2 = a := Real.sq_sqrt (by linarith)
  rw [Real.sqrt_le_left (by positivity)]
  nlinarith

/-- The root of a number at least `a ^ 2 - e`. -/
theorem sub_div_le_sqrt {t a e : ℝ} (positive : 0 < a) (nonneg : 0 ≤ e)
    (lower : a ^ 2 - e ≤ t) : a - e / a ≤ Real.sqrt t := by
  by_cases inside : 0 ≤ a - e / a
  · apply Real.le_sqrt_of_sq_le
    have quotient : e / a ≤ a := by linarith
    have quotientNonneg : 0 ≤ e / a := div_nonneg nonneg positive.le
    have product : a * (e / a) = e := by field_simp
    nlinarith
  · exact (not_le.mp inside).le.trans (Real.sqrt_nonneg t)

end Ieee

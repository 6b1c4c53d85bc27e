import Stoquant.Ieee.Format
import Mathlib.Analysis.Real.Sqrt

/-!
# Arithmetic as a rounding of the reals

The operations of a format are primitives of the programs that use them.  What
those programs rely on is that each operation rounds the exact real result, by
a rounding that is monotone and exact on representable values, together with
the sign rules for zero results and the product with an infinity.
-/

namespace Ieee

variable {φ : Format}

namespace Fp

noncomputable def toReal (x : Fp φ) : ℝ := x.toRat

theorem toRat_le_iff {x y : Fp φ} : x.toRat ≤ y.toRat ↔ x.key ≤ y.key := by
  have unitPos : (0 : ℚ) < 2 ^ φ.unitExp := by positivity
  rw [key_le_iff, toRat, toRat, div_le_div_iff_of_pos_right unitPos]
  exact Int.cast_le

theorem toRat_lt_iff {x y : Fp φ} : x.toRat < y.toRat ↔ x.key < y.key := by
  rw [← not_le, toRat_le_iff, not_le]

theorem toRat_eq_iff {x y : Fp φ} : x.toRat = y.toRat ↔ x.key = y.key := by
  rw [le_antisymm_iff, toRat_le_iff, toRat_le_iff, ← le_antisymm_iff]

theorem toReal_le_iff {x y : Fp φ} : x.toReal ≤ y.toReal ↔ x.key ≤ y.key := by
  rw [toReal, toReal, Rat.cast_le, toRat_le_iff]

theorem isFinite_iff {x : Fp φ} : x.isFinite = true ↔ x.mag < φ.infMag := by
  simp [isFinite]

theorem isFinite_iff_key {x : Fp φ} :
    x.isFinite = true ↔ -(φ.infMag : ℤ) < x.key ∧ x.key < φ.infMag := by
  unfold key
  rw [isFinite_iff]
  split <;> omega

theorem not_isNaN_of_isFinite {x : Fp φ} (finite : x.isFinite = true) :
    x.isNaN = false := by
  have := isFinite_iff.mp finite
  simp [isNaN]
  omega

theorem key_natAbs (x : Fp φ) : x.key.natAbs = x.mag := by
  unfold key
  split <;> omega

@[simp] theorem key_neg (x : Fp φ) : x.neg.key = -x.key := by
  cases sign : x.sign <;> simp [neg, key, sign]

@[simp] theorem mag_neg (x : Fp φ) : x.neg.mag = x.mag := rfl

@[simp] theorem mag_abs (x : Fp φ) : x.abs.mag = x.mag := rfl

@[simp] theorem sign_abs (x : Fp φ) : x.abs.sign = false := rfl

@[simp] theorem sign_neg (x : Fp φ) : x.neg.sign = !x.sign := rfl

@[simp] theorem key_abs (x : Fp φ) : x.abs.key = x.mag := by simp [abs, key]

@[simp] theorem isFinite_abs (x : Fp φ) : x.abs.isFinite = x.isFinite := rfl

@[simp] theorem isFinite_neg (x : Fp φ) : x.neg.isFinite = x.isFinite := rfl

@[simp] theorem isNaN_neg (x : Fp φ) : x.neg.isNaN = x.isNaN := rfl

@[simp] theorem toUnits_neg (x : Fp φ) : x.neg.toUnits = -x.toUnits := by
  cases sign : x.sign <;> simp [neg, toUnits, sign]

@[simp] theorem toRat_neg (x : Fp φ) : x.neg.toRat = -x.toRat := by
  simp [toRat, neg_div]

@[simp] theorem toReal_neg (x : Fp φ) : x.neg.toReal = -x.toReal := by
  simp [toReal]

theorem toUnits_of_pos {x : Fp φ} (sign : x.sign = false) :
    x.toUnits = units φ x.mag := by
  simp [toUnits, sign]

theorem toRat_abs (x : Fp φ) : x.abs.toRat = |x.toRat| := by
  have unitPos : (0 : ℚ) < 2 ^ φ.unitExp := by positivity
  unfold toRat
  rw [abs_div, abs_of_pos unitPos]
  congr 1
  cases sign : x.sign <;> simp [abs, toUnits, sign]

@[simp] theorem mag_zero : (zero φ).mag = 0 := by simp [zero, ofMag]

@[simp] theorem sign_zero : (zero φ).sign = false := rfl

@[simp] theorem key_zero : (zero φ).key = 0 := by simp [key]

@[simp] theorem isFinite_zero : (zero φ).isFinite = true := by
  simp [isFinite, φ.infMag_pos]

theorem toRat_eq_zero_iff {x : Fp φ} : x.toRat = 0 ↔ x.mag = 0 := by
  have : (zero φ).toRat = 0 := by simp [toRat, toUnits]
  rw [← this, toRat_eq_iff, key_zero, ← key_natAbs x]
  omega

theorem toRat_zero : (zero φ).toRat = 0 := toRat_eq_zero_iff.mpr mag_zero

theorem toReal_eq_zero_iff {x : Fp φ} : x.toReal = 0 ↔ x.mag = 0 := by
  rw [toReal, Rat.cast_eq_zero, toRat_eq_zero_iff]

theorem toRat_nonneg_iff {x : Fp φ} : 0 ≤ x.toRat ↔ 0 ≤ x.key := by
  rw [← toRat_zero, toRat_le_iff, key_zero]

theorem toRat_pos_iff {x : Fp φ} : 0 < x.toRat ↔ 0 < x.key := by
  rw [← toRat_zero, toRat_lt_iff, key_zero]

theorem toReal_nonneg_iff {x : Fp φ} : 0 ≤ x.toReal ↔ 0 ≤ x.key := by
  rw [toReal, Rat.cast_nonneg, toRat_nonneg_iff]

theorem toReal_pos_iff {x : Fp φ} : 0 < x.toReal ↔ 0 < x.key := by
  rw [toReal, Rat.cast_pos, toRat_pos_iff]

/-- A datum with positive sign is determined by its key. -/
theorem eq_of_key_of_sign {x y : Fp φ} (key : x.key = y.key)
    (sign : x.sign = y.sign) : x = y := by
  have mags : x.mag = y.mag := by rw [← key_natAbs x, key, key_natAbs]
  ext
  · exact sign
  · exact mags

end Fp

/-- Both data denote the same extended real, up to the sign of zero. -/
structure SameValue (x y : Fp φ) : Prop where
  left : x.isNaN = false
  right : y.isNaN = false
  key : x.key = y.key

namespace SameValue

variable {x y : Fp φ}

theorem mag (same : SameValue x y) : x.mag = y.mag := by
  rw [← Fp.key_natAbs x, same.key, Fp.key_natAbs]

theorem isFinite (same : SameValue x y) : x.isFinite = y.isFinite := by
  simp [Fp.isFinite, same.mag]

theorem toRat (same : SameValue x y) : x.toRat = y.toRat :=
  Fp.toRat_eq_iff.mpr same.key

end SameValue

/-- A monotone rounding of the reals, exact on the values of the format. -/
structure Rounding (φ : Format) where
  round : ℝ → Fp φ
  not_nan : ∀ r, (round r).isNaN = false
  mono : ∀ {r s}, r ≤ s → (round r).key ≤ (round s).key
  exact : ∀ {x : Fp φ}, x.isFinite = true → (round x.toReal).key = x.key

/-- The rounding commutes with the change of sign. -/
def Rounding.Odd (R : Rounding φ) : Prop :=
  ∀ r, (R.round (-r)).key = -(R.round r).key

namespace Rounding

variable (R : Rounding φ) {r : ℝ} {x : Fp φ}

theorem le_of_le (finite : x.isFinite = true) (le : r ≤ x.toReal) :
    (R.round r).key ≤ x.key := by
  rw [← R.exact finite]
  exact R.mono le

theorem ge_of_ge (finite : x.isFinite = true) (ge : x.toReal ≤ r) :
    x.key ≤ (R.round r).key := by
  rw [← R.exact finite]
  exact R.mono ge

theorem nonneg (nonneg : 0 ≤ r) : 0 ≤ (R.round r).key := by
  have := R.ge_of_ge (x := Fp.zero φ) (r := r) Fp.isFinite_zero
    (by rw [Fp.toReal_eq_zero_iff.mpr Fp.mag_zero]; exact nonneg)
  simpa using this

end Rounding

/-- The arithmetic primitives of a format. -/
class Arith (φ : Format) where
  add : Fp φ → Fp φ → Fp φ
  mul : Fp φ → Fp φ → Fp φ
  div : Fp φ → Fp φ → Fp φ
  sqrt : Fp φ → Fp φ
  ofInt : ℤ → Fp φ

section

variable [Arith φ]

instance : Add (Fp φ) := ⟨Arith.add⟩
instance : Mul (Fp φ) := ⟨Arith.mul⟩
instance : Div (Fp φ) := ⟨Arith.div⟩

/-- A subtraction is the addition of the negated operand. -/
instance : Sub (Fp φ) := ⟨fun x y => Arith.add x y.neg⟩

def sqrt (x : Fp φ) : Fp φ := Arith.sqrt x

/-- Conversion of an integer to the format. -/
def ofInt (φ : Format) [Arith φ] (n : ℤ) : Fp φ := Arith.ofInt n

end

/-- Arithmetic whose every operation rounds the exact real result. -/
class RoundedArith (φ : Format) extends Arith φ where
  rounding : Rounding φ
  add_rounds : ∀ {x y : Fp φ}, x.isFinite = true → y.isFinite = true →
    SameValue (add x y) (rounding.round (x.toReal + y.toReal))
  mul_rounds : ∀ {x y : Fp φ}, x.isFinite = true → y.isFinite = true →
    SameValue (mul x y) (rounding.round (x.toReal * y.toReal))
  div_rounds : ∀ {x y : Fp φ}, x.isFinite = true → y.isFinite = true →
    y.mag ≠ 0 → SameValue (div x y) (rounding.round (x.toReal / y.toReal))
  sqrt_rounds : ∀ {x : Fp φ}, x.isFinite = true → 0 ≤ x.key →
    SameValue (sqrt x) (rounding.round (Real.sqrt x.toReal))
  ofInt_rounds : ∀ n : ℤ, SameValue (ofInt n) (rounding.round n)
  mul_sign : ∀ {x y : Fp φ}, x.isFinite = true → y.isFinite = true →
    (mul x y).sign = (x.sign ^^ y.sign)
  div_sign : ∀ {x y : Fp φ}, x.isFinite = true → y.isFinite = true →
    y.mag ≠ 0 → (div x y).sign = (x.sign ^^ y.sign)
  mul_inf : ∀ {x y : Fp φ}, x.isInf = true → y.isFinite = true → y.mag ≠ 0 →
    mul x y = Fp.inf φ (x.sign ^^ y.sign)
  ofInt_sign : ∀ n : ℤ, (ofInt n).sign = decide (n < 0)

/-- Rounded arithmetic that treats both signs alike. -/
class SymmetricArith (φ : Format) extends RoundedArith φ where
  odd : rounding.Odd

section

variable [RoundedArith φ] {x y z : Fp φ}

/-- The rounding behind the operations. -/
def rounding (φ : Format) [RoundedArith φ] : Rounding φ := RoundedArith.rounding

theorem add_rounds (xFinite : x.isFinite = true) (yFinite : y.isFinite = true) :
    SameValue (x + y) ((rounding φ).round (x.toReal + y.toReal)) :=
  RoundedArith.add_rounds xFinite yFinite

theorem mul_rounds (xFinite : x.isFinite = true) (yFinite : y.isFinite = true) :
    SameValue (x * y) ((rounding φ).round (x.toReal * y.toReal)) :=
  RoundedArith.mul_rounds xFinite yFinite

theorem div_rounds (xFinite : x.isFinite = true) (yFinite : y.isFinite = true)
    (nonzero : y.mag ≠ 0) :
    SameValue (x / y) ((rounding φ).round (x.toReal / y.toReal)) :=
  RoundedArith.div_rounds xFinite yFinite nonzero

theorem sqrt_rounds (xFinite : x.isFinite = true) (nonneg : 0 ≤ x.key) :
    SameValue (sqrt x) ((rounding φ).round (Real.sqrt x.toReal)) :=
  RoundedArith.sqrt_rounds xFinite nonneg

theorem sub_rounds (xFinite : x.isFinite = true) (yFinite : y.isFinite = true) :
    SameValue (x - y) ((rounding φ).round (x.toReal - y.toReal)) := by
  have := RoundedArith.add_rounds (x := x) (y := y.neg) xFinite (by simpa)
  rw [Fp.toReal_neg, ← sub_eq_add_neg] at this
  exact this

theorem ofInt_rounds (n : ℤ) :
    SameValue (ofInt φ n) ((rounding φ).round n) :=
  RoundedArith.ofInt_rounds n

theorem mul_sign (xFinite : x.isFinite = true) (yFinite : y.isFinite = true) :
    (x * y).sign = (x.sign ^^ y.sign) :=
  RoundedArith.mul_sign xFinite yFinite

theorem div_sign (xFinite : x.isFinite = true) (yFinite : y.isFinite = true)
    (nonzero : y.mag ≠ 0) : (x / y).sign = (x.sign ^^ y.sign) :=
  RoundedArith.div_sign xFinite yFinite nonzero

theorem mul_inf (xInf : x.isInf = true) (yFinite : y.isFinite = true)
    (nonzero : y.mag ≠ 0) : x * y = Fp.inf φ (x.sign ^^ y.sign) :=
  RoundedArith.mul_inf xInf yFinite nonzero

/-- A result that the format represents is computed exactly. -/
theorem SameValue.of_exact {r : ℝ} {x : Fp φ}
    (rounds : SameValue x ((rounding φ).round r))
    (finite : z.isFinite = true) (value : r = z.toReal) : SameValue x z := by
  subst value
  exact ⟨rounds.left, Fp.not_isNaN_of_isFinite finite,
    rounds.key.trans ((rounding φ).exact finite)⟩

end

end Ieee

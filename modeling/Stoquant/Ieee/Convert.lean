import Stoquant.Ieee.Exact
import Stoquant.Ieee.Nearest

/-!
# Conversion between formats

A conversion rounds the value of a datum to the other format.  When the other format has a
datum of that value nothing is lost, so a conversion to a wider format and back returns the
datum.
-/

namespace Ieee

variable {φ ψ : Format}

/-- Conversion to a format, rounded to nearest. -/
def convert (ψ : Format) (x : Fp φ) : Fp ψ :=
  if x.isNaN then nan ψ
  else if x.isInf then Fp.inf ψ x.sign
  else roundFrac ψ x.sign (units φ x.mag * 2 ^ ψ.unitExp) (2 ^ φ.unitExp)

theorem convert_finite {x : Fp φ} (finite : x.isFinite = true) :
    convert ψ x = roundFrac ψ x.sign (units φ x.mag * 2 ^ ψ.unitExp) (2 ^ φ.unitExp) := by
  have notNan := Fp.not_isNaN_of_isFinite finite
  have notInf := Nearest.isInf_eq_false finite
  unfold convert
  rw [notNan, notInf]
  rfl

/-- A datum that is not finite has no finite image. -/
theorem convert_not_finite {x : Fp φ} (infinite : x.isFinite = false) :
    (convert ψ x).isFinite = false := by
  unfold convert
  by_cases notNumber : x.isNaN = true
  · rw [if_pos notNumber]
    apply decide_eq_false
    apply Nat.not_lt.mpr
    exact Nat.le_sub_one_of_lt ψ.infMag_lt
  · rw [if_neg notNumber]
    have infinity : x.isInf = true := by
      simp only [Fp.isFinite, Fp.isNaN, Fp.isInf, decide_eq_true_eq,
        decide_eq_false_iff_not] at *
      omega
    rw [if_pos infinity]
    apply decide_eq_false
    apply Nat.not_lt.mpr
    exact (Nat.min_self ψ.infMag).ge

theorem convert_exact {x : Fp φ} {k : ℕ} (finite : x.isFinite = true)
    (value : units φ x.mag * 2 ^ ψ.unitExp = k * 2 ^ φ.unitExp) (rep : Representable ψ k) :
    (convert ψ x).sign = x.sign ∧ (convert ψ x).isFinite = true ∧
      units ψ (convert ψ x).mag = k := by
  obtain ⟨m, small, rfl⟩ := rep
  have unitPos : 0 < 2 ^ φ.unitExp := by positivity
  have exact_ : roundMag ψ (fracCut (units φ x.mag * 2 ^ ψ.unitExp) (2 ^ φ.unitExp)) = m := by
    rw [fracCut_eq unitPos, value]
    push_cast
    rw [mul_div_cancel_right₀ _ (by positivity)]
    exact roundMag_exact small.le
  have mag : (Fp.ofMag ψ x.sign m).mag = m := Nat.min_eq_left small.le
  rw [convert_finite finite, roundFrac, exact_]
  refine ⟨rfl, Fp.isFinite_iff.mpr ?_, ?_⟩
  · rw [mag]
    exact small
  · rw [mag]

/-- Every number of the one format is a number of the other. -/
structure Wider (φ ψ : Format) : Prop where
  manBits : φ.manBits ≤ ψ.manBits
  unitExp : φ.unitExp ≤ ψ.unitExp
  range : units φ φ.infMag * 2 ^ (ψ.unitExp - φ.unitExp) ≤ units ψ ψ.infMag

theorem Wider.one_eq (wider : Wider φ ψ) : one ψ = one φ * 2 ^ (ψ.unitExp - φ.unitExp) := by
  rw [one, one, ← pow_add, Nat.add_sub_cancel' wider.unitExp]

theorem Wider.div_one (wider : Wider φ ψ) (n : ℕ) :
    n * 2 ^ (ψ.unitExp - φ.unitExp) / one ψ = n / one φ := by
  rw [wider.one_eq]
  exact Nat.mul_div_mul_right _ _ (Nat.two_pow_pos _)

theorem Wider.lt_range (wider : Wider φ ψ) {n : ℕ} (inside : n < units φ φ.infMag) :
    n * 2 ^ (ψ.unitExp - φ.unitExp) < units ψ ψ.infMag := by
  apply lt_of_lt_of_le _ wider.range
  exact Nat.mul_lt_mul_of_pos_right inside (Nat.two_pow_pos _)

theorem Representable.widen {n : ℕ} (wider : Wider φ ψ) (rep : Representable φ n) :
    Representable ψ (n * 2 ^ (ψ.unitExp - φ.unitExp)) := by
  obtain ⟨s, e, value, short⟩ := rep.short
  have longer : 2 ^ (φ.manBits + 1) ≤ 2 ^ (ψ.manBits + 1) :=
    Nat.pow_le_pow_right Nat.two_pos (Nat.succ_le_succ wider.manBits)
  have split : n * 2 ^ (ψ.unitExp - φ.unitExp) = s * 2 ^ (e + (ψ.unitExp - φ.unitExp)) := by
    rw [value, pow_add, mul_assoc]
  exact .of_short split (short.trans_le longer) (wider.lt_range rep.lt)

section

variable (wider : Wider φ ψ) {x : Fp φ}

include wider

/-- Nothing is lost in a wider format. -/
theorem convert_widen (finite : x.isFinite = true) :
    (convert ψ x).sign = x.sign ∧ (convert ψ x).isFinite = true ∧
      units ψ (convert ψ x).mag = units φ x.mag * 2 ^ (ψ.unitExp - φ.unitExp) := by
  apply convert_exact finite
  · rw [mul_assoc, ← pow_add, Nat.sub_add_cancel wider.unitExp]
  · exact (Representable.of_mag finite).widen wider

theorem HasUnits.convert {n : ℕ} (has : HasUnits x n) :
    HasUnits (convert ψ x) (n * 2 ^ (ψ.unitExp - φ.unitExp)) := by
  obtain ⟨sign, finite, value⟩ := convert_widen wider has.finite
  rw [has.units_mag] at value
  refine ⟨finite, ?_⟩
  have units := has.toUnits
  have mag := has.units_mag
  unfold Fp.toUnits at units ⊢
  rw [sign, value]
  cases negative : x.sign with
  | false => rfl
  | true =>
      rw [negative, if_pos rfl, mag] at units
      have zero : n = 0 := by omega
      rw [zero]
      simp

theorem convert_toRat (finite : x.isFinite = true) : (Ieee.convert ψ x).toRat = x.toRat := by
  obtain ⟨sign, -, value⟩ := convert_widen wider finite
  have powPos : (0 : ℚ) < 2 ^ (ψ.unitExp - φ.unitExp) := by positivity
  have toUnits : ((Ieee.convert ψ x).toUnits : ℚ) =
      x.toUnits * 2 ^ (ψ.unitExp - φ.unitExp) := by
    unfold Fp.toUnits
    rw [sign, value]
    cases x.sign <;> simp
  have denominators : ((2 : ℚ) ^ ψ.unitExp) = 2 ^ φ.unitExp * 2 ^ (ψ.unitExp - φ.unitExp) := by
    rw [← pow_add, Nat.add_sub_cancel' wider.unitExp]
  unfold Fp.toRat
  rw [toUnits, denominators, mul_div_mul_right _ _ powPos.ne']

/-- The way back returns the datum. -/
theorem convert_convert (finite : x.isFinite = true) :
    Ieee.convert φ (Ieee.convert ψ x) = x := by
  obtain ⟨sign, widened, value⟩ := convert_widen wider finite
  have back : units ψ (Ieee.convert ψ x).mag * 2 ^ φ.unitExp =
      units φ x.mag * 2 ^ ψ.unitExp := by
    rw [value, mul_assoc, ← pow_add, Nat.sub_add_cancel wider.unitExp]
  obtain ⟨signBack, -, valueBack⟩ := convert_exact widened back (.of_mag finite)
  have mag : (Ieee.convert φ (Ieee.convert ψ x)).mag = x.mag := units_inj.mp valueBack
  apply Fp.eq_of_key_of_sign
  · unfold Fp.key
    rw [signBack, sign, mag]
  · rw [signBack, sign]

/-- The sign of a value is kept. -/
theorem convert_lt_zero (finite : x.isFinite = true) :
    (Ieee.convert ψ x).lt (Fp.zero ψ) = x.lt (Fp.zero φ) := by
  obtain ⟨sign, widened, value⟩ := convert_widen wider finite
  have zero : (Ieee.convert ψ x).mag = 0 ↔ x.mag = 0 := by
    have powPos : 0 < 2 ^ (ψ.unitExp - φ.unitExp) := by positivity
    rw [← units_eq_zero_iff (φ := ψ), value, Nat.mul_eq_zero, units_eq_zero_iff]
    exact or_iff_left powPos.ne'
  unfold Fp.lt
  rw [Fp.not_isNaN_of_isFinite widened, Fp.not_isNaN_of_isFinite finite,
    Fp.not_isNaN_of_isFinite Fp.isFinite_zero, Fp.not_isNaN_of_isFinite Fp.isFinite_zero,
    Fp.key_zero, Fp.key_zero]
  unfold Fp.key
  rw [sign]
  cases x.sign with
  | false =>
      simp only [Bool.false_eq_true, if_false]
      apply congrArg
      apply decide_eq_decide.mpr
      omega
  | true =>
      simp only [if_true]
      apply congrArg
      apply decide_eq_decide.mpr
      omega

end

theorem wider_binary32_binary64 : Wider Format.binary32 Format.binary64 :=
  ⟨by decide, by decide, by decide +kernel⟩

end Ieee

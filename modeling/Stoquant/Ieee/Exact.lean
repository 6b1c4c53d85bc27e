import Stoquant.Ieee.Rounding

/-!
# Exact operations

A natural number of units is representable when at most one significand of
bits of it is in use.  Clearing or keeping low bits and scaling by a power of
two preserve this, so the operations that split a value into its integer part
and its fraction are exact under every rounding.
-/

namespace Ieee

variable {φ : Format}

/-- Some finite magnitude of the format has `n` units. -/
def Representable (φ : Format) (n : ℕ) : Prop :=
  ∃ m, m < φ.infMag ∧ units φ m = n

/-- One in units of the least subnormal. -/
abbrev one (φ : Format) : ℕ := 2 ^ φ.unitExp

theorem significand_lt (m : ℕ) : significand φ m < 2 ^ (φ.manBits + 1) := by
  have manPos : 0 < 2 ^ φ.manBits := by positivity
  have modLt := Nat.mod_lt m manPos
  unfold significand
  rw [pow_succ]
  split <;> omega

theorem exists_mag (s e : ℕ) (short : s < 2 ^ (φ.manBits + 1)) :
    ∃ m, units φ m = s * 2 ^ e := by
  have manPos : 0 < 2 ^ φ.manBits := by positivity
  induction e generalizing s with
  | zero =>
      refine ⟨s, ?_⟩
      unfold units significand exponent
      by_cases subnormal : s < 2 ^ φ.manBits
      · simp [subnormal, Nat.div_eq_of_lt subnormal]
      · have quotient : s / 2 ^ φ.manBits = 1 := by
          rw [pow_succ] at short
          exact Nat.div_eq_of_lt_le (by omega) (by omega)
        have split := Nat.div_add_mod s (2 ^ φ.manBits)
        rw [quotient, Nat.mul_one] at split
        rw [if_neg subnormal, split, quotient]
  | succ e ih =>
      by_cases subnormal : s < 2 ^ φ.manBits
      · obtain ⟨m, value⟩ := ih (2 * s) (by rw [pow_succ]; omega)
        refine ⟨m, ?_⟩
        rw [value, pow_succ]
        ring
      · refine ⟨(e + 1) * 2 ^ φ.manBits + s, ?_⟩
        have quotient : s / 2 ^ φ.manBits = 1 := by
          rw [pow_succ] at short
          exact Nat.div_eq_of_lt_le (by omega) (by omega)
        have split := Nat.div_add_mod s (2 ^ φ.manBits)
        rw [quotient, Nat.mul_one] at split
        have div : ((e + 1) * 2 ^ φ.manBits + s) / 2 ^ φ.manBits = e + 1 + 1 := by
          rw [Nat.add_comm, Nat.add_mul_div_right _ _ manPos, quotient]
          omega
        have mod : ((e + 1) * 2 ^ φ.manBits + s) % 2 ^ φ.manBits =
            s % 2 ^ φ.manBits := by
          rw [Nat.add_comm, Nat.add_mul_mod_self_right]
        have large : ¬ (e + 1) * 2 ^ φ.manBits + s < 2 ^ φ.manBits := by
          omega
        unfold units significand exponent
        rw [if_neg large, div, mod, split]
        rfl

theorem Representable.of_short {n s e : ℕ} (value : n = s * 2 ^ e)
    (short : s < 2 ^ (φ.manBits + 1)) (bound : n < units φ φ.infMag) :
    Representable φ n := by
  obtain ⟨m, units_eq⟩ := exists_mag s e short
  refine ⟨m, ?_, by rw [units_eq, value]⟩
  rw [value, ← units_eq] at bound
  exact units_lt_iff.mp bound

theorem significand_clear (m : ℕ) {k : ℕ} (le : k ≤ φ.manBits) :
    significand φ (m / 2 ^ k * 2 ^ k) = significand φ m / 2 ^ k * 2 ^ k ∧
      exponent φ (m / 2 ^ k * 2 ^ k) = exponent φ m := by
  have kPos : 0 < 2 ^ k := by positivity
  have split : 2 ^ φ.manBits = 2 ^ (φ.manBits - k) * 2 ^ k := by
    rw [← pow_add]
    congr 1
    omega
  have restPos : 0 < 2 ^ (φ.manBits - k) := by positivity
  have div : m / 2 ^ k * 2 ^ k / 2 ^ φ.manBits = m / 2 ^ φ.manBits := by
    rw [split, Nat.mul_div_mul_right _ _ kPos, Nat.div_div_eq_div_mul,
      Nat.mul_comm (2 ^ k)]
  have mod : m / 2 ^ k * 2 ^ k % 2 ^ φ.manBits =
      m % 2 ^ φ.manBits / 2 ^ k * 2 ^ k := by
    rw [split, Nat.mul_mod_mul_right, Nat.mul_comm (2 ^ (φ.manBits - k)) (2 ^ k),
      Nat.mod_mul_right_div_self]
  refine ⟨?_, by unfold exponent; rw [div]⟩
  unfold significand
  rw [mod]
  by_cases subnormal : m < 2 ^ φ.manBits
  · have clear : m / 2 ^ k * 2 ^ k < 2 ^ φ.manBits :=
      lt_of_le_of_lt (Nat.div_mul_le_self _ _) subnormal
    rw [if_pos subnormal, if_pos clear]
  · have clear : ¬ m / 2 ^ k * 2 ^ k < 2 ^ φ.manBits := by
      rw [split, Nat.mul_lt_mul_right kPos, Nat.div_lt_iff_lt_mul kPos, ← split]
      exact subnormal
    rw [if_neg subnormal, if_neg clear, split, Nat.add_comm, Nat.add_comm _ (m % _),
      Nat.add_mul_div_right _ _ kPos, Nat.add_mul]

theorem units_integerMag (m : ℕ) :
    units φ (Fp.integerMag φ m) = units φ m / one φ * one φ := by
  unfold Fp.integerMag
  dsimp only
  by_cases integral : φ.unitExp ≤ exponent φ m
  · have noFraction : φ.unitExp - exponent φ m = 0 := by omega
    have divides : one φ ∣ units φ m :=
      Dvd.dvd.mul_left (pow_dvd_pow 2 integral) _
    rw [noFraction, if_pos (Nat.zero_le _), Nat.div_mul_cancel divides]
    simp
  have oneEq : one φ = 2 ^ (φ.unitExp - exponent φ m) * 2 ^ exponent φ m := by
    rw [← pow_add, Nat.sub_add_cancel (Nat.le_of_not_le integral)]
  set k := φ.unitExp - exponent φ m
  have quotient : units φ m / one φ = significand φ m / 2 ^ k := by
    rw [oneEq]
    exact Nat.mul_div_mul_right _ _ (by positivity)
  rw [quotient, oneEq]
  split
  · rename_i le
    obtain ⟨sig, exp⟩ := significand_clear (φ := φ) m le
    unfold units
    rw [sig, exp, mul_assoc]
  · rename_i large
    have : significand φ m < 2 ^ k :=
      lt_of_lt_of_le (significand_lt m) (Nat.pow_le_pow_right (by norm_num) (by omega))
    rw [Nat.div_eq_of_lt this]
    simp

namespace Representable

variable {n : ℕ}

theorem lt (rep : Representable φ n) : n < units φ φ.infMag := by
  obtain ⟨m, small, rfl⟩ := rep
  exact units_lt_iff.mpr small

theorem short (rep : Representable φ n) :
    ∃ s e, n = s * 2 ^ e ∧ s < 2 ^ (φ.manBits + 1) := by
  obtain ⟨m, -, rfl⟩ := rep
  exact ⟨significand φ m, exponent φ m, rfl, significand_lt m⟩

theorem of_mag {x : Fp φ} (finite : x.isFinite = true) :
    Representable φ (units φ x.mag) :=
  ⟨x.mag, Fp.isFinite_iff.mp finite, rfl⟩

/-- Clearing the low bits keeps a number representable. -/
theorem div_mul_pow (rep : Representable φ n) (k : ℕ) :
    Representable φ (n / 2 ^ k * 2 ^ k) := by
  have bound := lt_of_le_of_lt (Nat.div_mul_le_self n (2 ^ k)) rep.lt
  obtain ⟨s, e, rfl, short⟩ := rep.short
  by_cases le : k ≤ e
  · have : s * 2 ^ e / 2 ^ k * 2 ^ k = s * 2 ^ e := by
      apply Nat.div_mul_cancel
      exact Dvd.dvd.mul_left (pow_dvd_pow 2 le) s
    rw [this] at bound ⊢
    exact of_short rfl short bound
  · have split : 2 ^ k = 2 ^ (k - e) * 2 ^ e := by
      rw [← pow_add]
      congr 1
      omega
    have value : s * 2 ^ e / 2 ^ k = s / 2 ^ (k - e) := by
      rw [split]
      exact Nat.mul_div_mul_right _ _ (by positivity)
    rw [value] at bound ⊢
    exact of_short rfl (lt_of_le_of_lt (Nat.div_le_self _ _) short) bound

theorem mod_pow (rep : Representable φ n) (k : ℕ) :
    Representable φ (n % 2 ^ k) := by
  have bound := lt_of_le_of_lt (Nat.mod_le n (2 ^ k)) rep.lt
  obtain ⟨s, e, rfl, short⟩ := rep.short
  by_cases le : k ≤ e
  · have : s * 2 ^ e % 2 ^ k = 0 :=
      Nat.mod_eq_zero_of_dvd (Dvd.dvd.mul_left (pow_dvd_pow 2 le) s)
    rw [this] at bound ⊢
    exact of_short (s := 0) (e := 0) (by simp) (by positivity) bound
  · have split : 2 ^ k = 2 ^ (k - e) * 2 ^ e := by
      rw [← pow_add]
      congr 1
      omega
    have value : s * 2 ^ e % 2 ^ k = s % 2 ^ (k - e) * 2 ^ e := by
      rw [split]
      exact Nat.mul_mod_mul_right _ _ _
    rw [value] at bound ⊢
    exact of_short rfl (lt_of_le_of_lt (Nat.mod_le _ _) short) bound

theorem mul_pow (rep : Representable φ n) (k : ℕ)
    (bound : n * 2 ^ k < units φ φ.infMag) : Representable φ (n * 2 ^ k) := by
  obtain ⟨s, e, rfl, short⟩ := rep.short
  exact of_short (s := s) (e := e + k) (by rw [pow_add, mul_assoc]) short bound

/-- Half of an even representable number is representable. -/
theorem half (rep : Representable φ (n * 2)) : Representable φ n := by
  have bound : n < units φ φ.infMag :=
    lt_of_le_of_lt (Nat.le_mul_of_pos_right n (by norm_num)) rep.lt
  obtain ⟨s, e, value, short⟩ := rep.short
  cases e with
  | zero =>
      have le : n ≤ s := by
        rw [pow_zero, mul_one] at value
        omega
      exact of_short (s := n) (e := 0) (by simp) (lt_of_le_of_lt le short) bound
  | succ e =>
      refine of_short (s := s) (e := e) ?_ short bound
      rw [pow_succ, ← mul_assoc] at value
      exact Nat.mul_right_cancel (by norm_num) value

end Representable

/-- The datum is finite and its value is `n` units. -/
structure HasUnits (x : Fp φ) (n : ℕ) : Prop where
  finite : x.isFinite = true
  toUnits : x.toUnits = n

namespace HasUnits

variable {x y : Fp φ} {n m : ℕ}

theorem toReal (has : HasUnits x n) : x.toReal = (n : ℝ) / one φ := by
  unfold Fp.toReal Fp.toRat
  rw [has.toUnits]
  push_cast
  rfl

theorem toRat (has : HasUnits x n) : x.toRat = (n : ℚ) / one φ := by
  unfold Fp.toRat
  rw [has.toUnits]
  push_cast
  rfl

theorem units_mag (has : HasUnits x n) : units φ x.mag = n := by
  have value := has.toUnits
  unfold Fp.toUnits at value
  split at value <;> omega

theorem representable (has : HasUnits x n) : Representable φ n := by
  rw [← has.units_mag]
  exact .of_mag has.finite

theorem key_nonneg (has : HasUnits x n) : 0 ≤ x.key := by
  rw [← Fp.key_zero (φ := φ), Fp.key_le_iff, has.toUnits]
  simp [Fp.toUnits]

theorem of_sign (finite : x.isFinite = true) (sign : x.sign = false) :
    HasUnits x (units φ x.mag) :=
  ⟨finite, Fp.toUnits_of_pos sign⟩

theorem of_same (has : HasUnits y n) (same : SameValue x y) : HasUnits x n :=
  ⟨same.isFinite.trans has.finite, (Fp.key_eq_iff.mp same.key).trans has.toUnits⟩

theorem key_le (xHas : HasUnits x n) (yHas : HasUnits y m) :
    x.key ≤ y.key ↔ n ≤ m := by
  rw [Fp.key_le_iff, xHas.toUnits, yHas.toUnits]
  exact Int.ofNat_le

theorem exists_of_representable (rep : Representable φ n) :
    ∃ x : Fp φ, HasUnits x n := by
  obtain ⟨m, small, rfl⟩ := rep
  have mag : (Fp.ofMag φ false m).mag = m := Nat.min_eq_left small.le
  refine ⟨Fp.ofMag φ false m, Fp.isFinite_iff.mpr (by rw [mag]; exact small), ?_⟩
  rw [Fp.toUnits_of_pos rfl, mag]

section

variable [RoundedArith φ]

/-- An operation whose exact result is representable returns it. -/
theorem of_rounds {r : ℝ} (rounds : SameValue x ((rounding φ).round r))
    (rep : Representable φ n) (value : r = (n : ℝ) / one φ) : HasUnits x n := by
  obtain ⟨z, zHas⟩ := exists_of_representable rep
  exact zHas.of_same (rounds.of_exact zHas.finite (value.trans zHas.toReal.symm))

theorem mul_pow_two {c : Fp φ} (has : HasUnits x n) (k : ℕ)
    (scale : c.isFinite = true) (value : c.toReal = 2 ^ k)
    (bound : n * 2 ^ k < units φ φ.infMag) : HasUnits (x * c) (n * 2 ^ k) := by
  refine of_rounds (mul_rounds has.finite scale)
    (has.representable.mul_pow k bound) ?_
  rw [has.toReal, value]
  push_cast
  ring

theorem sub (xHas : HasUnits x n) (yHas : HasUnits y m) (le : m ≤ n)
    (rep : Representable φ (n - m)) : HasUnits (x - y) (n - m) := by
  refine of_rounds (sub_rounds xHas.finite yHas.finite) rep ?_
  rw [xHas.toReal, yHas.toReal, Nat.cast_sub le]
  ring

theorem ofInt {k : ℕ} (rep : Representable φ (k * one φ)) :
    HasUnits (ofInt φ k) (k * one φ) := by
  refine of_rounds (ofInt_rounds k) rep ?_
  push_cast
  field_simp

end

theorem trunc (has : HasUnits x n) : x.trunc = (n / one φ : ℕ) := by
  have mag := has.units_mag
  have value := has.toUnits
  unfold Fp.trunc
  rw [if_pos has.finite]
  unfold Fp.toUnits at value
  dsimp only
  rw [mag] at value ⊢
  cases sign : x.sign
  · simp
  · simp only [sign, if_true] at value ⊢
    have : n = 0 := by omega
    simp [this]

theorem floor (has : HasUnits x n) :
    HasUnits x.floor (n / one φ * one φ) := by
  have mag := has.units_mag
  have value := has.toUnits
  have integral := units_integerMag (φ := φ) x.mag
  rw [mag] at integral
  have small : Fp.integerMag φ x.mag < φ.infMag := by
    apply units_lt_iff.mp
    rw [integral]
    exact lt_of_le_of_lt (Nat.div_mul_le_self _ _) has.representable.lt
  -- a negative sign leaves only the zero, which has no fraction
  have noCarry : (x.sign && decide (Fp.integerMag φ x.mag ≠ x.mag)) = false := by
    cases sign : x.sign with
    | false => rfl
    | true =>
        unfold Fp.toUnits at value
        rw [sign, if_pos rfl, mag] at value
        have zero : n = 0 := by omega
        have magZero : x.mag = 0 := units_eq_zero_iff.mp (mag.trans zero)
        have : Fp.integerMag φ x.mag = 0 := by
          apply units_eq_zero_iff.mp
          rw [integral, zero]
          simp
        rw [magZero] at this
        simp [this, magZero]
  have floorMag : (Fp.ofMag φ x.sign (Fp.integerMag φ x.mag)).mag =
      Fp.integerMag φ x.mag := Nat.min_eq_left small.le
  unfold Fp.floor
  rw [if_pos has.finite, noCarry, if_neg Bool.false_ne_true]
  refine ⟨Fp.isFinite_iff.mpr (by rw [floorMag]; exact small), ?_⟩
  unfold Fp.toUnits at value ⊢
  rw [floorMag, integral]
  cases sign : x.sign with
  | false => simp [Fp.ofMag]
  | true =>
      rw [sign, if_pos rfl, mag] at value
      have zero : n = 0 := by omega
      simp [zero]

end HasUnits

end Ieee

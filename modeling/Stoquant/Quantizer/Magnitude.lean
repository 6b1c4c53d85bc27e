import Stoquant.Quantizer.Scale

/-!
# Largest magnitudes

Finite nonnegative floats are ordered as their bit patterns, so the largest
magnitude of a tensor is a maximum of natural numbers, and it tells whether all
values are finite and whether some value is nonzero.
-/

namespace Stoquant

open Ieee

/-- Whether all values are finite. -/
def allFinite (values : ℕ → F32) (count : ℕ) : Bool :=
  (List.range count).all fun i => isfinite (values i)

/-- Whether some value is nonzero. -/
def anyNonzero (values : ℕ → F32) (count : ℕ) : Bool :=
  (List.range count).any fun i => !(values i).eq zeroF

theorem allFinite_iff {values : ℕ → F32} {count : ℕ} :
    allFinite values count = true ↔ ∀ i < count, isfinite (values i) = true := by
  simp [allFinite]

theorem allFinite_succ (values : ℕ → F32) (n : ℕ) :
    allFinite values (n + 1) = (allFinite values n && isfinite (values n)) := by
  simp [allFinite, List.range_succ]

/-- The largest magnitude bits among the first values. -/
def maxMag (values : ℕ → F32) : ℕ → ℕ
  | 0 => 0
  | n + 1 => max (maxMag values n) (values n).mag

theorem maxMag_le_iff {values : ℕ → F32} {count bound : ℕ} :
    maxMag values count ≤ bound ↔ ∀ i < count, (values i).mag ≤ bound := by
  induction count with
  | zero => simp [maxMag]
  | succ n ih =>
      rw [maxMag, max_le_iff, ih]
      constructor
      · rintro ⟨before, last⟩ i below
        rcases Nat.lt_succ_iff_lt_or_eq.mp below with below | rfl
        · exact before i below
        · exact last
      · intro each
        exact ⟨fun i below => each i (Nat.lt_succ_of_lt below),
          each n (Nat.lt_succ_self n)⟩

theorem le_maxMag {values : ℕ → F32} {count i : ℕ} (below : i < count) :
    (values i).mag ≤ maxMag values count :=
  maxMag_le_iff.mp le_rfl i below

theorem allFinite_iff_maxMag {values : ℕ → F32} {count : ℕ} :
    allFinite values count = true ↔
      maxMag values count < Format.binary32.infMag := by
  have infPos := Format.binary32.infMag_pos
  rw [allFinite_iff, Nat.lt_iff_le_pred infPos, maxMag_le_iff]
  refine forall₂_congr fun i _ => ?_
  rw [isfinite, Fp.isFinite_iff, Nat.lt_iff_le_pred infPos]

theorem eq_zeroF_iff {x : F32} : x.eq zeroF = true ↔ x.mag = 0 := by
  have infPos := Format.binary32.infMag_pos
  have key := Fp.key_natAbs x
  simp only [Fp.eq, Fp.isNaN, zeroF, Fp.mag_zero, Fp.key_zero, Bool.and_eq_true,
    Bool.not_eq_true', decide_eq_false_iff_not, decide_eq_true_eq]
  omega

theorem anyNonzero_iff {values : ℕ → F32} {count : ℕ} :
    anyNonzero values count = true ↔ maxMag values count ≠ 0 := by
  rw [Ne, ← Nat.le_zero, maxMag_le_iff]
  simp [anyNonzero, ← eq_zeroF_iff]

/-- The nonnegative float of given magnitude bits. -/
def magF (m : ℕ) : F32 := Fp.ofMag Format.binary32 false m

theorem mag_magF {m : ℕ} (small : m < Format.binary32.infMag) :
    (magF m).mag = m := Nat.min_eq_left small.le

theorem sign_magF (m : ℕ) : (magF m).sign = false := rfl

theorem isFinite_magF {m : ℕ} (small : m < Format.binary32.infMag) :
    (magF m).isFinite = true := by
  rw [Fp.isFinite_iff, mag_magF small]
  exact small

theorem eq_magF {x : F32} (finite : isfinite x = true) (sign : x.sign = false) :
    x = magF x.mag := by
  ext
  · exact sign
  · exact (mag_magF (Fp.isFinite_iff.mp finite)).symm

theorem fabsf_eq {x : F32} (finite : isfinite x = true) : fabsf x = magF x.mag :=
  eq_magF (x := x.abs) finite rfl

section

variable {m n : ℕ} (mSmall : m < Format.binary32.infMag)
  (nSmall : n < Format.binary32.infMag)

include mSmall nSmall in
theorem magF_lt : (magF m).lt (magF n) = decide (m < n) := by
  have mNan := Fp.not_isNaN_of_isFinite (isFinite_magF mSmall)
  have nNan := Fp.not_isNaN_of_isFinite (isFinite_magF nSmall)
  simp [Fp.lt, mNan, nNan, Fp.key, sign_magF, mag_magF mSmall, mag_magF nSmall]

include mSmall nSmall in
theorem magF_max :
    (if (magF m).lt (magF n) then magF n else magF m) = magF (max m n) := by
  rw [magF_lt mSmall nSmall]
  by_cases below : m < n
  · simp [below, Nat.max_eq_right below.le]
  · simp [below, Nat.max_eq_left (Nat.le_of_not_lt below)]

include mSmall in
theorem magF_eq_zeroF : (magF m).eq zeroF = decide (m = 0) := by
  have := eq_zeroF_iff (x := magF m)
  rw [mag_magF mSmall] at this
  rw [Bool.eq_iff_iff, this, decide_eq_true_iff]

end

/-- The scan of `quantizer.c` finds the largest magnitude of finite values. -/
theorem scanMaxAbs_eq (values : ℕ → F32) (count : ℕ) :
    scanMaxAbs values count =
      if allFinite values count then some (magF (maxMag values count))
      else none := by
  induction count with
  | zero => rfl
  | succ n ih =>
      rw [scanMaxAbs, ih, allFinite_succ]
      by_cases before : allFinite values n = true
      · by_cases last : isfinite (values n) = true
        · have maxSmall := allFinite_iff_maxMag.mp before
          have lastSmall := Fp.isFinite_iff.mp last
          simp [before, last, fabsf_eq last, magF_max maxSmall lastSmall, maxMag]
        · simp [before, last]
      · simp [before]

end Stoquant

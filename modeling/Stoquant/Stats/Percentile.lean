import Stoquant.Stats.Quantile

/-!
# Percentiles by linear interpolation

The percentile of a sample of `n` values stands at position `(n - 1) * q / 100`
of the sorted sample; between two ranks it is their linear interpolation.
-/

namespace Quantile

variable {K : Type} [Field K] [LinearOrder K] [FloorRing K]

/-- The value at a rank, or the largest value past the end. -/
def clamped (sample : List K) (rank : Nat) : K :=
  ranked sample (min rank (sample.length - 1))

/-- The value at a fractional position of the sorted sample. -/
def interpolated (sample : List K) (position : K) : K :=
  let lower := clamped sample ⌊position⌋₊
  let upper := clamped sample (⌊position⌋₊ + 1)
  lower + (upper - lower) * (position - ⌊position⌋₊)

/-- The percentile of a nonempty sample under the method `linear`. -/
def percentile (sample : List K) (percent : K) : K :=
  interpolated sample (((sample.length - 1 : Nat) : K) * (percent / 100))

variable [IsStrictOrderedRing K]

omit [FloorRing K] [IsStrictOrderedRing K] in
theorem clamped_mono {sample : List K} (nonempty : sample ≠ []) {rank later : Nat}
    (order : rank ≤ later) : clamped sample rank ≤ clamped sample later := by
  have positive := List.length_pos_of_ne_nil nonempty
  apply ranked_mono
  · omega
  · omega

omit [FloorRing K] [IsStrictOrderedRing K] in
theorem clamped_mem {sample : List K} (nonempty : sample ≠ []) (rank : Nat) :
    clamped sample rank ∈ sample := by
  have positive := List.length_pos_of_ne_nil nonempty
  exact ranked_mem (by omega)

theorem interpolated_between {sample : List K} (nonempty : sample ≠ []) {position : K}
    (nonnegative : 0 ≤ position) :
    clamped sample ⌊position⌋₊ ≤ interpolated sample position ∧
      interpolated sample position ≤ clamped sample (⌊position⌋₊ + 1) := by
  have step : clamped sample ⌊position⌋₊ ≤ clamped sample (⌊position⌋₊ + 1) :=
    clamped_mono nonempty (Nat.le_succ _)
  have partBelow := Nat.floor_le nonnegative
  have partAbove := Nat.lt_floor_add_one position
  constructor
  · have := mul_nonneg (sub_nonneg.mpr step) (sub_nonneg.mpr partBelow)
    simp only [interpolated]
    linarith
  · have := mul_nonneg (sub_nonneg.mpr step) (sub_nonneg.mpr (sub_left_le_of_le_add
      (by linarith : position ≤ ⌊position⌋₊ + 1)))
    simp only [interpolated]
    linarith

theorem interpolated_mono {sample : List K} (nonempty : sample ≠ []) {position later : K}
    (nonnegative : 0 ≤ position) (order : position ≤ later) :
    interpolated sample position ≤ interpolated sample later := by
  have floors : ⌊position⌋₊ ≤ ⌊later⌋₊ := Nat.floor_mono order
  rcases Nat.eq_or_lt_of_le floors with same | strict
  · -- Both positions interpolate the same two ranks.
    have step : clamped sample ⌊later⌋₊ ≤ clamped sample (⌊later⌋₊ + 1) :=
      clamped_mono nonempty (Nat.le_succ _)
    have grow := mul_le_mul_of_nonneg_left order (sub_nonneg.mpr step)
    simp only [interpolated, same]
    linarith
  · -- A whole rank lies between them.
    have low := (interpolated_between nonempty nonnegative).2
    have high := (interpolated_between nonempty (nonnegative.trans order)).1
    exact low.trans ((clamped_mono nonempty strict).trans high)

theorem percentile_mono {sample : List K} (nonempty : sample ≠ []) {percent more : K}
    (nonnegative : 0 ≤ percent) (order : percent ≤ more) :
    percentile sample percent ≤ percentile sample more := by
  apply interpolated_mono nonempty
  · positivity
  · gcongr

theorem le_percentile {sample : List K} (nonempty : sample ≠ []) {percent low : K}
    (nonnegative : 0 ≤ percent) (bound : ∀ value ∈ sample, low ≤ value) :
    low ≤ percentile sample percent :=
  (bound _ (clamped_mem nonempty _)).trans
    (interpolated_between nonempty (by positivity)).1

theorem percentile_le {sample : List K} (nonempty : sample ≠ []) {percent high : K}
    (nonnegative : 0 ≤ percent) (bound : ∀ value ∈ sample, value ≤ high) :
    percentile sample percent ≤ high :=
  (interpolated_between nonempty (by positivity)).2.trans
    (bound _ (clamped_mem nonempty _))

end Quantile

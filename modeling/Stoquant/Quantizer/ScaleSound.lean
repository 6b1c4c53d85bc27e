import Stoquant.Backends
import Stoquant.Quantizer.ScaleBounds

/-!
# The computed scale is sound

A scale that is computed is at least the largest magnitude, so the clamp of the
encoder never acts and compression never rejects the scale it computed itself.
-/

namespace Stoquant

open Ieee

/-- Some element of an input is not zero. -/
def SomeNonzero (values : ℕ → F32) (count : ℕ) : Prop :=
  ∃ i < count, (values i).toReal ≠ 0

theorem maxMag_ne_zero_iff {values : ℕ → F32} {count : ℕ} :
    maxMag values count ≠ 0 ↔ SomeNonzero values count := by
  rw [← anyNonzero_iff]
  simp [anyNonzero, SomeNonzero, Fp.toReal_eq_zero_iff, ← eq_zeroF_iff]

/-- The encoder's magnitude on the grid before the clamp. -/
def unclampedValue [Arith Format.binary32] (s : ℕ) (scale value : F32) : F32 :=
  fabsf value / scale * ofInt Format.binary32 s

section

variable [RoundedArith Format.binary32] {values : ℕ → F32} {count : ℕ}

/-- What computing the scale of a nonempty input gives. -/
structure ScaleComputed (values : ℕ → F32) (count : ℕ) (status : SqStatus)
    (scale : F32) : Prop where
  nonfinite_iff : status = .errNonfinite ↔ ∃ i < count, (values i).isFinite = false
  overflow_iff : status = .errScaleOverflow ↔
    (∀ i < count, (values i).isFinite = true) ∧
      ((rounding Format.binary32).round
        ((maxAbsF values count).toReal * (rootF values count).toReal)).isFinite = false
  otherwise : status ≠ .errNonfinite → status ≠ .errScaleOverflow → status = .ok
  sum_finite : (∀ i < count, (values i).isFinite = true) → SomeNonzero values count →
    (squareSum values count (maxAbsF values count)).isFinite = true
  failed : status ≠ .ok → scale = zeroF
  finite : status = .ok → scale.isFinite = true
  zero : status = .ok → ¬ SomeNonzero values count → scale = zeroF
  positive : status = .ok → SomeNonzero values count → 0 < scale.toReal
  dominates : status = .ok → ∀ i < count, |(values i).toReal| ≤ scale.toReal
  unclamped : status = .ok → SomeNonzero values count → ∀ i < count, ∀ bitWidth,
    scaledValue (signedLimit bitWidth) scale (values i) =
      unclampedValue (signedLimit bitWidth) scale (values i)

omit [RoundedArith Format.binary32] in
theorem ScaleUsable.of_pos {scale : F32} (finite : scale.isFinite = true)
    (positive : 0 < scale.toReal) : ScaleUsable scale := by
  refine ⟨finite, ?_, fun zero => positive.ne' (Fp.toReal_eq_zero_iff.mpr zero)⟩
  have key := Fp.toReal_pos_iff.mp positive
  cases sign : scale.sign with
  | false => rfl
  | true =>
      rw [Fp.key, sign, if_pos rfl] at key
      omega

/-- A value at most as large as the scale is not clamped. -/
theorem scaledValue_eq_unclamped {s : ℕ} (small : s < 2 ^ 24) {scale value : F32}
    (usable : ScaleUsable scale) (finite : value.isFinite = true)
    (le : |value.toReal| ≤ scale.toReal) :
    scaledValue s scale value = unclampedValue s scale value := by
  have absFinite : (fabsf value).isFinite = true := finite
  have scaleNonneg : 0 ≤ scale.toReal := (abs_nonneg _).trans le
  have ratio : Within 0 1 (fabsf value / scale) := by
    apply Within.of_rounds (div_rounds absFinite usable.finite usable.nonzero)
      isFloat_zero isFloat_one
    · rw [fabsf_toReal]
      exact div_nonneg (abs_nonneg _) scaleNonneg
    · rw [fabsf_toReal]
      exact div_le_one_of_le₀ le scaleNonneg
  have limit := ofInt_hasUnits small
  have limitNonneg : 0 ≤ (ofInt Format.binary32 s).toReal := by
    rw [limit.toReal]
    exact div_nonneg (Nat.cast_nonneg _) one_pos.le
  have product : Within 0 (ofInt Format.binary32 s).toReal (unclampedValue s scale value) := by
    apply Within.of_rounds (mul_rounds ratio.finite limit.finite) isFloat_zero
      (isFloat_toReal limit.finite)
    · exact mul_nonneg ratio.lower limitNonneg
    · exact mul_le_of_le_one_left limitNonneg ratio.upper
  have notAbove : (ofInt Format.binary32 s).lt (unclampedValue s scale value) = false := by
    have key := Fp.toReal_le_iff.mp product.upper
    simp only [Fp.lt, Bool.and_eq_false_iff, decide_eq_false_iff_not]
    exact Or.inr (not_lt.mpr key)
  unfold scaledValue
  dsimp only
  rw [← unclampedValue, notAbove, if_neg Bool.false_ne_true]

/-- The scale of an input whose elements are all zero. -/
theorem tensorScale_zero (finite : allFinite values count = true)
    (zero : maxMag values count = 0) : tensorScale values count = .ok zeroF := by
  rw [tensorScale, scanMaxAbs_eq, if_pos finite, zero]
  rfl

theorem tensorScale_nonfinite (nonfinite : allFinite values count = false) :
    tensorScale values count = .error .errNonfinite := by
  rw [tensorScale, scanMaxAbs_eq, nonfinite]
  rfl

omit [RoundedArith Format.binary32] in
theorem allFinite_eq_false_iff : allFinite values count = false ↔
    ∃ i < count, (values i).isFinite = false := by
  rw [← Bool.not_eq_true, allFinite_iff]
  push Not
  simp [isfinite]

theorem scaleComputed_nonfinite (nonfinite : allFinite values count = false) :
    ScaleComputed values count .errNonfinite zeroF := by
  have someNonfinite := allFinite_eq_false_iff.mp nonfinite
  have notAll : ¬ ∀ i < count, (values i).isFinite = true := by
    obtain ⟨i, below, bad⟩ := someNonfinite
    intro all
    rw [all i below] at bad
    exact Bool.noConfusion bad
  have notOk : SqStatus.errNonfinite ≠ .ok := SqStatus.noConfusion
  exact
    { nonfinite_iff := iff_of_true rfl someNonfinite
      overflow_iff := iff_of_false SqStatus.noConfusion fun overflow => notAll overflow.1
      otherwise := fun finite => absurd rfl finite
      sum_finite := fun all => absurd all notAll
      failed := fun _ => rfl
      finite := fun ok => absurd ok notOk
      zero := fun ok => absurd ok notOk
      positive := fun ok => absurd ok notOk
      dominates := fun ok => absurd ok notOk
      unclamped := fun ok => absurd ok notOk }

theorem scaleComputed_zero (finite : allFinite values count = true)
    (zero : maxMag values count = 0) : ScaleComputed values count .ok zeroF := by
  have all := allFinite_iff.mp finite
  have none : ¬ SomeNonzero values count := fun some => maxMag_ne_zero_iff.mpr some zero
  have notSome : ¬ ∃ i < count, (values i).isFinite = false := by
    rw [← allFinite_eq_false_iff, finite]
    exact Bool.noConfusion
  have noOverflow : ((rounding Format.binary32).round
      ((maxAbsF values count).toReal * (rootF values count).toReal)).isFinite = true := by
    have maxZero : (maxAbsF values count).toReal = 0 := by
      rw [maxAbsF, zero]
      exact Fp.toReal_eq_zero_iff.mpr Fp.mag_zero
    have value : (maxAbsF values count).toReal * (rootF values count).toReal =
        (zeroF).toReal := by
      rw [maxZero, zero_mul]
      exact (Fp.toReal_eq_zero_iff.mpr Fp.mag_zero).symm
    have finiteZero : (zeroF).isFinite = true := Fp.isFinite_zero
    have key := (rounding Format.binary32).exact finiteZero
    rw [value, Fp.isFinite_iff_key, key, ← Fp.isFinite_iff_key]
    exact finiteZero
  exact
    { nonfinite_iff := iff_of_false SqStatus.noConfusion notSome
      overflow_iff := iff_of_false SqStatus.noConfusion fun overflow => by
        rw [noOverflow] at overflow
        exact Bool.noConfusion overflow.2
      otherwise := fun _ _ => rfl
      sum_finite := fun _ some => absurd some none
      failed := fun bad => absurd rfl bad
      finite := fun _ => Fp.isFinite_zero
      zero := fun _ _ => rfl
      positive := fun _ some => absurd some none
      dominates := fun _ i below => by
        have valueZero : (values i).toReal = 0 := by
          by_contra nonzero
          exact none ⟨i, below, nonzero⟩
        rw [valueZero, abs_zero]
        exact (Fp.toReal_eq_zero_iff.mpr Fp.mag_zero).ge
      unclamped := fun _ some => absurd some none }

theorem NonzeroInput.scaleComputed_overflow (input : NonzeroInput values count)
    (fits : count ≤ sizeMax / 4) (overflow : (scaleF values count).isFinite = false) :
    ScaleComputed values count .errScaleOverflow zeroF := by
  have all := allFinite_iff.mp input.finite
  have notSome : ¬ ∃ i < count, (values i).isFinite = false := by
    rw [← allFinite_eq_false_iff, input.finite]
    exact Bool.noConfusion
  have rounds := input.scale_rounds fits
  have notOk : SqStatus.errScaleOverflow ≠ .ok := SqStatus.noConfusion
  exact
    { nonfinite_iff := iff_of_false SqStatus.noConfusion notSome
      overflow_iff := iff_of_true rfl ⟨all, rounds.isFinite.symm.trans overflow⟩
      otherwise := fun _ bounded => absurd rfl bounded
      sum_finite := fun _ _ => (input.sum_within fits).finite
      failed := fun _ => rfl
      finite := fun ok => absurd ok notOk
      zero := fun ok => absurd ok notOk
      positive := fun ok => absurd ok notOk
      dominates := fun ok => absurd ok notOk
      unclamped := fun ok => absurd ok notOk }

theorem NonzeroInput.scaleComputed_ok (input : NonzeroInput values count)
    (fits : count ≤ sizeMax / 4) (finite : (scaleF values count).isFinite = true) :
    ScaleComputed values count .ok (scaleF values count) := by
  have all := allFinite_iff.mp input.finite
  have notSome : ¬ ∃ i < count, (values i).isFinite = false := by
    rw [← allFinite_eq_false_iff, input.finite]
    exact Bool.noConfusion
  have rounds := input.scale_rounds fits
  have large := input.maxAbs_le_scale fits
  have positive := lt_of_lt_of_le input.maxAbs_pos large
  exact
    { nonfinite_iff := iff_of_false SqStatus.noConfusion notSome
      overflow_iff := iff_of_false SqStatus.noConfusion fun overflow => by
        rw [← rounds.isFinite, finite] at overflow
        exact Bool.noConfusion overflow.2
      otherwise := fun _ _ => rfl
      sum_finite := fun _ _ => (input.sum_within fits).finite
      failed := fun bad => absurd rfl bad
      finite := fun _ => finite
      zero := fun _ none => absurd (maxMag_ne_zero_iff.mp input.nonzero) none
      positive := fun _ _ => positive
      dominates := fun _ i below => (input.magnitude_le below).trans large
      unclamped := fun _ _ i below bitWidth =>
        scaledValue_eq_unclamped (signedLimit_small bitWidth) (.of_pos finite positive)
          (all i below) ((input.magnitude_le below).trans large) }

/-- The scale of a tensor is sound. -/
theorem scaleComputed_tensorScale (fits : count ≤ sizeMax / 4) :
    ScaleComputed values count (scaleOutcome (tensorScale values count)).1
      (scaleOutcome (tensorScale values count)).2 := by
  cases finite : allFinite values count with
  | false =>
      rw [tensorScale_nonfinite finite]
      exact scaleComputed_nonfinite finite
  | true =>
      by_cases zero : maxMag values count = 0
      · rw [tensorScale_zero finite zero]
        exact scaleComputed_zero finite zero
      · have input : NonzeroInput values count := ⟨finite, zero⟩
        rw [input.tensorScale_eq]
        cases bounded : isfinite (scaleF values count) with
        | false => exact input.scaleComputed_overflow fits bounded
        | true => exact input.scaleComputed_ok fits bounded

end

section

variable [RoundedArith Format.binary32]

omit [RoundedArith Format.binary32] in
theorem lt_zeroF_of_pos {scale : F32} (positive : 0 < scale.toReal) : scale.lt zeroF = false := by
  have notBelow : ¬ scale.key < zeroF.key := by
    rw [zeroF, Fp.key_zero]
    exact not_lt.mpr (Fp.toReal_pos_iff.mp positive).le
  simp [Fp.lt, notBelow]

theorem ScaleComputed.encodeStatus_eq {values : ℕ → F32} {count : ℕ} {scale : F32}
    (computed : ScaleComputed values count .ok scale) :
    encodeStatus values count scale = .ok := by
  have finite : allFinite values count = true := by
    rw [← Bool.not_eq_false, allFinite_eq_false_iff, ← computed.nonfinite_iff]
    exact SqStatus.noConfusion
  apply encodeStatus_ok_iff.mpr
  refine ⟨computed.finite rfl, ?_, finite, ?_⟩
  · by_cases some : SomeNonzero values count
    · exact lt_zeroF_of_pos (computed.positive rfl some)
    · rw [computed.zero rfl some]
      rfl
  · by_cases some : SomeNonzero values count
    · have usable : ScaleUsable scale :=
        .of_pos (computed.finite rfl) (computed.positive rfl some)
      have nonzero : scale.eq zeroF = false := by
        rw [← Bool.not_eq_true, eq_zeroF_iff]
        exact usable.nonzero
      rw [anyNonzero_iff.mpr (maxMag_ne_zero_iff.mpr some), nonzero]
      rfl
    · have zero : anyNonzero values count = false := by
        rw [← Bool.not_eq_true, anyNonzero_iff, maxMag_ne_zero_iff]
        exact some
      rw [computed.zero rfl some, zero]
      rfl

/-- A compression that computes its scale never rejects it. -/
theorem tensorRecord_ne_errScale (bitWidth : ℕ) (x : F32Array) (ids : StreamIds)
    (prescribedWords : Ptr Word) :
    resultStatus (tensorRecord bitWidth x ids none prescribedWords) ≠ .errScale := by
  have computed := @scaleComputed_tensorScale _ x.get x.count x.fits
  unfold tensorRecord resolveScale
  cases scaled : tensorScale x.get x.count with
  | error status =>
      rw [scaled] at computed
      intro isErrScale
      have status : status = .errScale := isErrScale
      rw [status] at computed
      exact SqStatus.noConfusion
        (computed.otherwise SqStatus.noConfusion SqStatus.noConfusion)
  | ok scale =>
      rw [scaled] at computed
      have accepted : encodeStatus x.get x.count scale = .ok := computed.encodeStatus_eq
      cases drawn : resolveWords ids prescribedWords with
      | error status =>
          have overflow : status = .errIdOverflow := by
            unfold resolveWords at drawn
            split at drawn
            · cases drawn
            · split at drawn
              · cases drawn
              · cases drawn
                rfl
          rw [overflow]
          exact SqStatus.noConfusion
      | ok words =>
          unfold storeStatus
          dsimp only
          rw [accepted]
          by_cases unsupported : bitWidth ≠ sqQ4Bits ∧ bitWidth ≠ sqQ8Bits
          · rw [if_pos unsupported, if_neg SqStatus.noConfusion]
            exact SqStatus.noConfusion
          · rw [if_neg unsupported, if_pos rfl]
            exact SqStatus.noConfusion

/-- With a sufficient workspace the scale of a nonempty input is rejected exactly
when an element or the scale is not finite; otherwise it is at least every
magnitude, so no backend rejects the scale it computed and no value is clamped. -/
theorem sqComputeScaleWithWorkspace_sound (x : F32Array) (nonempty : x.count ≠ 0)
    (initial : F32) (partials : ℕ → F32) {partialCapacity : ℕ}
    (sufficient : sqScaleWorkspaceElements x.count ≤ partialCapacity) :
    (∃ status scale partials',
      sqComputeScaleWithWorkspace x.values x.count (some initial) (some partials)
          partialCapacity = (status, some scale, partials') ∧
        ScaleComputed x.get x.count status scale) ∧
      ∀ (omp : OmpRuntime) (backend : SqBackend) (workspace : SqCpuCompressWorkspace)
        (bitWidth : ℕ) (ids : StreamIds) (prescribedWords : Ptr Word)
        (buffer : ℕ → Byte), backend ≠ .cuda → Reserved workspace x.count →
        (sqCpuCompress omp backend bitWidth x.values x.count ids none prescribedWords
          workspace (some buffer)).1 ≠ .errScale := by
  constructor
  · obtain ⟨partials', result⟩ := sqComputeScaleWithWorkspace_eq x.get initial
      (some partials) x.count_le fun _ => ⟨rfl, sufficient⟩
    rw [x.values_eq nonempty]
    exact ⟨_, _, partials', result, scaleComputed_tensorScale x.fits⟩
  · intro omp backend workspace bitWidth ids prescribedWords buffer notCuda reserved
    have stages : StagesCorrect omp backend x := by
      cases backend with
      | cpu => exact stagesCorrect_cpu omp x
      | cpuAvx2 => exact stagesCorrect_cpuAvx2 omp x
      | cuda => exact absurd rfl notCuda
    rw [sqCpuCompress_status stages reserved]
    exact tensorRecord_ne_errScale bitWidth x ids prescribedWords

end

theorem sqComputeScaleWithWorkspace_sound_twoBlocks :
    letI := nearestEven Format.binary32
    (∃ status scale partials',
      sqComputeScaleWithWorkspace twoBlocks.values twoBlocks.count (some zeroF)
          (some fun _ => zeroF) 2 = (status, some scale, partials') ∧
        ScaleComputed twoBlocks.get twoBlocks.count status scale) ∧
      (sqCpuCompress threeThreadRuntime .cpuAvx2 4 twoBlocks.values twoBlocks.count
        ⟨7#64, 0#64, 0#64⟩ none none twoBlocksWorkspace (some fun _ => 0#8)).1 ≠
          .errScale := by
  let _ := nearestEven Format.binary32
  have sufficient : sqScaleWorkspaceElements twoBlocks.count ≤ 2 := by decide +kernel
  obtain ⟨computed, accepted⟩ := sqComputeScaleWithWorkspace_sound twoBlocks
    (by decide) zeroF (fun _ => zeroF) sufficient
  exact ⟨computed, accepted threeThreadRuntime .cpuAvx2 twoBlocksWorkspace 4
    ⟨7#64, 0#64, 0#64⟩ none (fun _ => 0#8) (by decide) twoBlocksWorkspace_reserved⟩

end Stoquant

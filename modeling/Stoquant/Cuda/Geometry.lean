import Mathlib.Data.Nat.Size
import Stoquant.Native.Cli
import Stoquant.Par.Group
import Stoquant.Quantizer.Scale

/-!
# Launch geometry and padding

The grids of the CUDA kernels, and the count of blocks padded to a power of two
that the scale kernels, `quantizer.c` and the oracle compute each in its own way.
-/

namespace Stoquant

open Loop Par

/-- `SQ_CUDA_REDUCTION_THREADS`. -/
def sqCudaReductionThreads : ℕ := 256

/-- `work / size + (work % size != 0)`. -/
def ceilDiv (work size : ℕ) : ℕ := work / size + if work % size ≠ 0 then 1 else 0

/-- `sq_cuda_automatic_grid`. -/
def sqCudaAutomaticGrid (work blockSize : ℕ) : ℕ :=
  let blocks := ceilDiv work blockSize
  if blocks < sqCudaMaxGridSize then blocks else sqCudaMaxGridSize

/-- `launch_grid`. -/
def launchGrid (work : ℕ) (blockSize gridSize : ℤ) : ℕ :=
  if blockSize ≤ 0 then 0
  else if gridSize > 0 then gridSize.toNat
  else sqCudaAutomaticGrid work blockSize.toNat

/-- `valid_launch_geometry`. -/
def validLaunchGeometry (blockSize gridSize : ℤ) : Bool :=
  decide (blockSize > 0 ∧ blockSize ≤ sqCudaMaxBlockSize ∧ gridSize ≥ 0 ∧
    gridSize ≤ sqCudaMaxGridSize)

/-- The counts of `sq_cuda_k1_workspace`. -/
structure K1Counts where
  blockCount : ℕ
  paddedCount : ℕ
  deriving DecidableEq, Repr

/-- `set_k1_workspace_geometry`. -/
def setK1WorkspaceGeometry (workspace : Option K1Counts) (count : ℕ) :
    SqStatus × Option K1Counts :=
  let blocks := ceilDiv count sqCudaReductionThreads
  match workspace with
  | none => (.errArgument, none)
  | some workspace =>
      if count = 0 then (.ok, some ⟨0, 0⟩)
      else
        match doubleTo (uint64Max / 2) blocks 1 Nat.one_pos with
        | none => (.errCount, some workspace)
        | some padded =>
            if blocks > sizeMax / 4 ∨ blocks > sizeMax / 4 ∨ padded > sizeMax / 4 then
              (.errCount, some workspace)
            else (.ok, some ⟨blocks, padded⟩)

/-- `value <<= 1`, in 64-bit arithmetic. -/
def doubleWrapping (value : ℕ) : ℕ := value * 2 % 2 ^ 64

/-- The loop `while (value < target) value <<= 1` of `launch_k1`, in 64-bit arithmetic,
absent when it has not ended after some iterations. -/
def doubleUnguarded (target : ℕ) : ℕ → ℕ → Option ℕ
  | 0, _ => none
  | fuel + 1, value =>
      if value < target then doubleUnguarded target fuel (doubleWrapping value)
      else some value

/-- `int.bit_length`. -/
def bitLength (z : ℤ) : ℕ := Nat.size z.natAbs

/-- `padded_count` of `_pairwise_sum_fp32`, for a number of values. -/
def pairwisePaddedCount (count : ℕ) : ℕ := 1 <<< max 0 (bitLength ((count : ℤ) - 1))

/-- `range(0, count, _BLOCK_SIZE)` of `scale_fp32`: one partial sum for each. -/
def oracleBlockStarts (count : ℕ) : List ℕ := strided 0 sqScaleBlockSize count

theorem ceilDiv_eq_blockCount (count : ℕ) :
    ceilDiv count sqCudaReductionThreads = blockCount count := by
  unfold ceilDiv blockCount sqCudaReductionThreads sqScaleBlockSize
  split_ifs <;> rfl

theorem lt_ceilDiv_iff {work size k : ℕ} (pos : 0 < size) :
    k < ceilDiv work size ↔ k * size < work := by
  have recompose := Nat.div_add_mod' work size
  have below := Nat.mod_lt work pos
  unfold ceilDiv
  generalize work / size = whole at *
  constructor
  · intro lt
    by_cases last : k < whole
    · have step := Nat.mul_le_mul_right size (show k + 1 ≤ whole from last)
      rw [Nat.succ_mul] at step
      omega
    · have same : k = whole := by
        split_ifs at lt <;> omega
      subst same
      split_ifs at lt <;> omega
  · intro lt
    by_contra beyond
    by_cases exact : work % size = 0
    · rw [if_neg (not_not.mpr exact)] at beyond
      have step := Nat.mul_le_mul_right size (show whole ≤ k by omega)
      omega
    · rw [if_pos exact] at beyond
      have step := Nat.mul_le_mul_right size (show whole + 1 ≤ k by omega)
      rw [Nat.succ_mul] at step
      omega

theorem length_strided (first : ℕ) {stride bound : ℕ} (pos : 0 < stride) :
    (strided first stride bound).length = ceilDiv (bound - first) stride := by
  fun_induction strided first stride bound with
  | case1 first more ih =>
      apply eq_of_forall_lt_iff
      intro k
      rw [List.length_cons, ih, lt_ceilDiv_iff pos]
      cases k with
      | zero => omega
      | succ k =>
          have inner : k < ceilDiv (bound - (first + stride)) stride ↔
              k * stride < bound - (first + stride) := lt_ceilDiv_iff pos
          rw [Nat.succ_mul]
          omega
  | case2 first stop =>
      have nothing : bound - first = 0 := by omega
      rw [nothing, ceilDiv]
      simp

/-- The bit length of a predecessor is the exponent of the padding. -/
theorem size_pred_eq_clog {n : ℕ} (pos : 0 < n) : Nat.size (n - 1) = Nat.clog 2 n := by
  apply eq_of_forall_ge_iff
  intro k
  rw [Nat.size_le, Nat.clog_le_iff_le_pow (by norm_num)]
  omega

theorem blockCount_pos {count : ℕ} (nonempty : count ≠ 0) : 0 < blockCount count := by
  rw [lt_blockCount_iff]
  omega

theorem blockCount_eq_ceil (count : ℕ) : blockCount count = (count + 255) / 256 := by
  unfold blockCount sqScaleBlockSize
  dsimp only
  split_ifs <;> omega

theorem blockCount_le {count : ℕ} (bound : count ≤ uint64Max) : blockCount count ≤ 2 ^ 56 := by
  rw [blockCount_eq_ceil]
  unfold uint64Max at bound
  omega

theorem pairwisePaddedCount_eq {count : ℕ} (nonempty : count ≠ 0) :
    pairwisePaddedCount (oracleBlockStarts count).length = 2 ^ paddedBits count := by
  have blocks : (oracleBlockStarts count).length = blockCount count := by
    rw [oracleBlockStarts, length_strided 0 (by decide), Nat.sub_zero]
    exact ceilDiv_eq_blockCount count
  have pos := blockCount_pos nonempty
  have pred : ((blockCount count : ℤ) - 1).natAbs = blockCount count - 1 := by omega
  rw [blocks, pairwisePaddedCount, bitLength, pred, size_pred_eq_clog pos, Nat.zero_max,
    Nat.one_shiftLeft, paddedBits]

section

variable {target : ℕ} (small : target ≤ 2 ^ 63)

include small

/-- Below a target of 63 bits no doubling of the loop wraps. -/
theorem doubleWrapping_pow {j : ℕ} (below : j ≤ Nat.clog 2 target) :
    doubleWrapping^[j] 1 = 2 ^ j := by
  induction j with
  | zero => rfl
  | succ j ih =>
      have before : 2 ^ j < target :=
        (Nat.lt_clog_iff_pow_lt (by norm_num)).mp (show j < Nat.clog 2 target from below)
      rw [Function.iterate_succ_apply', ih (Nat.le_of_succ_le below), doubleWrapping, ← pow_succ]
      apply Nat.mod_eq_of_lt
      rw [pow_succ]
      omega

theorem doubleUnguarded_pow {fuel j : ℕ} (below : j ≤ Nat.clog 2 target)
    (enough : Nat.clog 2 target < j + fuel) :
    doubleUnguarded target fuel (2 ^ j) = some (2 ^ Nat.clog 2 target) := by
  induction fuel generalizing j with
  | zero => omega
  | succ fuel ih =>
      by_cases more : 2 ^ j < target
      · have next : j < Nat.clog 2 target := (Nat.lt_clog_iff_pow_lt (by norm_num)).mpr more
        have doubled : doubleWrapping (2 ^ j) = 2 ^ (j + 1) := by
          have twice := doubleWrapping_pow small next
          rwa [Function.iterate_succ_apply', doubleWrapping_pow small below] at twice
        rw [doubleUnguarded, if_pos more, doubled]
        apply ih next
        omega
      · have last : j = Nat.clog 2 target := by
          have reached := mt (Nat.lt_clog_iff_pow_lt (b := 2) (by norm_num)).mp more
          omega
        rw [doubleUnguarded, if_neg more, ← last]

end

theorem setK1WorkspaceGeometry_eq {count : ℕ} (nonempty : count ≠ 0)
    (bound : count ≤ uint64Max) (workspace : K1Counts) :
    setK1WorkspaceGeometry (some workspace) count =
      (.ok, some ⟨blockCount count, 2 ^ paddedBits count⟩) := by
  have blocks := blockCount_le bound
  have within : blockCount count ≤ uint64Max / 2 + 1 := by
    unfold uint64Max
    omega
  have padded : 2 ^ paddedBits count ≤ 2 ^ 56 := by
    apply Nat.pow_le_pow_right (by norm_num)
    rwa [paddedBits, Nat.clog_le_iff_le_pow (by norm_num)]
  unfold setK1WorkspaceGeometry
  dsimp only
  rw [if_neg nonempty, ceilDiv_eq_blockCount, doubleTo_one within, ← paddedBits]
  dsimp only
  rw [if_neg (by unfold sizeMax; omega)]

/-- The four computations of the padded count agree: each gives the least power of two
that is at least the number of blocks, no doubling wraps and no guard fires. -/
theorem paddedCount_agree {count : ℕ} (positive : 1 ≤ count) (bound : count ≤ uint64Max) :
    ∃ k,
      IsLeast { p : ℕ | (∃ j, p = 2 ^ j) ∧ (count + 255) / 256 ≤ p } (2 ^ k) ∧
      (doubleTo (sizeMax / 2) (blockCount count) 1 Nat.one_pos = some (2 ^ k) ∧
        sqScaleWorkspaceElements count = 2 ^ k ∧ 2 ^ k ≠ sizeMax) ∧
      (doubleTo (uint64Max / 2) (ceilDiv count sqCudaReductionThreads) 1 Nat.one_pos =
          some (2 ^ k) ∧
        ∀ workspace, setK1WorkspaceGeometry (some workspace) count =
          (.ok, some ⟨(count + 255) / 256, 2 ^ k⟩)) ∧
      ((∀ j ≤ k, doubleWrapping^[j] 1 = 2 ^ j ∧
          (2 ^ j < ceilDiv count sqCudaReductionThreads ↔ j < k)) ∧
        ∀ fuel > k, doubleUnguarded (ceilDiv count sqCudaReductionThreads) fuel 1 =
          some (2 ^ k)) ∧
      pairwisePaddedCount (oracleBlockStarts count).length = 2 ^ k := by
  have nonempty : count ≠ 0 := by omega
  have same : uint64Max = sizeMax := rfl
  have blocks := blockCount_le bound
  have small : blockCount count ≤ 2 ^ 63 := by omega
  have within : blockCount count ≤ sizeMax / 2 + 1 := by
    unfold sizeMax
    omega
  have elements := sqScaleWorkspaceElements_eq nonempty (same ▸ bound)
  have padded := sqScaleWorkspaceElements_le (same ▸ bound)
  rw [elements] at padded
  refine ⟨paddedBits count, ⟨⟨⟨_, rfl⟩, ?_⟩, ?_⟩, ⟨doubleTo_one within, elements, ?_⟩,
    ⟨?_, ?_⟩, ⟨?_, ?_⟩, pairwisePaddedCount_eq nonempty⟩
  · rw [← blockCount_eq_ceil]
    exact Nat.le_pow_clog (by norm_num) _
  · rintro _ ⟨⟨j, rfl⟩, enough⟩
    rw [← blockCount_eq_ceil] at enough
    apply Nat.pow_le_pow_right (by norm_num)
    rwa [paddedBits, Nat.clog_le_iff_le_pow (by norm_num)]
  · unfold sizeMax
    omega
  · rw [ceilDiv_eq_blockCount]
    exact doubleTo_one within
  · intro workspace
    rw [setK1WorkspaceGeometry_eq nonempty bound, blockCount_eq_ceil]
  · intro j below
    refine ⟨doubleWrapping_pow small below, ?_⟩
    rw [ceilDiv_eq_blockCount, paddedBits, Nat.lt_clog_iff_pow_lt (by norm_num)]
  · intro fuel enough
    rw [ceilDiv_eq_blockCount]
    apply doubleUnguarded_pow small (Nat.zero_le _)
    rw [Nat.zero_add]
    exact enough

theorem paddedCount_agree_max :
    (∃ k, IsLeast { p : ℕ | (∃ j, p = 2 ^ j) ∧ (uint64Max + 255) / 256 ≤ p } (2 ^ k)) := by
  obtain ⟨k, least, -⟩ := paddedCount_agree (show 1 ≤ uint64Max by decide) le_rfl
  exact ⟨k, least⟩

end Stoquant

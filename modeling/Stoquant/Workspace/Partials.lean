import Stoquant.CpuCompress
import Stoquant.Par.Embed

/-!
# Accesses to the partial sums

The work of `sq_compute_scale_with_workspace` and of its AVX2 counterpart on the
buffer `scale_partials`, every load and every store written out, and the indices
it stays within.
-/

namespace Stoquant

open Ieee Loop Par

section

variable [Arith Format.binary32]

/-- `partials[i] = partials[left] + partials[right]` on each level of a tree. -/
def addLevels (left right : ℕ → ℕ → ℕ) (levels : List ℕ) : ArrayTask F32 Empty :=
  .forEach levels fun stride =>
    .forEach (List.range stride) fun i =>
      .read (left stride i) fun a =>
        .read (right stride i) fun b => .write i (a + b) .done

/-- `memset`, the block sums, the tree over them and the load of `partials[0]`. -/
def partialsTask (paddedCount : ℕ) (sums : ArrayTask F32 Empty)
    (left right : ℕ → ℕ → ℕ) : ArrayTask F32 Empty :=
  .seq (.storeRun 0 paddedCount fun _ => zeroF)
    (.seq sums
      (.seq (addLevels left right (halvings (paddedCount / 2)))
        (.read 0 fun _ => .done)))

/-- The loads and stores of `sq_compute_scale_with_workspace` in `partials`: none when
the input is empty, has a value that is not finite or is zero. -/
def scalarPartials (values : ℕ → F32) (count : ℕ) : ArrayTask F32 Empty :=
  if count = 0 then .done
  else
    match scanMaxAbs values count with
    | none => .done
    | some maxAbs =>
        if maxAbs.eq zeroF then .done
        else
          partialsTask (sqScaleWorkspaceElements count)
            (.storeRun 0 (blockCount count) fun i =>
              reduceBlock values count (i * sqScaleBlockSize) maxAbs)
            (fun _ i => 2 * i) fun _ i => 2 * i + 1

/-- The loads and stores of `sq_avx2_compute_scale_with_workspace`. -/
def avx2Partials (scan sums : OmpRegion) (values : ℕ → F32) (count : ℕ) :
    ArrayTask F32 Empty :=
  if count = 0 then .done
  else
    let maxBits := maxMagnitudeBits scan values count
    if maxBits ≥ nonfiniteBits then .done
    else if maxBits = 0#32 then .done
    else
      partialsTask (sqScaleWorkspaceElements count)
        (blockSumsRegion values count (ofF32Bits maxBits) (fun i => reverseBits i 8)
          (countPaddedBits (sqScaleWorkspaceElements count) 0) sums.team)
        (fun _ j => j) fun half j => half + j

/-- The loads and stores of `cpu_compute_scale`. -/
def scaleAccesses (omp : OmpRuntime) (backend : SqBackend) (values : ℕ → F32)
    (count : ℕ) : ArrayTask F32 Empty :=
  match backend with
  | .cpu => scalarPartials values count
  | _ => avx2Partials omp.scaleScan omp.blockSums values count

end

section

variable [Arith Format.binary32]

theorem addLevels_within {left right : ℕ → ℕ → ℕ} {levels : List ℕ} {size : ℕ}
    (inside : ∀ stride ∈ levels, ∀ i < stride,
      left stride i < size ∧ right stride i < size ∧ i < size) :
    (addLevels left right levels).Within ∅ { a | a < size } := by
  apply Task.within_forEach
  intro stride level
  apply Task.within_forEach
  intro i below
  obtain ⟨leftInside, rightInside, here⟩ := inside stride level i (List.mem_range.mp below)
  exact ⟨.inr leftInside, fun _ => ⟨.inr rightInside, fun _ => ⟨here, trivial⟩⟩⟩

theorem addLevels_cell (left right : ℕ → ℕ → ℕ) (levels : List ℕ)
    (m : Mem (fun _ : ℕ => F32) Empty) :
    ((addLevels left right levels).eval m).cell =
      levels.foldl
        (fun array stride =>
          upTo stride
            (fun i array => Function.update array i
              (array (left stride i) + array (right stride i))) array) m.cell := by
  apply Task.forEach_cell
  intro stride m
  apply Task.forEach_range_cell
  intro i m
  rfl

theorem partialsTask_within {paddedCount : ℕ} (pos : 0 < paddedCount)
    {sums : ArrayTask F32 Empty} (sumsWithin : sums.Within ∅ { a | a < paddedCount })
    {left right : ℕ → ℕ → ℕ}
    (inside : ∀ stride, 2 * stride ≤ paddedCount → ∀ i < stride,
      left stride i < paddedCount ∧ right stride i < paddedCount) :
    (partialsTask paddedCount sums left right).Within ∅ { a | a < paddedCount } := by
  refine ⟨?_, sumsWithin, ?_, .inr pos, fun _ => trivial⟩
  · refine (Task.within_storeRun 0 paddedCount _).mono (Set.Subset.refl _) ?_
    rintro a ⟨-, below⟩
    simpa using below
  · apply addLevels_within
    intro stride level i below
    have small := le_of_mem_halvings level
    have fits : 2 * stride ≤ paddedCount := by omega
    obtain ⟨leftInside, rightInside⟩ := inside stride fits i below
    exact ⟨leftInside, rightInside, by omega⟩

omit [Arith Format.binary32] in
theorem blockCount_le_workspace {count : ℕ} (nonempty : count ≠ 0)
    (bound : count ≤ sizeMax) : blockCount count ≤ sqScaleWorkspaceElements count := by
  rw [sqScaleWorkspaceElements_eq nonempty bound]
  exact Nat.le_pow_clog (by norm_num) _

omit [Arith Format.binary32] in
theorem workspaceElements_pos {count : ℕ} (nonempty : count ≠ 0) (bound : count ≤ sizeMax) :
    0 < sqScaleWorkspaceElements count := by
  rw [sqScaleWorkspaceElements_eq nonempty bound]
  exact Nat.two_pow_pos _

theorem scalarPartials_within (values : ℕ → F32) {count : ℕ} (bound : count ≤ sizeMax) :
    (scalarPartials values count).Within ∅ { a | a < sqScaleWorkspaceElements count } := by
  unfold scalarPartials
  split
  · trivial
  rename_i nonempty
  split
  · trivial
  split
  · trivial
  have blocks := blockCount_le_workspace nonempty bound
  apply partialsTask_within (workspaceElements_pos nonempty bound)
  · refine (Task.within_storeRun 0 _ _).mono (Set.Subset.refl _) ?_
    rintro a ⟨-, below⟩
    exact (show a < _ from below).trans_le (by omega)
  · intro stride fits i below
    constructor <;> omega

end

section

variable [RoundedArith Format.binary32]

theorem blockSumsRegion_within (values : ℕ → F32) {count : ℕ} (nonempty : count ≠ 0)
    (bound : count ≤ sizeMax) (maxAbs : F32) (rev : ℕ → ℕ) (team : ℕ) :
    (blockSumsRegion values count maxAbs rev (paddedBits count) team).Within ∅
      { a | a < sqScaleWorkspaceElements count } := by
  have enough : blockCount count ≤ 2 ^ paddedBits count := Nat.le_pow_clog (by norm_num) _
  have discipline := blockSumsTeam values count maxAbs rev (paddedBits count) team enough
  unfold blockSumsRegion Task.team
  apply Task.within_threads
  intro thread tBound
  apply Task.within_forEach
  intro b member
  refine (discipline.within thread tBound b member).mono (Set.Subset.refl _) ?_
  rintro a (⟨-, rfl⟩ | scratch)
  · rw [sqScaleWorkspaceElements_eq nonempty bound, reverseBits_eq]
    exact Tree.reversed_lt _ b
  · exact scratch.elim

omit [RoundedArith Format.binary32] in
/-- `padded_bits` is the number of levels of the tree. -/
theorem workspaceBits {count : ℕ} (nonempty : count ≠ 0) (bound : count ≤ sizeMax) :
    countPaddedBits (sqScaleWorkspaceElements count) 0 = paddedBits count := by
  rw [sqScaleWorkspaceElements_eq nonempty bound, countPaddedBits_pow (Nat.zero_le _)]

theorem avx2Partials_within (scan sums : OmpRegion) (values : ℕ → F32) {count : ℕ}
    (bound : count ≤ sizeMax) :
    (avx2Partials scan sums values count).Within ∅
      { a | a < sqScaleWorkspaceElements count } := by
  unfold avx2Partials
  split
  · trivial
  rename_i nonempty
  dsimp only
  split
  · trivial
  split
  · trivial
  apply partialsTask_within (workspaceElements_pos nonempty bound)
  · rw [workspaceBits nonempty bound]
    exact blockSumsRegion_within values nonempty bound _ _ sums.team
  · intro stride fits i below
    constructor <;> omega

/-- Computing a scale touches no partial sum beyond those of the count. -/
theorem scaleAccesses_within (omp : OmpRuntime) (backend : SqBackend) (values : ℕ → F32)
    {count : ℕ} (bound : count ≤ sizeMax) :
    (scaleAccesses omp backend values count).Within ∅
      { a | a < sqScaleWorkspaceElements count } := by
  unfold scaleAccesses
  split
  · exact scalarPartials_within values bound
  · exact avx2Partials_within omp.scaleScan omp.blockSums values bound

/-! ## The buffer afterwards -/

omit [RoundedArith Format.binary32] in
theorem partialsTask_cell [Arith Format.binary32] (paddedCount : ℕ)
    (sums : ArrayTask F32 Empty) (left right : ℕ → ℕ → ℕ) (array : ℕ → F32) :
    ((partialsTask paddedCount sums left right).eval ⟨array, 0⟩).cell =
      (halvings (paddedCount / 2)).foldl
        (fun array stride =>
          upTo stride
            (fun i array => Function.update array i
              (array (left stride i) + array (right stride i))) array)
        (sums.eval ⟨upTo paddedCount (fun i array => Function.update array i zeroF) array,
          0⟩).cell := by
  have cleared : (Task.storeRun 0 paddedCount fun _ => zeroF).eval ⟨array, 0⟩ =
      (⟨upTo paddedCount (fun i array => Function.update array i zeroF) array, 0⟩ :
        Mem (fun _ : ℕ => F32) Empty) := by
    apply Mem.ext
    · exact Task.storeRun_zero_cell paddedCount (fun _ => zeroF) ⟨array, 0⟩
    · exact Subsingleton.elim _ _
  rw [partialsTask, Task.eval, Task.eval, Task.eval, Task.eval, Task.eval, addLevels_cell,
    cleared]

omit [RoundedArith Format.binary32] in
theorem sqScaleWorkspaceElements_checks [Arith Format.binary32] {count : ℕ}
    (bound : count ≤ sizeMax) :
    sqScaleWorkspaceElements count ≠ sizeMax ∧
      ¬ sqScaleWorkspaceElements count > sizeMax / 4 := by
  have small := sqScaleWorkspaceElements_le bound
  unfold sizeMax
  constructor <;> omega

section

variable {count : ℕ} (bound : count ≤ sizeMax) {capacity : ℕ}
  (sufficient : sqScaleWorkspaceElements count ≤ capacity)

include bound sufficient

omit [RoundedArith Format.binary32] in
theorem scalarPartials_cell [Arith Format.binary32] (values : ℕ → F32) (scale : F32)
    (array : ℕ → F32) :
    (sqComputeScaleWithWorkspace (some values) count (some scale) (some array)
        capacity).2.2 =
      some ((scalarPartials values count).eval ⟨array, 0⟩).cell := by
  obtain ⟨notMax, fits⟩ := sqScaleWorkspaceElements_checks bound
  unfold sqComputeScaleWithWorkspace scalarPartials
  dsimp only
  by_cases empty : count = 0
  · rw [if_pos empty, if_pos empty]
    rfl
  rw [if_neg empty, if_neg empty]
  cases scanMaxAbs values count with
  | none => rfl
  | some maxAbs =>
      dsimp only
      by_cases zero : maxAbs.eq zeroF = true
      · rw [if_pos zero, if_pos zero]
        rfl
      · rw [if_neg zero, if_neg zero, if_neg notMax, if_neg fits,
          if_neg (Nat.not_lt.mpr sufficient), partialsTask_cell, Task.storeRun_zero_cell]
        split <;> rfl

theorem avx2Partials_cell (scan sums : OmpRegion) (values : ℕ → F32) (scale : F32)
    (array : ℕ → F32) :
    (sqAvx2ComputeScaleWithWorkspace scan sums (some values) count (some scale)
        (some array) capacity).2.2 =
      some ((avx2Partials scan sums values count).eval ⟨array, 0⟩).cell := by
  obtain ⟨notMax, fits⟩ := sqScaleWorkspaceElements_checks bound
  unfold sqAvx2ComputeScaleWithWorkspace avx2Partials
  dsimp only
  by_cases empty : count = 0
  · rw [if_pos empty, if_pos empty]
    rfl
  rw [if_neg empty, if_neg empty]
  by_cases nonfinite : maxMagnitudeBits scan values count ≥ nonfiniteBits
  · rw [if_pos nonfinite, if_pos nonfinite]
    rfl
  rw [if_neg nonfinite, if_neg nonfinite]
  by_cases zero : maxMagnitudeBits scan values count = 0#32
  · rw [if_pos zero, if_pos zero]
    rfl
  have free : (blockSumsRegion values count (ofF32Bits (maxMagnitudeBits scan values count))
      (fun i => reverseBits i 8) (paddedBits count) sums.team).RaceFree :=
    (blockSumsTeam values count _ _ _ sums.team (Nat.le_pow_clog (by norm_num) _)).raceFree
  rw [if_neg zero, if_neg zero, if_neg notMax, if_neg fits,
    if_neg (Nat.not_lt.mpr sufficient), partialsTask_cell, workspaceBits empty bound,
    sums.scheduler.run_eq free]
  split <;> rfl

/-- The buffer after the scale of either backend is what those accesses leave. -/
theorem cpuComputeScale_partials (omp : OmpRuntime) (backend : SqBackend) (values : ℕ → F32)
    (scale : F32) (array : ℕ → F32) :
    (cpuComputeScale omp (some values) count (some scale) (some array) capacity
        backend).2.2 =
      some ((scaleAccesses omp backend values count).eval ⟨array, 0⟩).cell := by
  cases backend with
  | cpu => exact scalarPartials_cell bound sufficient values scale array
  | cpuAvx2 => exact avx2Partials_cell bound sufficient _ _ values scale array
  | cuda => exact avx2Partials_cell bound sufficient _ _ values scale array

end

end

end Stoquant

import Stoquant.Cuda.Geometry
import Stoquant.Effect.Abort

/-!
# Launches of the scale kernels

`launch_k1` issues its kernels one after the other and stops at the first error
that a launch reports.  The kernels above the partial sums take the buffers of
the workspace in turn, and the last one reads the partial sum that is left.
-/

namespace Stoquant

open Abort Loop

/-- The buffers `sums_a` and `sums_b`. -/
inductive SumsBuffer where
  | a
  | b
  deriving DecidableEq, Repr

/-- The kernels of K1 with their grids and the arguments that depend on the launch. -/
inductive K1Kernel where
  | maxBlocks (grid blockCount : ℕ)
  | maxVector (grid : ℕ)
  | reduceMax (partials : ℕ)
  | sumBlocks (grid blockCount paddedCount : ℕ)
  | sumWarps (grid blockCount paddedCount : ℕ)
  | reducePairs (grid : ℕ) (input output : SumsBuffer) (outputCount : ℕ)
  | reduceTree (grid : ℕ) (input output : SumsBuffer) (outputCount span : ℕ)
  | finishScale (sum : SumsBuffer)
  deriving DecidableEq, Repr

/-- The values of `cudaError_t` that these functions name, and any other. -/
inductive CudaError where
  | invalidValue
  | misalignedAddress
  | other (code : ℕ)
  deriving DecidableEq, Repr

/-- `SQ_CUDA_WARP`. -/
def sqCudaWarp : ℕ := 32

/-- `warps_per_block`. -/
def warpsPerBlock : ℕ := sqCudaReductionThreads / sqCudaWarp

/-- `SQ_CUDA_K1_TREE_SPAN`. -/
def sqCudaK1TreeSpan : ℕ := 2048

/-- `SQ_CUDA_K1_MAX_AUTO_GRID`. -/
def sqCudaK1MaxAutoGrid : ℕ := 1024

/-- `sq_cuda_k1_workspace`, each pointer a device address, absent when null. -/
structure K1Workspace where
  maxPartials : Option ℕ
  invalidPartials : Option ℕ
  sumsA : Option ℕ
  sumsB : Option ℕ
  counts : K1Counts
  deriving DecidableEq, Repr

/-- The pointers that `launch_k1` takes beside the workspace. -/
structure K1Pointers where
  deviceValues : Option ℕ
  deviceScale : Option ℕ
  deviceStatus : Option ℕ
  deriving DecidableEq, Repr

/-- A computation that launches kernels, the state being those launched so far. -/
abbrev K1Run := Run (List K1Kernel) CudaError

/-- Launch a kernel and check `cudaGetLastError`, which may depend on what was
launched. -/
def issue (lastError : List K1Kernel → Option CudaError) (kernel : K1Kernel) : K1Run Unit :=
  ExceptT.mk fun launched =>
    match lastError (launched ++ [kernel]) with
    | none => (.ok (), launched ++ [kernel])
    | some error => (.error error, launched ++ [kernel])

section

variable (lastError : List K1Kernel → Option CudaError) (gridSize : ℤ)

/-- `pair_grid`. -/
def pairGrid (outputCount : ℕ) : ℕ :=
  if gridSize > 0 then gridSize.toNat else sqCudaAutomaticGrid outputCount 256

/-- `tree_grid`. -/
def treeGrid (outputCount : ℕ) : ℕ :=
  if gridSize > 0 then gridSize.toNat else sqCudaAutomaticGrid outputCount 1

/-- The loop over `reduce_pairs_kernel`: the buffer of the partial sums left. -/
def reducePairsLoop (input output : SumsBuffer) (active : ℕ) : K1Run SumsBuffer :=
  if active > 1 then do
    let outputCount := active / 2
    issue lastError (.reducePairs (pairGrid gridSize outputCount) input output outputCount)
    reducePairsLoop output input outputCount
  else pure input
termination_by active

/-- The loop over `reduce_tree_kernel`. -/
def reduceTreeLoop (input output : SumsBuffer) (active : ℕ) : K1Run SumsBuffer :=
  if active > 1 then do
    let span := if active < sqCudaK1TreeSpan then active else sqCudaK1TreeSpan
    let outputCount := active / span
    issue lastError (.reduceTree (treeGrid gridSize outputCount) input output outputCount span)
    reduceTreeLoop output input outputCount
  else pure input
termination_by active
decreasing_by
  apply Nat.div_lt_self
  · omega
  · unfold sqCudaK1TreeSpan
    split <;> omega

/-- `max_grid` of `launch_k1_optimized`. -/
def optimizedMaxGrid (count : ℕ) (workspace : K1Workspace) : ℕ :=
  let wordCount := ceilDiv count 4
  let autoMaxGrid := sqCudaAutomaticGrid wordCount (sqCudaReductionThreads * 2)
  let maxGrid :=
    if gridSize > 0 then gridSize.toNat
    else if autoMaxGrid < sqCudaK1MaxAutoGrid then autoMaxGrid
    else sqCudaK1MaxAutoGrid
  -- One partial maximum for each block, and the buffer holds `block_count` of them.
  if maxGrid > workspace.counts.blockCount then workspace.counts.blockCount else maxGrid

/-- `launch_k1_optimized`. -/
def launchK1Optimized (deviceValues count : ℕ) (workspace : K1Workspace) : K1Run Unit := do
  let blockCount := workspace.counts.blockCount
  let paddedCount := workspace.counts.paddedCount
  let maxGrid := optimizedMaxGrid gridSize count workspace
  let sumGrid :=
    if gridSize > 0 then gridSize.toNat
    else sqCudaAutomaticGrid paddedCount (sqCudaReductionThreads / sqCudaWarp)
  if deviceValues % 16 ≠ 0 then throw .misalignedAddress
  issue lastError (.maxVector maxGrid)
  issue lastError (.reduceMax maxGrid)
  issue lastError (.sumWarps sumGrid blockCount paddedCount)
  let input ← reduceTreeLoop lastError gridSize .a .b paddedCount
  issue lastError (.finishScale input)

/-- `launch_k1`. -/
def launchK1 (variant : K1Variant) (pointers : K1Pointers) (count : ℕ)
    (workspace : Option K1Workspace) : K1Run Unit :=
  if count = 0 then pure ()
  else if validLaunchGeometry sqCudaReductionThreads gridSize = false then
    throw .invalidValue
  else
    match workspace with
    | none => throw .invalidValue
    | some workspace => do
        let expectedBlockCount := ceilDiv count sqCudaReductionThreads
        let blockCount := workspace.counts.blockCount
        let paddedCount := workspace.counts.paddedCount
        let maxGrid :=
          if gridSize > 0 then gridSize.toNat
          else if blockCount < sqCudaMaxGridSize then blockCount else sqCudaMaxGridSize
        let sumGrid :=
          if gridSize > 0 then gridSize.toNat
          else if paddedCount < sqCudaMaxGridSize then paddedCount else sqCudaMaxGridSize
        if blockCount ≠ expectedBlockCount ∨
            doubleUnguarded expectedBlockCount 64 1 ≠ some paddedCount ∨
            maxGrid = 0 ∨ sumGrid = 0 then
          throw .invalidValue
        match pointers.deviceValues, workspace.maxPartials, workspace.invalidPartials,
            workspace.sumsA, workspace.sumsB, pointers.deviceScale, pointers.deviceStatus with
        | some deviceValues, some _, some _, some _, some _, some _, some _ =>
            match variant with
            | .optimized =>
                launchK1Optimized lastError gridSize deviceValues count workspace
            | .reference =>
                issue lastError (.maxBlocks maxGrid blockCount)
                issue lastError (.reduceMax blockCount)
                issue lastError (.sumBlocks sumGrid blockCount paddedCount)
                let input ← reducePairsLoop lastError gridSize .a .b paddedCount
                issue lastError (.finishScale input)
        | _, _, _, _, _, _, _ => throw .invalidValue

end

/-! ## The predicted counts -/

/-- `REDUCTION_THREADS` of `k1_bandwidth.py`. -/
def reductionThreads : ℤ := 256

/-- `TREE_SPAN` of `k1_ab.py`. -/
def treeSpan : ℕ := 2048

theorem double_pos {padded : ℕ} (pos : 0 < padded) : 0 < 2 * padded := Nat.mul_pos Nat.two_pos pos

/-- The loop that pads the blocks and counts its levels; `optimized_launch_count` runs it
without the levels. -/
def paddedLevels (blocks : ℤ) (padded : ℕ) (pos : 0 < padded) (levels : ℕ) : ℕ × ℕ :=
  if (padded : ℤ) < blocks then paddedLevels blocks (2 * padded) (double_pos pos) (levels + 1)
  else (padded, levels)
termination_by (blocks - padded).toNat

/-- `k1_launch_count`. -/
def k1LaunchCount (count : ℤ) : ℕ :=
  let blocks := -(-count / reductionThreads)
  4 + (paddedLevels blocks 1 Nat.one_pos 0).2

/-- The loop over `active` of `optimized_launch_count`. -/
def treeLaunches (active launches : ℕ) : ℕ :=
  if active > 1 then treeLaunches (active / min active treeSpan) (launches + 1)
  else launches
termination_by active
decreasing_by
  apply Nat.div_lt_self
  · omega
  · unfold treeSpan
    omega

/-- `optimized_launch_count`. -/
def optimizedLaunchCount (count : ℤ) : ℕ :=
  let blocks := -(-count / reductionThreads)
  treeLaunches (paddedLevels blocks 1 Nat.one_pos 0).1 4

/-- The launches that each variant is predicted to make. -/
def predictedLaunches : K1Variant → ℤ → ℕ
  | .reference => k1LaunchCount
  | .optimized => optimizedLaunchCount

/-! ## One launch after another -/

/-- The buffer and the number of the partial sums after a launch, absent when the launch
does not take all of those before it. -/
def K1Kernel.partials (current : Option (SumsBuffer × ℕ)) : K1Kernel → Option (SumsBuffer × ℕ)
  | .sumBlocks _ _ paddedCount => some (.a, paddedCount)
  | .sumWarps _ _ paddedCount => some (.a, paddedCount)
  | .reducePairs _ input output outputCount =>
      if current = some (input, outputCount * 2) ∧ input ≠ output then
        some (output, outputCount)
      else none
  | .reduceTree _ input output outputCount span =>
      if current = some (input, outputCount * span) ∧ input ≠ output then
        some (output, outputCount)
      else none
  | _ => current

/-- The arguments of a launch for a number of values: a grid that is not empty, two
buffers, a span that is a power of two, the counts of the blocks, and no more maxima than
blocks. -/
def K1Kernel.Fits (count : ℕ) : K1Kernel → Prop
  | .maxBlocks grid blocks => 0 < grid ∧ blocks = blockCount count
  | .maxVector grid => 0 < grid ∧ grid ≤ blockCount count
  | .reduceMax partials => partials ≤ blockCount count
  | .sumBlocks grid blocks padded =>
      0 < grid ∧ blocks = blockCount count ∧ padded = 2 ^ paddedBits count
  | .sumWarps grid blocks padded =>
      0 < grid ∧ blocks = blockCount count ∧ padded = 2 ^ paddedBits count
  | .reducePairs grid input output _ => 0 < grid ∧ input ≠ output
  | .reduceTree grid input output _ span =>
      0 < grid ∧ input ≠ output ∧ ∃ j ≤ 11, span = 2 ^ j
  | .finishScale _ => True

theorem ceilDiv_pos {work size : ℕ} (workPos : 0 < work) (sizePos : 0 < size) :
    0 < ceilDiv work size := by
  rw [lt_ceilDiv_iff sizePos, Nat.zero_mul]
  exact workPos

theorem sqCudaAutomaticGrid_pos {work size : ℕ} (workPos : 0 < work) (sizePos : 0 < size) :
    0 < sqCudaAutomaticGrid work size := by
  have blocks := ceilDiv_pos workPos sizePos
  unfold sqCudaAutomaticGrid
  dsimp only
  split
  · exact blocks
  · decide

theorem grid_pos (gridSize : ℤ) {auto : ℕ} (pos : 0 < auto) :
    0 < if gridSize > 0 then gridSize.toNat else auto := by
  split
  · omega
  · exact pos

theorem optimizedMaxGrid_fits (gridSize : ℤ) {count : ℕ} (nonempty : count ≠ 0)
    {workspace : K1Workspace} (blocks : workspace.counts.blockCount = blockCount count) :
    0 < optimizedMaxGrid gridSize count workspace ∧
      optimizedMaxGrid gridSize count workspace ≤ blockCount count := by
  have words : 0 < sqCudaAutomaticGrid (ceilDiv count 4) (sqCudaReductionThreads * 2) := by
    apply sqCudaAutomaticGrid_pos
    · exact ceilDiv_pos (Nat.pos_of_ne_zero nonempty) (by norm_num)
    · decide
  have grid : 0 < if gridSize > 0 then gridSize.toNat
      else if sqCudaAutomaticGrid (ceilDiv count 4) (sqCudaReductionThreads * 2) <
          sqCudaK1MaxAutoGrid then
        sqCudaAutomaticGrid (ceilDiv count 4) (sqCudaReductionThreads * 2)
      else sqCudaK1MaxAutoGrid := by
    apply grid_pos
    split
    · exact words
    · decide
  have blocksPos := blockCount_pos nonempty
  unfold optimizedMaxGrid
  dsimp only
  rw [blocks]
  generalize (if gridSize > 0 then gridSize.toNat else _) = chosen at grid ⊢
  split_ifs with large
  · exact ⟨blocksPos, le_rfl⟩
  · exact ⟨grid, Nat.le_of_not_lt large⟩

theorem treeSpan_pow (k : ℕ) :
    (if 2 ^ k < sqCudaK1TreeSpan then 2 ^ k else sqCudaK1TreeSpan) = 2 ^ min k 11 ∧
      min (2 ^ k) treeSpan = 2 ^ min k 11 ∧ 2 ^ k / 2 ^ min k 11 = 2 ^ (k - min k 11) := by
  have least : min (2 ^ k) (2 ^ 11) = 2 ^ min k 11 := by
    rcases Nat.le_total k 11 with low | high
    · rw [min_eq_left low, min_eq_left (Nat.pow_le_pow_right (by norm_num) low)]
    · rw [min_eq_right high, min_eq_right (Nat.pow_le_pow_right (by norm_num) high)]
  refine ⟨?_, least, Nat.pow_div (min_le_left k 11) (by norm_num)⟩
  rw [← least]
  unfold sqCudaK1TreeSpan
  split_ifs <;> omega

section

variable {lastError : List K1Kernel → Option CudaError}
  (quiet : ∀ launched, lastError launched = none)

include quiet

theorem exec_issue (kernel : K1Kernel) (launched : List K1Kernel) :
    exec (issue lastError kernel) launched = (.ok (), launched ++ [kernel]) := by
  unfold issue
  show (match lastError (launched ++ [kernel]) with
    | none => (Except.ok (), launched ++ [kernel])
    | some error => (.error error, launched ++ [kernel])) = _
  rw [quiet]

theorem exec_issue_bind {α : Type} (kernel : K1Kernel) (next : K1Run α)
    (launched : List K1Kernel) :
    exec (issue lastError kernel >>= fun _ => next) launched =
      exec next (launched ++ [kernel]) :=
  exec_bind_ok (exec_issue quiet kernel launched)

variable (gridSize : ℤ)

theorem reducePairsLoop_pow (count : ℕ) {input output : SumsBuffer}
    (different : input ≠ output) (k : ℕ) (launched : List K1Kernel) :
    ∃ levels final,
      exec (reducePairsLoop lastError gridSize input output (2 ^ k)) launched =
        (.ok final, launched ++ levels) ∧
      levels.length = k ∧ (∀ kernel ∈ levels, kernel.Fits count) ∧
      levels.foldl K1Kernel.partials (some (input, 2 ^ k)) = some (final, 1) := by
  induction k generalizing input output launched with
  | zero =>
      refine ⟨[], input, ?_, rfl, by simp, rfl⟩
      rw [reducePairsLoop, if_neg (by norm_num), List.append_nil]
      rfl
  | succ k ih =>
      have more : 2 ^ (k + 1) > 1 := Nat.one_lt_two_pow (Nat.succ_ne_zero k)
      have half : 2 ^ (k + 1) / 2 = 2 ^ k := by
        rw [pow_succ]
        exact Nat.mul_div_cancel _ (by norm_num)
      rw [reducePairsLoop, if_pos more]
      dsimp only
      rw [half, exec_issue_bind quiet]
      let kernel := K1Kernel.reducePairs (pairGrid gridSize (2 ^ k)) input output (2 ^ k)
      have grid : 0 < pairGrid gridSize (2 ^ k) :=
        grid_pos gridSize (sqCudaAutomaticGrid_pos (Nat.two_pow_pos k) (by norm_num))
      obtain ⟨levels, final, ran, length, fits, left⟩ :=
        ih different.symm (launched ++ [kernel])
      refine ⟨kernel :: levels, final, ?_, ?_,
    List.forall_mem_cons.mpr ⟨⟨grid, different⟩, fits⟩, ?_⟩
      · rw [ran, List.append_assoc]
        rfl
      · rw [List.length_cons, length]
      · rw [List.foldl_cons, K1Kernel.partials, if_pos ⟨by rw [pow_succ], different⟩]
        exact left

/-- The loop over spans makes the launches of `optimized_launch_count` and leaves one
partial sum. -/
theorem reduceTreeLoop_pow (count : ℕ) {input output : SumsBuffer}
    (different : input ≠ output) (k : ℕ) (launched : List K1Kernel) (launches : ℕ) :
    ∃ levels final,
      exec (reduceTreeLoop lastError gridSize input output (2 ^ k)) launched =
        (.ok final, launched ++ levels) ∧
      treeLaunches (2 ^ k) launches = launches + levels.length ∧
      (∀ kernel ∈ levels, kernel.Fits count) ∧
      levels.foldl K1Kernel.partials (some (input, 2 ^ k)) = some (final, 1) := by
  induction k using Nat.strong_induction_on generalizing input output launched launches with
  | _ k ih =>
      by_cases done : k = 0
      · subst done
        refine ⟨[], input, ?_, ?_, by simp, rfl⟩
        · rw [reduceTreeLoop, if_neg (by norm_num), List.append_nil]
          rfl
        · rw [treeLaunches, if_neg (by norm_num)]
          rfl
      · have more : 2 ^ k > 1 := Nat.one_lt_two_pow done
        obtain ⟨span, least, rest⟩ := treeSpan_pow k
        rw [reduceTreeLoop, if_pos more, treeLaunches, if_pos more, least, rest]
        dsimp only
        rw [span, rest, exec_issue_bind quiet]
        let outputCount := 2 ^ (k - min k 11)
        let kernel := K1Kernel.reduceTree (treeGrid gridSize outputCount) input output
          outputCount (2 ^ min k 11)
        have grid : 0 < treeGrid gridSize outputCount :=
          grid_pos gridSize (sqCudaAutomaticGrid_pos (Nat.two_pow_pos _) (by norm_num))
        obtain ⟨levels, final, ran, predicted, fits, left⟩ :=
          ih (k - min k 11) (by omega) different.symm (launched ++ [kernel]) (launches + 1)
        refine ⟨kernel :: levels, final, ?_, ?_,
          List.forall_mem_cons.mpr ⟨⟨grid, different, _, min_le_right k 11, rfl⟩, fits⟩, ?_⟩
        · rw [ran, List.append_assoc]
          rfl
        · rw [predicted, List.length_cons]
          omega
        · have product : 2 ^ k = 2 ^ (k - min k 11) * 2 ^ min k 11 := by
            rw [← pow_add, Nat.sub_add_cancel (min_le_left k 11)]
          rw [List.foldl_cons, K1Kernel.partials, if_pos ⟨by rw [← product], different⟩]
          exact left

theorem exec_around {first second third : K1Kernel} {loop : K1Run SumsBuffer}
    {levels : List K1Kernel} {final : SumsBuffer}
    (ran : exec loop [first, second, third] = (.ok final, [first, second, third] ++ levels)) :
    exec (do
        issue lastError first
        issue lastError second
        issue lastError third
        let input ← loop
        issue lastError (.finishScale input)) [] =
      (.ok (), [first, second, third] ++ levels ++ [K1Kernel.finishScale final]) := by
  rw [exec_issue_bind quiet, exec_issue_bind quiet, exec_issue_bind quiet]
  exact (exec_bind_ok ran).trans (exec_issue quiet _ _)

theorem launchK1Optimized_pow {deviceValues : ℕ} (aligned : deviceValues % 16 = 0) {count : ℕ}
    (nonempty : count ≠ 0) {workspace : K1Workspace}
    (counts : workspace.counts = ⟨blockCount count, 2 ^ paddedBits count⟩) :
    ∃ launched final,
      exec (launchK1Optimized lastError gridSize deviceValues count workspace) [] =
        (.ok (), launched ++ [K1Kernel.finishScale final]) ∧
      (launched ++ [K1Kernel.finishScale final]).length =
        treeLaunches (2 ^ paddedBits count) 4 ∧
      (∀ kernel ∈ launched, kernel.Fits count) ∧
      launched.foldl K1Kernel.partials none = some (final, 1) := by
  have maxGrid : 0 < optimizedMaxGrid gridSize count workspace ∧ _ :=
    optimizedMaxGrid_fits gridSize nonempty (by rw [counts])
  have sumGrid : 0 < if gridSize > 0 then gridSize.toNat
      else sqCudaAutomaticGrid (2 ^ paddedBits count) (sqCudaReductionThreads / sqCudaWarp) :=
    grid_pos gridSize (sqCudaAutomaticGrid_pos (Nat.two_pow_pos _) (by decide))
  unfold launchK1Optimized
  dsimp only
  rw [if_neg (not_not.mpr aligned), counts]
  obtain ⟨levels, final, ran, launches, fits, left⟩ :=
    reduceTreeLoop_pow quiet gridSize count (show SumsBuffer.a ≠ .b by decide)
      (paddedBits count) [_, _, _] 4
  refine ⟨_ ++ levels, final, exec_around quiet ran, ?_, ?_, ?_⟩
  · rw [launches, List.length_append, List.length_append]
    exact Nat.add_right_comm 3 levels.length 1
  · refine List.forall_mem_append.mpr ⟨?_, fits⟩
    simp only [List.forall_mem_cons]
    exact ⟨maxGrid, maxGrid.2, ⟨sumGrid, rfl, rfl⟩, by simp⟩
  · rw [List.foldl_append]
    exact left

end

theorem paddedLevels_pow {blocks : ℕ} {j : ℕ} (start : j ≤ Nat.clog 2 blocks) :
    paddedLevels blocks (2 ^ j) (Nat.two_pow_pos j) j =
      (2 ^ Nat.clog 2 blocks, Nat.clog 2 blocks) := by
  induction rest : Nat.clog 2 blocks - j generalizing j with
  | zero =>
      have top : j = Nat.clog 2 blocks := by omega
      have reached := Nat.le_pow_clog (b := 2) (by norm_num) blocks
      subst top
      rw [paddedLevels, if_neg (by exact_mod_cast Nat.not_lt.mpr reached)]
  | succ rest ih =>
      have below : 2 ^ j < blocks := (Nat.lt_clog_iff_pow_lt (by norm_num)).mp (by omega)
      have twice : 2 * 2 ^ j = 2 ^ (j + 1) := by ring
      rw [paddedLevels, if_pos (by exact_mod_cast below)]
      simp only [twice]
      exact ih (by omega) (by omega)

theorem paddedLevels_blocks (count : ℕ) :
    paddedLevels (-(-(count : ℤ) / reductionThreads)) 1 Nat.one_pos 0 =
      (2 ^ paddedBits count, paddedBits count) := by
  have blocks : -(-(count : ℤ) / reductionThreads) = (blockCount count : ℤ) := by
    rw [blockCount_eq_ceil]
    unfold reductionThreads
    push_cast
    omega
  rw [blocks]
  exact paddedLevels_pow (Nat.zero_le _)

/-- Device pointers that are not null, the values aligned to `float4`. -/
structure K1Ready (pointers : K1Pointers) (workspace : K1Workspace) : Prop where
  values : ∃ address, pointers.deviceValues = some address ∧ address % 16 = 0
  scale : pointers.deviceScale.isSome = true
  status : pointers.deviceStatus.isSome = true
  maxPartials : workspace.maxPartials.isSome = true
  invalidPartials : workspace.invalidPartials.isSome = true
  sumsA : workspace.sumsA.isSome = true
  sumsB : workspace.sumsB.isSome = true

/-- Without an error K1 makes the predicted launches, each with fitting arguments, and the
last one reads the one partial sum that the others leave. -/
theorem launchK1_run {lastError : List K1Kernel → Option CudaError}
    (quiet : ∀ launched, lastError launched = none) {count : ℕ} (nonempty : count ≠ 0)
    (bound : count ≤ uint64Max) {gridSize : ℤ}
    (geometry : validLaunchGeometry sqCudaReductionThreads gridSize = true)
    {workspace : K1Workspace} {before : K1Counts}
    (sized : setK1WorkspaceGeometry (some before) count = (.ok, some workspace.counts))
    {pointers : K1Pointers} (ready : K1Ready pointers workspace) (variant : K1Variant) :
    ∃ launched final,
      exec (launchK1 lastError gridSize variant pointers count (some workspace)) [] =
        (.ok (), launched ++ [K1Kernel.finishScale final]) ∧
      (launched ++ [K1Kernel.finishScale final]).length = predictedLaunches variant count ∧
      (∀ kernel ∈ launched, kernel.Fits count) ∧
      launched.foldl K1Kernel.partials none = some (final, 1) := by
  have counts : workspace.counts = ⟨blockCount count, 2 ^ paddedBits count⟩ := by
    rw [setK1WorkspaceGeometry_eq nonempty bound] at sized
    exact (Option.some.inj (Prod.mk.inj sized).2).symm
  have small : blockCount count ≤ 2 ^ 63 := (blockCount_le bound).trans (by norm_num)
  have exponent : paddedBits count ≤ 56 := by
    rw [paddedBits, Nat.clog_le_iff_le_pow (by norm_num)]
    exact blockCount_le bound
  have expected : doubleUnguarded (blockCount count) 64 1 = some (2 ^ paddedBits count) := by
    apply doubleUnguarded_pow small (Nat.zero_le _)
    rw [← paddedBits]
    omega
  have blocksPos := blockCount_pos nonempty
  have paddedPos : 0 < 2 ^ paddedBits count := Nat.two_pow_pos _
  have maxGrid : 0 < if gridSize > 0 then gridSize.toNat
      else if blockCount count < sqCudaMaxGridSize then blockCount count
      else sqCudaMaxGridSize := by
    apply grid_pos
    unfold sqCudaMaxGridSize
    split <;> omega
  have sumGrid : 0 < if gridSize > 0 then gridSize.toNat
      else if 2 ^ paddedBits count < sqCudaMaxGridSize then 2 ^ paddedBits count
      else sqCudaMaxGridSize := by
    apply grid_pos
    unfold sqCudaMaxGridSize
    split <;> omega
  obtain ⟨address, valuesEq, aligned⟩ := ready.values
  obtain ⟨scale, scaleEq⟩ := Option.isSome_iff_exists.mp ready.scale
  obtain ⟨status, statusEq⟩ := Option.isSome_iff_exists.mp ready.status
  obtain ⟨maxPartials, maxPartialsEq⟩ := Option.isSome_iff_exists.mp ready.maxPartials
  obtain ⟨invalid, invalidEq⟩ := Option.isSome_iff_exists.mp ready.invalidPartials
  obtain ⟨sumsA, sumsAEq⟩ := Option.isSome_iff_exists.mp ready.sumsA
  obtain ⟨sumsB, sumsBEq⟩ := Option.isSome_iff_exists.mp ready.sumsB
  unfold launchK1
  rw [if_neg nonempty, if_neg (by simp [geometry])]
  dsimp only
  rw [counts, ceilDiv_eq_blockCount,
    if_neg (by simp [expected, maxGrid.ne', sumGrid.ne']), valuesEq, scaleEq, statusEq,
    maxPartialsEq, invalidEq, sumsAEq, sumsBEq]
  cases variant with
  | reference =>
      obtain ⟨levels, final, ran, launches, fits, left⟩ :=
        reducePairsLoop_pow quiet gridSize count (show SumsBuffer.a ≠ .b by decide)
          (paddedBits count) [_, _, _]
      refine ⟨_ ++ levels, final, exec_around quiet ran, ?_, ?_, ?_⟩
      · rw [predictedLaunches, k1LaunchCount, paddedLevels_blocks, List.length_append,
          List.length_append, launches]
        exact Nat.add_right_comm 3 (paddedBits count) 1
      · refine List.forall_mem_append.mpr ⟨?_, fits⟩
        simp only [List.forall_mem_cons]
        exact ⟨⟨maxGrid, rfl⟩, le_rfl, ⟨sumGrid, rfl, rfl⟩, by simp⟩
      · rw [List.foldl_append]
        exact left
  | optimized =>
      rw [predictedLaunches, optimizedLaunchCount, paddedLevels_blocks]
      exact launchK1Optimized_pow quiet gridSize aligned nonempty counts

/-- Without an error K1 makes the predicted launches, and the last one reads the one
partial sum that the others leave. -/
theorem launchK1_launches {lastError : List K1Kernel → Option CudaError}
    (quiet : ∀ launched, lastError launched = none) {count : ℕ} (positive : 1 ≤ count)
    (bound : count ≤ uint64Max) {gridSize : ℤ}
    (geometry : validLaunchGeometry sqCudaReductionThreads gridSize = true)
    {workspace : K1Workspace} {before : K1Counts}
    (sized : setK1WorkspaceGeometry (some before) count = (.ok, some workspace.counts))
    {pointers : K1Pointers} (ready : K1Ready pointers workspace) (variant : K1Variant) :
    ∃ launched final,
      exec (launchK1 lastError gridSize variant pointers count (some workspace)) [] =
        (.ok (), launched ++ [K1Kernel.finishScale final]) ∧
      (launched ++ [K1Kernel.finishScale final]).length = predictedLaunches variant count ∧
      launched.foldl K1Kernel.partials none = some (final, 1) := by
  obtain ⟨launched, final, ran, predicted, -, left⟩ :=
    launchK1_run quiet (by omega) bound geometry sized ready variant
  exact ⟨launched, final, ran, predicted, left⟩

/-- The workspace of 600 values at some device addresses. -/
def workspaceOf600 : K1Workspace :=
  ⟨some 0x1000, some 0x2000, some 0x3000, some 0x4000,
    ⟨blockCount 600, 2 ^ paddedBits 600⟩⟩

theorem launchK1_launches_of600 :
    ∃ launched final,
      exec (launchK1 (fun _ => none) 7 .optimized ⟨some 0x100, some 0x200, some 0x300⟩ 600
          (some workspaceOf600)) [] =
        (.ok (), launched ++ [K1Kernel.finishScale final]) ∧
      (launched ++ [K1Kernel.finishScale final]).length = predictedLaunches .optimized 600 ∧
      launched.foldl K1Kernel.partials none = some (final, 1) :=
  launchK1_launches (fun _ => rfl) (by decide) (by decide) (by decide)
    (setK1WorkspaceGeometry_eq (by decide) (by decide) ⟨0, 0⟩)
    ⟨⟨0x100, rfl, rfl⟩, rfl, rfl, rfl, rfl, rfl, rfl⟩ .optimized

end Stoquant

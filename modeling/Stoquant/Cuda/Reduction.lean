import Stoquant.Cuda.Max
import Stoquant.Cuda.Sums

/-!
# Both variants sum in one tree

The partial sums before a launch are the trees over equal runs of the block roots;
each launch keeps this and makes the runs longer.
-/

namespace Stoquant

open Abort Loop Par

section

variable {α : Type} (op : α → α → α)

/-- The partial sums in a buffer are the trees over equal runs of `2 ^ bits` roots. -/
def HoldsRuns (bits : ℕ) (root : ℕ → α) (current : Option (SumsBuffer × ℕ))
    (m : Mem (fun _ : SumAddr => α) Empty) : Prop :=
  ∀ buffer n, current = some (buffer, n) →
    ∃ q ≤ bits, n = 2 ^ q ∧
      ∀ i < n, m.cell (.sums buffer i) =
        Tree.tree op (bits - q) fun r => root (i * 2 ^ (bits - q) + r)

variable {op} {bits : ℕ} {root : ℕ → α} {m later : Mem (fun _ : SumAddr => α) Empty}

theorem HoldsRuns.reduce {input output : SumsBuffer} {outputCount k : ℕ}
    (before : HoldsRuns op bits root (some (input, outputCount * 2 ^ k)) m)
    (reduced : ∀ i < outputCount, later.cell (.sums output i) =
      Tree.tree op k fun r => m.cell (.sums input (i * 2 ^ k + r))) :
    HoldsRuns op bits root (some (output, outputCount)) later := by
  rintro _ _ ⟨⟩
  obtain ⟨q, le, product, runs⟩ := before input _ rfl
  have kLe : k ≤ q := by
    apply (Nat.pow_dvd_pow_iff_le_right (show 1 < 2 by norm_num)).mp
    rw [← product]
    exact Nat.dvd_mul_left _ _
  have outputEq : outputCount = 2 ^ (q - k) := by
    rw [← Nat.pow_div kLe (by norm_num), ← product, Nat.mul_div_cancel _ (Nat.two_pow_pos k)]
  refine ⟨q - k, by omega, outputEq, ?_⟩
  intro i below
  have longer : bits - (q - k) = bits - q + k := by omega
  rw [reduced i below, longer, Tree.tree_add]
  apply Tree.tree_congr
  intro r small
  have inside : i * 2 ^ k + r < outputCount * 2 ^ k := by
    have run := Nat.mul_le_mul_right (2 ^ k) (show i + 1 ≤ outputCount from below)
    rw [Nat.succ_mul] at run
    omega
  rw [runs _ inside]
  apply Tree.tree_congr
  intro s _
  congr 1
  rw [pow_add]
  ring

variable {zero : α} {term : ℕ → α} {skip : Bool} {count : ℕ}

/-- A launch with fitting arguments has no races and keeps the runs. -/
theorem K1Kernel.sumTask_step {kernel : K1Kernel} (fits : kernel.Fits count)
    {current : Option (SumsBuffer × ℕ)}
    (before : HoldsRuns op (paddedBits count) (blockRoot op zero term skip count) current m) :
    (kernel.sumTask op zero term skip count).RaceFree ∧
      HoldsRuns op (paddedBits count) (blockRoot op zero term skip count)
        (kernel.partials current) ((kernel.sumTask op zero term skip count).eval m) := by
  have roots : ∀ {later : Mem (fun _ : SumAddr => α) Empty} {padded : ℕ},
      padded = 2 ^ paddedBits count →
      (∀ i < padded, later.cell (.sums .a i) = blockRoot op zero term skip count i) →
      HoldsRuns op (paddedBits count) (blockRoot op zero term skip count)
        (some (.a, padded)) later := by
    rintro later _ rfl stored _ _ ⟨⟩
    refine ⟨paddedBits count, le_rfl, rfl, ?_⟩
    intro i below
    rw [stored i below, Nat.sub_self]
    simp [Tree.tree]
  cases kernel with
  | maxBlocks grid blocks => exact ⟨trivial, before⟩
  | maxVector grid => exact ⟨trivial, before⟩
  | reduceMax partials => exact ⟨trivial, before⟩
  | finishScale sum => exact ⟨trivial, before⟩
  | sumBlocks grid blocks padded =>
      obtain ⟨pos, same, paddedEq⟩ := fits
      obtain ⟨free, stored⟩ : (sumBlocksKernel op zero term skip count grid blocks
          padded).RaceFree ∧ _ := sumBlocksKernel_spec pos same m
      exact ⟨free, roots paddedEq stored⟩
  | sumWarps grid blocks padded =>
      obtain ⟨pos, same, paddedEq⟩ := fits
      obtain ⟨free, stored⟩ : (sumWarpsKernel op zero term skip count grid blocks
          padded).RaceFree ∧ _ := sumWarpsKernel_spec pos same m
      exact ⟨free, roots paddedEq stored⟩
  | reducePairs grid input output outputCount =>
      obtain ⟨pos, different⟩ := fits
      obtain ⟨free, reduced⟩ : (reducePairsKernel op grid input output
          outputCount).RaceFree ∧ _ := reducePairsKernel_spec pos different outputCount m
      refine ⟨free, ?_⟩
      rw [K1Kernel.partials]
      split
      · rename_i taken
        obtain ⟨rfl, -⟩ := taken
        exact before.reduce (k := 1) reduced
      · rintro _ _ ⟨⟩
  | reduceTree grid input output outputCount span =>
      obtain ⟨pos, different, k, -, rfl⟩ := fits
      obtain ⟨free, reduced⟩ : (reduceTreeKernel op grid input output outputCount
          (2 ^ k)).RaceFree ∧ _ := reduceTreeKernel_spec pos different outputCount k m
      refine ⟨free, ?_⟩
      rw [K1Kernel.partials]
      split
      · rename_i taken
        obtain ⟨rfl, -⟩ := taken
        exact before.reduce reduced
      · rintro _ _ ⟨⟩

theorem sumTasks_run {launched : List K1Kernel} (fits : ∀ kernel ∈ launched, kernel.Fits count)
    {current : Option (SumsBuffer × ℕ)}
    (before : HoldsRuns op (paddedBits count) (blockRoot op zero term skip count) current m) :
    (Task.forEach launched (K1Kernel.sumTask op zero term skip count)).RaceFree ∧
      HoldsRuns op (paddedBits count) (blockRoot op zero term skip count)
        (launched.foldl K1Kernel.partials current)
        ((Task.forEach launched (K1Kernel.sumTask op zero term skip count)).eval m) := by
  induction launched generalizing current m with
  | nil => exact ⟨trivial, before⟩
  | cons kernel launched ih =>
      obtain ⟨free, after⟩ := kernel.sumTask_step (fits kernel List.mem_cons_self) before
      obtain ⟨freeRest, final⟩ := ih (fun k member => fits k (List.mem_cons_of_mem kernel member))
        after
      exact ⟨⟨free, freeRest⟩, final⟩

end

/-- Launches that leave the tree over the block roots, for every operation: they can run to
the end, and in whatever order their threads run, the first partial sum of a buffer is the
tree. -/
def SumsInTree (launched : List K1Kernel) (final : SumsBuffer) (count : ℕ) : Prop :=
  ∀ (α : Type) (op : α → α → α) (zero : α) (term : ℕ → α) (skip : Bool)
    (m : Mem (fun _ : SumAddr => α) Empty),
    (∃ later, Task.Steps
      (.forEach launched (K1Kernel.sumTask op zero term skip count)) m .done later) ∧
    ∀ later, Task.Steps
      (.forEach launched (K1Kernel.sumTask op zero term skip count)) m .done later →
      later.cell (.sums final 0) =
        Tree.tree op (paddedBits count) (blockRoot op zero term skip count)

/-- Fitting launches that leave one partial sum leave the tree. -/
theorem sumsInTree_of_fits {launched : List K1Kernel} {final : SumsBuffer} {count : ℕ}
    (fits : ∀ kernel ∈ launched, kernel.Fits count)
    (left : launched.foldl K1Kernel.partials none = some (final, 1)) :
    SumsInTree launched final count := by
  intro α op zero term skip m
  have start : HoldsRuns op (paddedBits count) (blockRoot op zero term skip count) none m :=
    fun _ _ => nofun
  obtain ⟨free, runs⟩ := sumTasks_run fits start
  refine ⟨⟨_, Task.steps_eval _ m⟩, ?_⟩
  intro later steps
  obtain ⟨q, le, one, holds⟩ := runs final 1 left
  obtain rfl : q = 0 := by
    by_contra positive
    have := Nat.one_lt_two_pow positive
    omega
  have ends : later = _ := steps.eval_eq free
  rw [ends, holds 0 Nat.one_pos]
  simp

/-- The optimized variant sums in the tree of the reference variant, and its maximum kernel
stores no partial result from the block count on. -/
theorem optimizedSum_sameTree {lastError : List K1Kernel → Option CudaError}
    (quiet : ∀ launched, lastError launched = none) {count : ℕ} (positive : 1 ≤ count)
    (bound : count ≤ uint64Max) {gridSize : ℤ}
    (geometry : validLaunchGeometry sqCudaReductionThreads gridSize = true)
    {workspace : K1Workspace} {before : K1Counts}
    (sized : setK1WorkspaceGeometry (some before) count = (.ok, some workspace.counts))
    {pointers : K1Pointers} (ready : K1Ready pointers workspace) :
    ∃ optimized optimizedSum reference referenceSum,
      exec (launchK1 lastError gridSize .optimized pointers count (some workspace)) [] =
        (.ok (), optimized ++ [K1Kernel.finishScale optimizedSum]) ∧
      exec (launchK1 lastError gridSize .reference pointers count (some workspace)) [] =
        (.ok (), reference ++ [K1Kernel.finishScale referenceSum]) ∧
      SumsInTree optimized optimizedSum count ∧ SumsInTree reference referenceSum count ∧
      ∀ grid, .maxVector grid ∈ optimized →
        (maxVectorKernel grid count).Within (Set.range .value)
          (belowPartials (blockCount count)) := by
  have nonempty : count ≠ 0 := by omega
  obtain ⟨optimized, optimizedSum, ran, -, fits, left⟩ :=
    launchK1_run quiet nonempty bound geometry sized ready .optimized
  obtain ⟨reference, referenceSum, ran', -, fits', left'⟩ :=
    launchK1_run quiet nonempty bound geometry sized ready .reference
  refine ⟨optimized, optimizedSum, reference, referenceSum, ran, ran',
    sumsInTree_of_fits fits left, sumsInTree_of_fits fits' left', ?_⟩
  intro grid member
  have small : grid ≤ blockCount count := (fits _ member).2
  refine (maxVectorKernel_within grid count).mono (Set.Subset.refl _) ?_
  rintro a ⟨notValue, below⟩
  exact ⟨notValue, fun i either => (below i either).trans_le small⟩

theorem optimizedSum_sameTree_of600 :
    ∃ optimized optimizedSum reference referenceSum,
      exec (launchK1 (fun _ => none) 7 .optimized ⟨some 0x100, some 0x200, some 0x300⟩ 600
          (some workspaceOf600)) [] =
        (.ok (), optimized ++ [K1Kernel.finishScale optimizedSum]) ∧
      exec (launchK1 (fun _ => none) 7 .reference ⟨some 0x100, some 0x200, some 0x300⟩ 600
          (some workspaceOf600)) [] =
        (.ok (), reference ++ [K1Kernel.finishScale referenceSum]) ∧
      SumsInTree optimized optimizedSum 600 ∧ SumsInTree reference referenceSum 600 ∧
      ∀ grid, .maxVector grid ∈ optimized →
        (maxVectorKernel grid 600).Within (Set.range .value) (belowPartials (blockCount 600)) :=
  optimizedSum_sameTree (fun _ => rfl) (by decide) (by decide) (by decide)
    (setK1WorkspaceGeometry_eq (by decide) (by decide) ⟨0, 0⟩)
    ⟨⟨0x100, rfl, rfl⟩, rfl, rfl, rfl, rfl, rfl, rfl⟩

end Stoquant

import Stoquant.Cuda.Launch
import Stoquant.Par.Phases

/-!
# The sum kernels

The kernels that add the squared terms, over any operation.  A block or a warp is a
member of a team that takes its work items in strides; between two barriers, and in
one shuffle, its threads are a team of their own.  Whatever the order of the
threads, both variants leave one tree of adjacent pairs.
-/

namespace Stoquant

open Abort Loop Par

/-- The memory that the sum kernels write: the buffers of partial sums, the shared levels of
each block, and the sums in the lanes of each warp before and after a shuffle. -/
inductive SumAddr where
  | sums (buffer : SumsBuffer) (i : ℕ)
  | level (block : ℕ) (side : Bool) (i : ℕ)
  | lane (warp : ℕ) (side : Bool) (i : ℕ)
  deriving DecidableEq

/-- Tasks of the sum kernels. -/
abbrev SumTask (α : Type) := Task (fun _ : SumAddr => α) Empty

/-- `SQ_CUDA_K1_LEAVES_PER_LANE`. -/
def sqCudaK1LeavesPerLane : ℕ := 8

section

variable {α : Type} (op : α → α → α) (zero : α) (term : ℕ → α) (skip : Bool) (count : ℕ)

/-- The leaf of an index. -/
def leafAt (index : ℕ) : α := if index < count then term index else zero

/-- A logical block of `sum_blocks_kernel`, skipped when the status or the maximum is not
usable. -/
def sumBlock (blockCount block logicalBlock : ℕ) : SumTask α :=
  if logicalBlock ≥ blockCount ∨ skip = true then
    .write (.sums .a logicalBlock) zero .done
  else
    .reduceInto op (.level block) sqCudaReductionThreads
      (.team sqCudaReductionThreads
        (fun lane => if lane < sqCudaReductionThreads then [lane] else []) fun _ lane =>
          .write (.level block false lane)
            (leafAt zero term count (logicalBlock * sqCudaReductionThreads + lane)) .done)
      ((halvings (sqCudaReductionThreads / 2)).map
        (.pairs fun stride lane => if lane < stride then [lane] else []))
      (.sums .a logicalBlock)

/-- `sum_blocks_kernel`. -/
def sumBlocksKernel (grid blockCount paddedCount : ℕ) : SumTask α :=
  .team grid (fun block => strided block grid paddedCount)
    (sumBlock op zero term skip count blockCount)

/-- A pair of `reduce_pairs_kernel`. -/
def reducePair (input output : SumsBuffer) (i : ℕ) : SumTask α :=
  .read (.sums input (2 * i)) fun x =>
    .read (.sums input (2 * i + 1)) fun y => .write (.sums output i) (op x y) .done

/-- `reduce_pairs_kernel`. -/
def reducePairsKernel (grid : ℕ) (input output : SumsBuffer) (outputCount : ℕ) : SumTask α :=
  .team (grid * 256) (fun thread => strided thread (grid * 256) outputCount)
    fun _ => reducePair op input output

/-- The three levels of a lane's leaves `t[0], ..., t[7]`. -/
def laneSum (base : ℕ) : α :=
  let t : ℕ → α := fun k =>
    if base + sqCudaK1LeavesPerLane ≤ count then term (base + k)
    else if base + k < count then term (base + k) else zero
  op (op (op (t 0) (t 1)) (op (t 2) (t 3))) (op (op (t 4) (t 5)) (op (t 6) (t 7)))

/-- A chunk of `sum_warps_kernel`. -/
def sumWarp (blockCount warp chunk : ℕ) : SumTask α :=
  if skip = true ∨ chunk ≥ blockCount then .write (.sums .a chunk) zero .done
  else
    .reduceInto op (.lane warp) sqCudaWarp
      (.team sqCudaWarp (fun lane => if lane < sqCudaWarp then [lane] else [])
        fun _ lane =>
          .write (.lane warp false lane)
            (laneSum op zero term count
              (chunk * sqCudaReductionThreads + lane * sqCudaK1LeavesPerLane)) .done)
      ((doublings 1 sqCudaWarp).map (.shuffle sqCudaWarp))
      (.sums .a chunk)

/-- `sum_warps_kernel`, the warps of all blocks numbered as their first chunks are. -/
def sumWarpsKernel (grid blockCount paddedCount : ℕ) : SumTask α :=
  .team (grid * warpsPerBlock) (fun warp => strided warp (grid * warpsPerBlock) paddedCount)
    (sumWarp op zero term skip count blockCount)

/-- A segment of `reduce_tree_kernel`. -/
def reduceSegment (input output : SumsBuffer) (span block segment : ℕ) : SumTask α :=
  .reduceInto op (.level block) sqCudaReductionThreads
    (.team sqCudaReductionThreads
      (fun thread => strided thread sqCudaReductionThreads span) fun _ k =>
        .read (.sums input (segment * span + k)) fun value =>
          .write (.level block false k) value .done)
    ((halvings (span / 2)).map
      (.pairs fun width thread => strided thread sqCudaReductionThreads width))
    (.sums output segment)

/-- `reduce_tree_kernel`. -/
def reduceTreeKernel (grid : ℕ) (input output : SumsBuffer) (outputCount span : ℕ) :
    SumTask α :=
  .team grid (fun block => strided block grid outputCount) (reduceSegment op input output span)

/-- What a launch does to the partial sums. -/
def K1Kernel.sumTask : K1Kernel → SumTask α
  | .sumBlocks grid blocks padded => sumBlocksKernel op zero term skip count grid blocks padded
  | .sumWarps grid blocks padded => sumWarpsKernel op zero term skip count grid blocks padded
  | .reducePairs grid input output outputCount =>
      reducePairsKernel op grid input output outputCount
  | .reduceTree grid input output outputCount span =>
      reduceTreeKernel op grid input output outputCount span
  | .maxBlocks _ _ | .maxVector _ | .reduceMax _ | .finishScale _ => .done

/-- The root of a block: the tree over its 256 leaves, zero behind the last block. -/
def blockRoot (block : ℕ) : α :=
  if skip = false ∧ block < blockCount count then
    Tree.tree op 8 fun r => leafAt zero term count (block * sqCudaReductionThreads + r)
  else zero

end

/-! ## The discipline of the kernels -/

/-- What a block or a warp keeps for itself. -/
def scratchOf (member : ℕ) : Set SumAddr :=
  { a | (∃ side i, a = .level member side i) ∨ ∃ side i, a = .lane member side i }

/-- The partial sums that a kernel with a given output may read. -/
def inputsFor (output : SumsBuffer) : Set SumAddr :=
  { a | ∃ buffer i, a = .sums buffer i ∧ buffer ≠ output }

theorem level_injective (block : ℕ) : Function.Injective2 (SumAddr.level block) := by
  intro side side' i i' same
  cases same
  exact ⟨rfl, rfl⟩

theorem lane_injective (warp : ℕ) : Function.Injective2 (SumAddr.lane warp) := by
  intro side side' i i' same
  cases same
  exact ⟨rfl, rfl⟩

section

variable {α : Type} {n bound : ℕ} {output : SumsBuffer} {body : ℕ → ℕ → SumTask α}

theorem kernelTeam (pos : 0 < n)
    (within : ∀ b i, (body b i).Within (inputsFor output) ({.sums output i} ∪ scratchOf b))
    (free : ∀ b i, (body b i).RaceFree) :
    Task.Team n (fun b => strided b n bound) body (inputsFor output)
      (fun i => {.sums output i}) scratchOf where
  nodup := (shares_strided pos bound).nodup
  disjoint := (shares_strided pos bound).disjoint
  within := fun b _ i _ => within b i
  free := fun b _ i _ => free b i
  inputs_kept := by
    rintro _ ⟨buffer, i, rfl, different⟩
    constructor
    · rintro j same
      exact different (SumAddr.sums.inj same).1
    · rintro b (⟨_, _, same⟩ | ⟨_, _, same⟩) <;> cases same
  outputs_apart := by
    rintro i j different _ rfl same
    exact different (SumAddr.sums.inj same).2
  scratch_apart := by
    rintro b c different _ (⟨side, i, rfl⟩ | ⟨side, i, rfl⟩) (⟨_, _, same⟩ | ⟨_, _, same⟩) <;>
      cases same
    · exact different rfl
    · exact different rfl
  scratch_private := by
    rintro i b _ rfl (⟨_, _, same⟩ | ⟨_, _, same⟩) <;> cases same

/-- Such a kernel has no races, and its outputs hold what the items compute from the
inputs. -/
theorem kernel_spec (pos : 0 < n)
    (within : ∀ b i, (body b i).Within (inputsFor output) ({.sums output i} ∪ scratchOf b))
    (free : ∀ b i, (body b i).RaceFree) {m : Mem (fun _ : SumAddr => α) Empty} {value : ℕ → α}
    (computes : ∀ b, ∀ i < bound, ∀ later : Mem (fun _ : SumAddr => α) Empty,
      (∀ a ∈ inputsFor output, later.cell a = m.cell a) →
      ((body b i).eval later).cell (.sums output i) = value i) :
    (Task.team n (fun b => strided b n bound) body).RaceFree ∧
    ∀ i < bound,
      ((Task.team n (fun b => strided b n bound) body).eval m).cell (.sums output i) =
        value i := by
  have discipline : Task.Team n (fun b => strided b n bound) body _ _ _ :=
    kernelTeam pos within free
  refine ⟨discipline.raceFree, ?_⟩
  intro i below
  obtain ⟨b, bBelow, member⟩ := ((shares_strided pos bound).cover i).mp below
  exact discipline.cell bBelow member rfl m (computes b i below)

end

section

variable {α : Type} (op : α → α → α) (zero : α) (term : ℕ → α) (skip : Bool) (count : ℕ)

theorem blockRoot_of_skip {block blocks : ℕ} (same : blocks = blockCount count)
    (skipped : block ≥ blocks ∨ skip = true) :
    blockRoot op zero term skip count block = zero := by
  subst same
  rw [blockRoot, if_neg]
  rintro ⟨notSkip, inside⟩
  rcases skipped with beyond | isSkip
  · omega
  · rw [notSkip] at isSkip
    cases isSkip

theorem blockRoot_of_not_skip {block blocks : ℕ} (same : blocks = blockCount count)
    (kept : ¬ (block ≥ blocks ∨ skip = true)) :
    blockRoot op zero term skip count block =
      Tree.tree op 8 fun r => leafAt zero term count (block * sqCudaReductionThreads + r) := by
  subst same
  rw [not_or] at kept
  rw [blockRoot, if_pos ⟨by simpa using kept.2, by omega⟩]

theorem shares_halvings {n first : ℕ} {share : ℕ → ℕ → List ℕ}
    (shares : ∀ width ≤ first, Shares n (share width) width) :
    ∀ phase ∈ (halvings first).map (Task.Phase.pairs share),
      ∃ width, Shares n phase.items width := by
  intro phase member
  obtain ⟨width, level, rfl⟩ := List.mem_map.mp member
  exact ⟨width, shares width (le_of_mem_halvings level)⟩

section

variable {op zero term skip count} {grid blocks padded : ℕ} (pos : 0 < grid)
  (same : blocks = blockCount count)

include pos same

/-- `sum_blocks_kernel` has no races and stores the root of every block. -/
theorem sumBlocksKernel_spec (m : Mem (fun _ : SumAddr => α) Empty) :
    (sumBlocksKernel op zero term skip count grid blocks padded).RaceFree ∧
    ∀ i < padded,
      ((sumBlocksKernel op zero term skip count grid blocks padded).eval m).cell (.sums .a i) =
        blockRoot op zero term skip count i := by
  have threads : ∀ width ≤ 2 ^ 7, Shares sqCudaReductionThreads
      (fun lane => if lane < width then [lane] else []) width :=
    fun width small => shares_single (small.trans (by decide))
  have lanes := shares_single (le_refl sqCudaReductionThreads)
  have own : ∀ block : ℕ, Function.Injective (SumAddr.level block false) :=
    fun block => (level_injective block).right false
  refine kernel_spec pos ?_ ?_ ?_
  · intro block logicalBlock
    unfold sumBlock
    split_ifs with skipped
    · exact ⟨.inl rfl, trivial⟩
    · apply Task.within_reduceInto
      · exact Task.within_team fun _ lane => ⟨.inr (.inl ⟨_, _, rfl⟩), trivial⟩
      · exact fun side i => .inr (.inl ⟨side, i, rfl⟩)
      · exact .inl rfl
  · intro block logicalBlock
    unfold sumBlock
    split_ifs with skipped
    · trivial
    · apply Task.raceFree_reduceInto op (level_injective block)
      · exact (Task.storeTeam_spec lanes (own block) _).1
      · exact shares_halvings threads
  · intro block logicalBlock below later agree
    unfold sumBlock
    split_ifs with skipped
    · rw [blockRoot_of_skip op zero term skip count same skipped]
      exact Function.update_self ..
    · rw [blockRoot_of_not_skip op zero term skip count same skipped]
      have levels : ∀ j < 8, Shares sqCudaReductionThreads
          (fun lane => if lane < 2 ^ j then [lane] else []) (2 ^ j) := fun j small =>
        threads _ (Nat.pow_le_pow_right (by norm_num) (Nat.le_of_lt_succ small))
      exact Task.eval_reduceInto_pairs op (level_injective block) (k := 8) levels
        ((Task.storeTeam_spec lanes (own block) _).2 later)

end

theorem laneSum_eq (base : ℕ) :
    laneSum op zero term count base =
      Tree.tree op 3 fun k => leafAt zero term count (base + k) := by
  have leaves : ∀ k < 8, (if base + sqCudaK1LeavesPerLane ≤ count then term (base + k)
      else if base + k < count then term (base + k) else zero) =
        leafAt zero term count (base + k) := by
    intro k small
    unfold leafAt sqCudaK1LeavesPerLane
    split_ifs <;> first | rfl | omega
  unfold laneSum
  dsimp only
  rw [leaves 0 (by norm_num), leaves 1 (by norm_num), leaves 2 (by norm_num),
    leaves 3 (by norm_num), leaves 4 (by norm_num), leaves 5 (by norm_num),
    leaves 6 (by norm_num), leaves 7 (by norm_num)]
  rfl

theorem tree_laneSum (chunk : ℕ) :
    (Tree.tree op 5 fun lane => laneSum op zero term count
        (chunk * sqCudaReductionThreads + lane * sqCudaK1LeavesPerLane)) =
      Tree.tree op 8 fun r => leafAt zero term count (chunk * sqCudaReductionThreads + r) := by
  have split : Tree.tree op 8 (fun r =>
      leafAt zero term count (chunk * sqCudaReductionThreads + r)) = _ := Tree.tree_add 3 5 _
  rw [split]
  apply Tree.tree_congr
  intro lane _
  rw [laneSum_eq]
  apply Tree.tree_congr
  intro k _
  rw [Nat.add_assoc]
  rfl

section

variable {op zero term skip count} {grid blocks padded : ℕ} (pos : 0 < grid)
  (same : blocks = blockCount count)

include pos same

/-- `sum_warps_kernel` has no races and stores the root of every block. -/
theorem sumWarpsKernel_spec (m : Mem (fun _ : SumAddr => α) Empty) :
    (sumWarpsKernel op zero term skip count grid blocks padded).RaceFree ∧
    ∀ i < padded,
      ((sumWarpsKernel op zero term skip count grid blocks padded).eval m).cell (.sums .a i) =
        blockRoot op zero term skip count i := by
  have lanes := shares_single (le_refl sqCudaWarp)
  have own : ∀ warp : ℕ, Function.Injective (SumAddr.lane warp false) :=
    fun warp => (lane_injective warp).right false
  have warps : 0 < grid * warpsPerBlock := Nat.mul_pos pos (by decide)
  refine kernel_spec warps ?_ ?_ ?_
  · intro warp chunk
    unfold sumWarp
    split_ifs with skipped
    · exact ⟨.inl rfl, trivial⟩
    · apply Task.within_reduceInto
      · exact Task.within_team fun _ lane => ⟨.inr (.inr ⟨_, _, rfl⟩), trivial⟩
      · exact fun side i => .inr (.inr ⟨side, i, rfl⟩)
      · exact .inl rfl
  · intro warp chunk
    unfold sumWarp
    split_ifs with skipped
    · trivial
    · apply Task.raceFree_reduceInto op (lane_injective warp)
      · exact (Task.storeTeam_spec lanes (own warp) _).1
      · intro phase member
        obtain ⟨offset, -, rfl⟩ := List.mem_map.mp member
        exact ⟨sqCudaWarp, lanes⟩
  · intro warp chunk below later agree
    unfold sumWarp
    split_ifs with skipped
    · rw [blockRoot_of_skip op zero term skip count same skipped.symm]
      exact Function.update_self ..
    · rw [blockRoot_of_not_skip op zero term skip count same fun either => skipped either.symm,
        ← tree_laneSum]
      exact Task.eval_reduceInto_shuffles op (lane_injective warp) (k := 5)
        ((Task.storeTeam_spec lanes (own warp) _).2 later)

end

section

variable {op} {grid : ℕ} (pos : 0 < grid) {input output : SumsBuffer}
  (different : input ≠ output)

include pos different

/-- `reduce_pairs_kernel` has no races and combines adjacent partial sums. -/
theorem reducePairsKernel_spec (outputCount : ℕ) (m : Mem (fun _ : SumAddr => α) Empty) :
    (reducePairsKernel op grid input output outputCount).RaceFree ∧
    ∀ i < outputCount,
      ((reducePairsKernel op grid input output outputCount).eval m).cell (.sums output i) =
        Tree.tree op 1 fun r => m.cell (.sums input (i * 2 ^ 1 + r)) := by
  have reads : ∀ k, SumAddr.sums input k ∈ inputsFor output := fun k => ⟨input, k, rfl, different⟩
  refine kernel_spec (Nat.mul_pos pos (by norm_num)) ?_ ?_ ?_
  · exact fun _ i => ⟨.inl (reads _), fun _ => ⟨.inl (reads _), fun _ => ⟨.inl rfl, trivial⟩⟩⟩
  · exact fun _ _ _ _ => trivial
  · intro thread i below later agree
    have twice : i * 2 ^ 1 = 2 * i := by ring
    rw [Tree.tree, Tree.tree, Tree.pairs, twice, ← agree _ (reads _), ← agree _ (reads _)]
    exact Function.update_self ..

/-- `reduce_tree_kernel` has no races and combines runs of adjacent partial sums. -/
theorem reduceTreeKernel_spec (outputCount k : ℕ) (m : Mem (fun _ : SumAddr => α) Empty) :
    (reduceTreeKernel op grid input output outputCount (2 ^ k)).RaceFree ∧
    ∀ i < outputCount,
      ((reduceTreeKernel op grid input output outputCount (2 ^ k)).eval m).cell
          (.sums output i) =
        Tree.tree op k fun r => m.cell (.sums input (i * 2 ^ k + r)) := by
  have reads : ∀ k, SumAddr.sums input k ∈ inputsFor output := fun k => ⟨input, k, rfl, different⟩
  have threads : ∀ width, Shares sqCudaReductionThreads
      (fun thread => strided thread sqCudaReductionThreads width) width :=
    shares_strided (by decide)
  have own : ∀ block : ℕ, Function.Injective (SumAddr.level block false) :=
    fun block => (level_injective block).right false
  refine kernel_spec pos ?_ ?_ ?_
  · intro block segment
    apply Task.within_reduceInto
    · exact Task.within_team fun _ lane =>
        ⟨.inl (reads _), fun _ => ⟨.inr (.inl ⟨_, _, rfl⟩), trivial⟩⟩
    · exact fun side i => .inr (.inl ⟨side, i, rfl⟩)
    · exact .inl rfl
  · intro block segment
    apply Task.raceFree_reduceInto op (level_injective block)
    · exact (Task.copyTeam_spec (threads _) (own block)
        fun _ _ => SumAddr.noConfusion).1
    · exact shares_halvings fun width _ => threads width
  · intro block segment below later agree
    apply Task.eval_reduceInto_pairs op (level_injective block)
    · exact fun j _ => threads _
    · intro i small
      rw [← agree _ (reads _)]
      exact (Task.copyTeam_spec (threads _) (own block)
        fun _ _ => SumAddr.noConfusion).2 later i small

end

end

end Stoquant

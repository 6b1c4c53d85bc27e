import Stoquant.Cuda.Scanned

/-!
# What the maximum kernels compute

Both scans leave partial results that stand for all values, and `reduce_max_kernel` makes
of them the largest magnitude, and the status of a value that is not finite.
-/

namespace Stoquant

open Ieee Loop Par

/-! ## `max_blocks_kernel` -/

theorem scanInto_raceFree (indices : List ℕ) (maxCell invalidCell : MaxAddr) :
    (scanInto indices maxCell invalidCell).RaceFree := by
  unfold scanInto
  generalize f32Bits zeroF = localMax
  generalize 0#32 = localInvalid
  induction indices generalizing localMax localInvalid with
  | nil => trivial
  | cons i rest ih => exact fun _ => ih _ _

theorem eval_scanInto (indices : List ℕ) {maxCell invalidCell : MaxAddr}
    (different : maxCell ≠ invalidCell) (m : Mem (fun _ : MaxAddr => Word) Empty) :
    Scanned (inputWords m) { i | i ∈ indices }
      (((scanInto indices maxCell invalidCell).eval m).cell maxCell)
      (((scanInto indices maxCell invalidCell).eval m).cell invalidCell) := by
  obtain ⟨max, invalid, ran, scanned⟩ := eval_absorbValues indices
    (fun localMax localInvalid =>
      .write maxCell localMax (.write invalidCell localInvalid .done)) m Scanned.empty
  rw [Set.empty_union] at scanned
  unfold scanInto
  rw [ran]
  simpa [Task.eval, Mem.set, Function.update_of_ne different] using scanned

theorem eval_copyPair (maxSource invalidSource : MaxAddr) {maxCell invalidCell : MaxAddr}
    (different : maxCell ≠ invalidCell) (m : Mem (fun _ : MaxAddr => Word) Empty) :
    ((copyPair maxSource invalidSource maxCell invalidCell).eval m).cell maxCell =
        m.cell maxSource ∧
      ((copyPair maxSource invalidSource maxCell invalidCell).eval m).cell invalidCell =
        m.cell invalidSource := by
  constructor
  · exact (Function.update_of_ne different _ _).trans (Function.update_self ..)
  · exact Function.update_self ..

/-- The thread of a block or a warp that owns a word of its own. -/
def laneOwner : MaxAddr → Option ℕ
  | .laneMax _ _ lane => some lane
  | .laneInvalid _ _ lane => some lane
  | .blockMax _ lane => some lane
  | .blockInvalid _ lane => some lane
  | _ => none

/-- The shared arrays of a block. -/
def blockScratch (block : ℕ) : Set MaxAddr :=
  { a | ∃ lane, a = .blockMax block lane ∨ a = .blockInvalid block lane }

/-- The values of a logical block. -/
def blockValues (count logicalBlock : ℕ) : Set ℕ :=
  { i | i < count ∧ i / sqCudaReductionThreads = logicalBlock }

section

variable (count block logicalBlock : ℕ)

theorem maxBlock_lanes_within : ∀ lane < sqCudaReductionThreads,
    (scanInto (blockIndices count logicalBlock lane) (.blockMax block lane)
      (.blockInvalid block lane)).Within (Task.unowned laneOwner) (Task.owned laneOwner lane) :=
  fun _ _ => within_absorbValues (fun _ => rfl) fun _ _ => ⟨rfl, rfl, trivial⟩

theorem maxBlock_raceFree : (maxBlock count block logicalBlock).RaceFree := by
  refine ⟨?_, ?_, fun _ _ => trivial⟩
  · apply Task.raceFree_owned (maxBlock_lanes_within count block logicalBlock)
    exact fun _ _ => scanInto_raceFree _ _ _
  · apply maxLevels_raceFree
    intro stride member
    exact (le_of_mem_halvings member).trans (by decide)

theorem lanesBelow_blockValues :
    lanesBelow sqCudaReductionThreads (fun lane =>
      { i | i ∈ blockIndices count logicalBlock lane }) = blockValues count logicalBlock := by
  ext i
  constructor
  · rintro ⟨lane, below, member⟩
    rw [Set.mem_ofPred_eq, blockIndices] at member
    split at member
    · rename_i inside
      obtain rfl := List.mem_singleton.mp member
      refine ⟨inside, ?_⟩
      unfold sqCudaReductionThreads at *
      omega
    · cases member
  · rintro ⟨inside, rfl⟩
    have recompose := Nat.div_add_mod' i sqCudaReductionThreads
    refine ⟨i % sqCudaReductionThreads, Nat.mod_lt i (by decide), ?_⟩
    rw [Set.mem_ofPred_eq, blockIndices, recompose, if_pos inside]
    exact List.mem_singleton_self i

theorem eval_thenCopyPair (first second : MaxTask)
    {maxSource invalidSource maxCell invalidCell : MaxAddr} (different : maxCell ≠ invalidCell)
    {value : ℕ → Word} {s : Set ℕ} {m : Mem (fun _ : MaxAddr => Word) Empty}
    (scanned : Scanned value s ((second.eval (first.eval m)).cell maxSource)
      ((second.eval (first.eval m)).cell invalidSource)) :
    let task := Task.seq first
      (.seq second (copyPair maxSource invalidSource maxCell invalidCell))
    Scanned value s ((task.eval m).cell maxCell) ((task.eval m).cell invalidCell) := by
  obtain ⟨max, invalid⟩ := eval_copyPair maxSource invalidSource different
    (second.eval (first.eval m))
  dsimp only [Task.eval] at max invalid ⊢
  rw [max, invalid]
  exact scanned

theorem eval_maxBlock (m : Mem (fun _ : MaxAddr => Word) Empty) :
    Scanned (inputWords m) (blockValues count logicalBlock)
      (((maxBlock count block logicalBlock).eval m).cell (.maxPartial logicalBlock))
      (((maxBlock count block logicalBlock).eval m).cell (.invalidPartial logicalBlock)) := by
  have lanes := maxBlock_lanes_within count block logicalBlock
  apply eval_thenCopyPair _ _ (fun same => MaxAddr.noConfusion same)
  rw [← lanesBelow_blockValues]
  apply eval_allLevels
  intro lane inBlock
  rw [Task.eval_owned lanes inBlock rfl, Task.eval_owned lanes inBlock rfl]
  exact eval_scanInto _ (fun same => MaxAddr.noConfusion same) m

end

section

variable {grid : ℕ} (pos : 0 < grid) (count blocks : ℕ)

include pos

theorem maxBlocksTeam :
    Task.Team grid (fun block => strided block grid blocks) (maxBlock count)
      (Set.range MaxAddr.value) (fun i => {.maxPartial i, .invalidPartial i}) blockScratch where
  nodup := (shares_strided pos blocks).nodup
  disjoint := (shares_strided pos blocks).disjoint
  within := by
    intro block _ logicalBlock _
    have max : MaxAddr.maxPartial logicalBlock ∈
        ({.maxPartial logicalBlock, .invalidPartial logicalBlock} : Set MaxAddr) ∪
          blockScratch block := .inl (.inl rfl)
    have invalid : MaxAddr.invalidPartial logicalBlock ∈
        ({.maxPartial logicalBlock, .invalidPartial logicalBlock} : Set MaxAddr) ∪
          blockScratch block := .inl (.inr rfl)
    have cells : ∀ lane, MaxAddr.blockMax block lane ∈
        ({.maxPartial logicalBlock, .invalidPartial logicalBlock} : Set MaxAddr) ∪
          blockScratch block := fun lane => .inr ⟨lane, .inl rfl⟩
    have flags : ∀ lane, MaxAddr.blockInvalid block lane ∈
        ({.maxPartial logicalBlock, .invalidPartial logicalBlock} : Set MaxAddr) ∪
          blockScratch block := fun lane => .inr ⟨lane, .inr rfl⟩
    refine ⟨?_, ?_, .inr (cells 0), fun _ => ⟨.inr (flags 0), fun _ => ⟨max, invalid, trivial⟩⟩⟩
    · apply Task.within_threads
      intro lane _
      exact within_absorbValues (Set.mem_range_self ·) fun _ _ => ⟨cells lane, flags lane, trivial⟩
    · apply Task.within_forEach
      intro stride _
      apply Task.within_team
      intro _ lane
      constructor
      · refine ⟨.inr (cells _), fun _ => ⟨.inr (cells _), fun _ => ?_⟩⟩
        dsimp only
        split
        · exact ⟨cells _, trivial⟩
        · trivial
      · exact ⟨.inr (flags _), fun _ => ⟨.inr (flags _), fun _ => ⟨flags _, trivial⟩⟩⟩
  free := fun block _ logicalBlock _ => maxBlock_raceFree count block logicalBlock
  inputs_kept := by
    rintro _ ⟨i, rfl⟩
    constructor
    · rintro j (same | same) <;> cases same
    · rintro block ⟨lane, same | same⟩ <;> cases same
  outputs_apart := by
    rintro i j different _ (rfl | rfl) (same | same) <;> cases same
    · exact different rfl
    · exact different rfl
  scratch_apart := by
    rintro b c different _ ⟨lane, rfl | rfl⟩ ⟨_, same | same⟩ <;> cases same
    · exact different rfl
    · exact different rfl
  scratch_private := by
    rintro i b _ (rfl | rfl) ⟨lane, same | same⟩ <;> cases same

theorem maxBlocksKernel_raceFree : (maxBlocksKernel grid count blocks).RaceFree :=
  (maxBlocksTeam pos count blocks).raceFree

/-- `max_blocks_kernel` stores the pair of every logical block. -/
theorem maxBlocksKernel_eval (m : Mem (fun _ : MaxAddr => Word) Empty) {i : ℕ}
    (below : i < blocks) :
    Scanned (inputWords m) (blockValues count i)
      (((maxBlocksKernel grid count blocks).eval m).cell (.maxPartial i))
      (((maxBlocksKernel grid count blocks).eval m).cell (.invalidPartial i)) := by
  obtain ⟨block, inGrid, member⟩ := ((shares_strided pos blocks).cover i).mp below
  obtain ⟨k, agree, outputs⟩ := (maxBlocksTeam pos count blocks).item inGrid member m
  have max := outputs (.maxPartial i) (.inl rfl)
  have invalid := outputs (.invalidPartial i) (.inr rfl)
  have scanned := eval_maxBlock count block i k
  rw [← max, ← invalid] at scanned
  exact scanned.congr fun j => (agree (.value j) (Set.mem_range_self j)).symm

end

/-! ## `max_vector_kernel` -/

/-- The warp of a block that owns a word. -/
def warpOwner : MaxAddr → Option ℕ
  | .laneMax warp _ _ => some (warp % warpsPerBlock)
  | .laneInvalid warp _ _ => some (warp % warpsPerBlock)
  | .warpMax _ w => some w
  | .warpInvalid _ w => some w
  | _ => none

/-- The block that owns a word. -/
def blockOwner : MaxAddr → Option ℕ
  | .laneMax warp _ _ => some (warp / warpsPerBlock)
  | .laneInvalid warp _ _ => some (warp / warpsPerBlock)
  | .warpMax block _ => some block
  | .warpInvalid block _ => some block
  | .maxPartial block => some block
  | .invalidPartial block => some block
  | _ => none

/-- The values that a lane of `max_vector_kernel` scans. -/
abbrev laneIndices (grid count block w lane : ℕ) : List ℕ :=
  vectorIndices (block * sqCudaReductionThreads + (w * sqCudaWarp + lane))
    (grid * sqCudaReductionThreads) count

/-- What a warp does before the barrier. -/
abbrev scanWarp (grid count block w : ℕ) : MaxTask :=
  .seq
    (.threads sqCudaWarp fun lane =>
      scanInto (laneIndices grid count block w lane)
        (.laneMax (block * warpsPerBlock + w) false lane)
        (.laneInvalid (block * warpsPerBlock + w) false lane))
    (storeWarp block w)

/-- What a block does. -/
abbrev vectorBlock (grid count block : ℕ) : MaxTask :=
  .seq (.threads warpsPerBlock (scanWarp grid count block)) (storeBlock block)

/-- The values that a warp scans. -/
def warpValues (grid count block w : ℕ) : Set ℕ :=
  lanesBelow sqCudaWarp fun lane => { i | i ∈ laneIndices grid count block w lane }

/-- The values that a block scans. -/
def vectorValues (grid count block : ℕ) : Set ℕ :=
  lanesBelow warpsPerBlock (warpValues grid count block)

theorem warp_of_block (block : ℕ) {w : ℕ} (below : w < warpsPerBlock) :
    (block * warpsPerBlock + w) % warpsPerBlock = w ∧
      (block * warpsPerBlock + w) / warpsPerBlock = block := by
  have pos : 0 < warpsPerBlock := by decide
  constructor
  · rw [Nat.mul_add_mod', Nat.mod_eq_of_lt below]
  · rw [Nat.mul_comm, Nat.mul_add_div pos, Nat.div_eq_of_lt below, Nat.add_zero]

section

variable (grid count block : ℕ) {w : ℕ}

theorem scanWarp_lanes_within : ∀ lane < sqCudaWarp,
    (scanInto (laneIndices grid count block w lane)
      (.laneMax (block * warpsPerBlock + w) false lane)
      (.laneInvalid (block * warpsPerBlock + w) false lane)).Within
      (Task.unowned laneOwner) (Task.owned laneOwner lane) :=
  fun _ _ => within_absorbValues (fun _ => rfl) fun _ _ => ⟨rfl, rfl, trivial⟩

theorem scanWarp_within {owner : MaxAddr → Option ℕ} {member : ℕ}
    (values : ∀ i, owner (.value i) = none)
    (lanes : ∀ side lane, owner (.laneMax (block * warpsPerBlock + w) side lane) = some member ∧
      owner (.laneInvalid (block * warpsPerBlock + w) side lane) = some member)
    (results : owner (.warpMax block w) = some member ∧
      owner (.warpInvalid block w) = some member) :
    (scanWarp grid count block w).Within (Task.unowned owner) (Task.owned owner member) := by
  constructor
  · apply Task.within_threads
    intro lane _
    exact within_absorbValues values fun _ _ =>
      ⟨(lanes false lane).1, (lanes false lane).2, trivial⟩
  · apply within_shuffleMax lanes
    intro side
    exact ⟨.inr (lanes side 0).1, fun _ => ⟨.inr (lanes side 0).2, fun _ =>
      ⟨results.1, results.2, trivial⟩⟩⟩

theorem vectorBlock_warps_within : ∀ w < warpsPerBlock,
    (scanWarp grid count block w).Within (Task.unowned warpOwner) (Task.owned warpOwner w) := by
  intro w below
  have own := congrArg some (warp_of_block block below).1
  exact scanWarp_within grid count block (fun _ => rfl) (fun _ _ => ⟨own, own⟩) ⟨rfl, rfl⟩

theorem vectorBlock_within :
    (vectorBlock grid count block).Within (Task.unowned blockOwner)
      (Task.owned blockOwner block) := by
  constructor
  · apply Task.within_threads
    intro w below
    have own := congrArg some (warp_of_block block below).2
    exact scanWarp_within grid count block (fun _ => rfl) (fun _ _ => ⟨own, own⟩) ⟨rfl, rfl⟩
  · refine ⟨.inr rfl, fun _ => ⟨.inr rfl, fun _ => ?_⟩⟩
    exact within_absorbWarps (fun _ => ⟨rfl, rfl⟩) fun _ _ => ⟨rfl, rfl, trivial⟩

theorem scanWarp_raceFree : (scanWarp grid count block w).RaceFree := by
  constructor
  · apply Task.raceFree_owned (scanWarp_lanes_within grid count block)
    exact fun _ _ => scanInto_raceFree _ _ _
  · exact shuffleMax_raceFree _ _ fun _ _ _ => trivial

theorem absorbWarps_raceFree (warps : List ℕ) {localMax localInvalid : Word}
    {next : Word → Word → MaxTask} (free : ∀ max invalid, (next max invalid).RaceFree) :
    (absorbWarps block warps localMax localInvalid next).RaceFree := by
  induction warps generalizing localMax localInvalid with
  | nil => exact free _ _
  | cons w rest ih => exact fun _ _ => ih

theorem vectorBlock_raceFree : (vectorBlock grid count block).RaceFree := by
  constructor
  · apply Task.raceFree_owned (vectorBlock_warps_within grid count block)
    exact fun _ _ => scanWarp_raceFree grid count block
  · exact fun _ _ => absorbWarps_raceFree block _ fun _ _ => trivial

theorem maxVectorKernel_eq :
    maxVectorKernel grid count = .threads grid (vectorBlock grid count) := rfl

theorem maxVectorKernel_raceFree : (maxVectorKernel grid count).RaceFree := by
  rw [maxVectorKernel_eq]
  apply Task.raceFree_owned fun block _ => vectorBlock_within grid count block
  exact fun block _ => vectorBlock_raceFree grid count block

theorem eval_storeWarp {value : ℕ → Word} {indices : ℕ → Set ℕ}
    {m : Mem (fun _ : MaxAddr => Word) Empty}
    (holds : ∀ lane < sqCudaWarp, Scanned value (indices lane)
      (m.cell (.laneMax (block * warpsPerBlock + w) false lane))
      (m.cell (.laneInvalid (block * warpsPerBlock + w) false lane))) :
    Scanned value (lanesBelow sqCudaWarp indices)
      (((storeWarp block w).eval m).cell (.warpMax block w))
      (((storeWarp block w).eval m).cell (.warpInvalid block w)) := by
  have width : sqCudaWarp = 2 ^ 5 := by norm_num [sqCudaWarp]
  obtain ⟨final, later, ran, scanned⟩ := eval_shuffleMax (k := 5) width.ge false
    (fun side => copyPair (.laneMax (block * warpsPerBlock + w) side 0)
      (.laneInvalid (block * warpsPerBlock + w) side 0) (.warpMax block w) (.warpInvalid block w))
    m (by rwa [width] at holds)
  rw [← width] at ran scanned
  have different : MaxAddr.warpMax block w ≠ .warpInvalid block w := nofun
  obtain ⟨max, invalid⟩ := eval_copyPair (.laneMax (block * warpsPerBlock + w) final 0)
    (.laneInvalid (block * warpsPerBlock + w) final 0) different later
  unfold storeWarp
  dsimp only
  rw [ran, max, invalid]
  exact scanned

theorem eval_scanWarp (m : Mem (fun _ : MaxAddr => Word) Empty) :
    Scanned (inputWords m) (warpValues grid count block w)
      (((scanWarp grid count block w).eval m).cell (.warpMax block w))
      (((scanWarp grid count block w).eval m).cell (.warpInvalid block w)) := by
  have lanes := scanWarp_lanes_within grid count block (w := w)
  apply eval_storeWarp
  intro lane inWarp
  rw [Task.eval_owned lanes inWarp rfl, Task.eval_owned lanes inWarp rfl]
  exact eval_scanInto _ (fun same => MaxAddr.noConfusion same) m

theorem eval_absorbWarps {value : ℕ → Word} {indices : ℕ → Set ℕ} (warps : List ℕ) {s : Set ℕ}
    {localMax localInvalid : Word} (next : Word → Word → MaxTask)
    {m : Mem (fun _ : MaxAddr => Word) Empty}
    (holds : ∀ w ∈ warps, Scanned value (indices w) (m.cell (.warpMax block w))
      (m.cell (.warpInvalid block w)))
    (before : Scanned value s localMax localInvalid) :
    ∃ max invalid,
      (absorbWarps block warps localMax localInvalid next).eval m = (next max invalid).eval m ∧
      Scanned value (s ∪ { i | ∃ w ∈ warps, i ∈ indices w }) max invalid := by
  induction warps generalizing s localMax localInvalid with
  | nil =>
      refine ⟨_, _, rfl, ?_⟩
      simpa using before
  | cons w rest ih =>
      have both := before.union (holds w List.mem_cons_self)
      obtain ⟨max, invalid, ran, after⟩ :=
        ih (fun w member => holds w (List.mem_cons_of_mem _ member)) both
      refine ⟨max, invalid, ran, ?_⟩
      have same : s ∪ { i | ∃ u ∈ w :: rest, i ∈ indices u } =
          s ∪ indices w ∪ { i | ∃ u ∈ rest, i ∈ indices u } := by
        ext i
        simp only [Set.mem_union, Set.mem_ofPred_eq, List.mem_cons, exists_eq_or_imp, or_assoc]
      rw [same]
      exact after

theorem eval_storeBlock {value : ℕ → Word} {indices : ℕ → Set ℕ}
    {m : Mem (fun _ : MaxAddr => Word) Empty}
    (holds : ∀ w < warpsPerBlock, Scanned value (indices w) (m.cell (.warpMax block w))
      (m.cell (.warpInvalid block w))) :
    Scanned value (lanesBelow warpsPerBlock indices)
      (((storeBlock block).eval m).cell (.maxPartial block))
      (((storeBlock block).eval m).cell (.invalidPartial block)) := by
  have pos : 0 < warpsPerBlock := by decide
  obtain ⟨max, invalid, ran, scanned⟩ := eval_absorbWarps block
    (List.range' 1 (warpsPerBlock - 1))
    (fun localMax localInvalid => .write (.maxPartial block) localMax
      (.write (.invalidPartial block) localInvalid .done))
    (fun w member => holds w (by have := List.mem_range'_1.mp member; omega)) (holds 0 pos)
  have warps : indices 0 ∪ { i | ∃ w ∈ List.range' 1 (warpsPerBlock - 1), i ∈ indices w } =
      lanesBelow warpsPerBlock indices := by
    ext i
    simp only [Set.mem_union, Set.mem_ofPred_eq, lanesBelow, List.mem_range'_1]
    constructor
    · rintro (first | ⟨w, inside, member⟩)
      · exact ⟨0, pos, first⟩
      · exact ⟨w, by omega, member⟩
    · rintro ⟨w, inside, member⟩
      by_cases first : w = 0
      · exact .inl (first ▸ member)
      · exact .inr ⟨w, by omega, member⟩
  rw [warps] at scanned
  unfold storeBlock
  rw [Task.eval, Task.eval, ran]
  simpa [Task.eval, Mem.set] using scanned

theorem eval_vectorBlock (m : Mem (fun _ : MaxAddr => Word) Empty) :
    Scanned (inputWords m) (vectorValues grid count block)
      (((vectorBlock grid count block).eval m).cell (.maxPartial block))
      (((vectorBlock grid count block).eval m).cell (.invalidPartial block)) := by
  have warps := vectorBlock_warps_within grid count block
  apply eval_storeBlock
  intro w inBlock
  rw [Task.eval_owned warps inBlock rfl, Task.eval_owned warps inBlock rfl]
  exact eval_scanWarp grid count block m

/-- `max_vector_kernel` stores the pair of every block. -/
theorem maxVectorKernel_eval (m : Mem (fun _ : MaxAddr => Word) Empty) {block : ℕ}
    (inGrid : block < grid) :
    Scanned (inputWords m) (vectorValues grid count block)
      (((maxVectorKernel grid count).eval m).cell (.maxPartial block))
      (((maxVectorKernel grid count).eval m).cell (.invalidPartial block)) := by
  have blocks : ∀ block < grid, (vectorBlock grid count block).Within
      (Task.unowned blockOwner) (Task.owned blockOwner block) :=
    fun block _ => vectorBlock_within grid count block
  rw [maxVectorKernel_eq, Task.eval_owned blocks inGrid rfl, Task.eval_owned blocks inGrid rfl]
  exact eval_vectorBlock grid count block m

/-- The blocks scan every value. -/
theorem lanesBelow_vectorValues {grid : ℕ} (pos : 0 < grid) (count : ℕ) :
    lanesBelow grid (vectorValues grid count) = { i | i < count } := by
  have enough : 4 ≤ grid * sqCudaReductionThreads := by
    unfold sqCudaReductionThreads
    omega
  ext i
  have scanned : (∃ t < grid * sqCudaReductionThreads,
      i ∈ vectorIndices t (grid * sqCudaReductionThreads) count) ↔ i < count := by
    have total := sum_count_vectorIndices enough count i
    constructor
    · rintro ⟨t, below, member⟩
      by_contra beyond
      rw [if_neg beyond, Finset.sum_eq_zero_iff] at total
      exact absurd (total t (Finset.mem_range.mpr below)) (List.count_pos_iff.mpr member).ne'
    · intro inside
      rw [if_pos inside] at total
      obtain ⟨t, below, counted⟩ := Finset.exists_ne_zero_of_sum_ne_zero
        (total.trans_ne one_ne_zero)
      exact ⟨t, Finset.mem_range.mp below,
        List.count_pos_iff.mp (Nat.pos_of_ne_zero counted)⟩
  rw [Set.mem_ofPred_eq, ← scanned]
  have warpsWidth : warpsPerBlock * sqCudaWarp = sqCudaReductionThreads := rfl
  constructor
  · rintro ⟨block, inGrid, w, inBlock, lane, inWarp, member⟩
    refine ⟨_, ?_, member⟩
    have row : w * sqCudaWarp + lane < sqCudaReductionThreads := by
      unfold warpsPerBlock sqCudaReductionThreads sqCudaWarp at *
      omega
    have last := Nat.mul_le_mul_right sqCudaReductionThreads (show block + 1 ≤ grid from inGrid)
    rw [Nat.succ_mul] at last
    omega
  · rintro ⟨t, below, member⟩
    have inGrid := Nat.div_lt_of_lt_mul (by rwa [Nat.mul_comm] at below)
    refine ⟨t / sqCudaReductionThreads, inGrid, t % sqCudaReductionThreads / sqCudaWarp, ?_,
      t % sqCudaReductionThreads % sqCudaWarp, Nat.mod_lt _ (by decide), ?_⟩
    · unfold warpsPerBlock sqCudaReductionThreads sqCudaWarp
      omega
    · have recompose : t / sqCudaReductionThreads * sqCudaReductionThreads +
          (t % sqCudaReductionThreads / sqCudaWarp * sqCudaWarp +
            t % sqCudaReductionThreads % sqCudaWarp) = t := by
        unfold sqCudaReductionThreads sqCudaWarp
        omega
      rw [Set.mem_ofPred_eq, laneIndices, recompose]
      exact member

end

/-! ## `reduce_max_kernel` -/

/-- The words that `reduce_max_kernel` touches, its shared arrays being those of its one
block, and the scale and the status that it stores. -/
inductive ScaleAddr where
  | scan (a : MaxAddr)
  | scale
  | status
  deriving DecidableEq

/-- The types of the cells. -/
abbrev ScaleAddr.Val : ScaleAddr → Type
  | .scan _ => Word
  | .scale => F32
  | .status => SqStatus

/-- Tasks of `reduce_max_kernel`. -/
abbrev ScaleTask := Task ScaleAddr.Val Empty

/-- The loop of a thread over the partial results. -/
def absorbPartials : List ℕ → Word → Word → (Word → Word → MaxTask) → MaxTask
  | [], localMax, localInvalid, next => next localMax localInvalid
  | i :: rest, localMax, localInvalid, next =>
      .read (.maxPartial i) fun otherMax =>
        .read (.invalidPartial i) fun otherInvalid =>
          absorbPartials rest (largerMax localMax otherMax) (localInvalid ||| otherInvalid) next

/-- `reduce_max_kernel` up to its last barrier. -/
def reduceMaxScan (partials : ℕ) : MaxTask :=
  .seq
    (.threads sqCudaReductionThreads fun lane =>
      absorbPartials (strided lane sqCudaReductionThreads partials) (f32Bits zeroF) 0#32
        fun localMax localInvalid =>
          .write (.blockMax 0 lane) localMax (.write (.blockInvalid 0 lane) localInvalid .done))
    (.forEach (halvings (sqCudaReductionThreads / 2)) fun stride => maxLevel 0 stride)

/-- What the first thread of `reduce_max_kernel` stores. -/
def storeMaximum : ScaleTask :=
  .read (.scan (.blockMax 0 0)) fun largest : Word =>
    .read (.scan (.blockInvalid 0 0)) fun invalid : Word =>
      .write .scale (ofF32Bits largest)
        (.write .status (if invalid ≠ 0#32 then SqStatus.errNonfinite else .ok) .done)

/-- `reduce_max_kernel`. -/
def reduceMaxKernel (partials : ℕ) : ScaleTask :=
  .seq (Task.embed ScaleAddr.scan (reduceMaxScan partials)) storeMaximum

section

variable {reads writes : Set MaxAddr}

theorem within_absorbPartials (partials : List ℕ)
    (cells : ∀ i, .maxPartial i ∈ reads ∧ .invalidPartial i ∈ reads) {localMax localInvalid : Word}
    {next : Word → Word → MaxTask}
    (within : ∀ max invalid, (next max invalid).Within reads writes) :
    (absorbPartials partials localMax localInvalid next).Within reads writes := by
  induction partials generalizing localMax localInvalid with
  | nil => exact within _ _
  | cons i rest ih => exact ⟨.inl (cells i).1, fun _ => ⟨.inl (cells i).2, fun _ => ih⟩⟩

theorem absorbPartials_raceFree (partials : List ℕ) {localMax localInvalid : Word}
    {next : Word → Word → MaxTask} (free : ∀ max invalid, (next max invalid).RaceFree) :
    (absorbPartials partials localMax localInvalid next).RaceFree := by
  induction partials generalizing localMax localInvalid with
  | nil => exact free _ _
  | cons i rest ih => exact fun _ _ => ih

end

theorem reduceMax_lanes_within (partials : ℕ) : ∀ lane < sqCudaReductionThreads,
    (absorbPartials (strided lane sqCudaReductionThreads partials) (f32Bits zeroF) 0#32
      fun localMax localInvalid => .write (.blockMax 0 lane) localMax
        (.write (.blockInvalid 0 lane) localInvalid .done)).Within
      (Task.unowned laneOwner) (Task.owned laneOwner lane) :=
  fun _ _ => within_absorbPartials _ (fun _ => ⟨rfl, rfl⟩) fun _ _ => ⟨rfl, rfl, trivial⟩

theorem reduceMaxScan_raceFree (partials : ℕ) : (reduceMaxScan partials).RaceFree := by
  constructor
  · apply Task.raceFree_owned (reduceMax_lanes_within partials)
    exact fun _ _ => absorbPartials_raceFree _ fun _ _ => trivial
  · apply maxLevels_raceFree
    intro stride member
    exact (le_of_mem_halvings member).trans (by decide)

theorem reduceMaxKernel_raceFree (partials : ℕ) : (reduceMaxKernel partials).RaceFree :=
  ⟨(reduceMaxScan_raceFree partials).embed (fun _ _ => ScaleAddr.scan.inj), fun _ _ => trivial⟩

section

variable {value : ℕ → Word} {indices : ℕ → Set ℕ}

theorem eval_absorbPartials (partials : List ℕ) {s : Set ℕ} {localMax localInvalid : Word}
    (next : Word → Word → MaxTask) {m : Mem (fun _ : MaxAddr => Word) Empty}
    (holds : ∀ p ∈ partials, Scanned value (indices p) (m.cell (.maxPartial p))
      (m.cell (.invalidPartial p)))
    (before : Scanned value s localMax localInvalid) :
    ∃ max invalid,
      (absorbPartials partials localMax localInvalid next).eval m = (next max invalid).eval m ∧
      Scanned value (s ∪ { i | ∃ p ∈ partials, i ∈ indices p }) max invalid := by
  induction partials generalizing s localMax localInvalid with
  | nil =>
      refine ⟨_, _, rfl, ?_⟩
      simpa using before
  | cons p rest ih =>
      have both := before.union (holds p List.mem_cons_self)
      obtain ⟨max, invalid, ran, after⟩ :=
        ih (fun q member => holds q (List.mem_cons_of_mem _ member)) both
      refine ⟨max, invalid, ran, ?_⟩
      have same : s ∪ { i | ∃ q ∈ p :: rest, i ∈ indices q } =
          s ∪ indices p ∪ { i | ∃ q ∈ rest, i ∈ indices q } := by
        ext i
        simp only [Set.mem_union, Set.mem_ofPred_eq, List.mem_cons, exists_eq_or_imp, or_assoc]
      rw [same]
      exact after

theorem lanesBelow_strided (partials : ℕ) (indices : ℕ → Set ℕ) :
    (lanesBelow sqCudaReductionThreads fun lane =>
      { i | ∃ p ∈ strided lane sqCudaReductionThreads partials, i ∈ indices p }) =
      lanesBelow partials indices := by
  have shares : Shares sqCudaReductionThreads _ partials := shares_strided (by decide) partials
  ext i
  constructor
  · rintro ⟨lane, inBlock, p, member, inside⟩
    exact ⟨p, (shares.cover p).mpr ⟨lane, inBlock, member⟩, inside⟩
  · rintro ⟨p, below, inside⟩
    obtain ⟨lane, inBlock, member⟩ := (shares.cover p).mp below
    exact ⟨lane, inBlock, p, member, inside⟩

/-- `reduce_max_kernel` leaves the pair of all partial results in its first cells. -/
theorem eval_reduceMaxScan {partials : ℕ} {m : Mem (fun _ : MaxAddr => Word) Empty}
    (holds : ∀ p < partials, Scanned value (indices p) (m.cell (.maxPartial p))
      (m.cell (.invalidPartial p))) :
    Scanned value (lanesBelow partials indices)
      (((reduceMaxScan partials).eval m).cell (.blockMax 0 0))
      (((reduceMaxScan partials).eval m).cell (.blockInvalid 0 0)) := by
  have lanes := reduceMax_lanes_within partials
  have shares : Shares sqCudaReductionThreads _ partials := shares_strided (by decide) partials
  unfold reduceMaxScan
  rw [← lanesBelow_strided, Task.eval]
  apply eval_allLevels
  intro lane inBlock
  obtain ⟨max, invalid, ran, scanned⟩ := eval_absorbPartials
    (strided lane sqCudaReductionThreads partials)
    (fun localMax localInvalid => .write (.blockMax 0 lane) localMax
      (.write (.blockInvalid 0 lane) localInvalid .done))
    (fun p member => holds p ((shares.cover p).mpr ⟨lane, inBlock, member⟩)) Scanned.empty
  rw [Set.empty_union] at scanned
  rw [Task.eval_owned lanes inBlock rfl, Task.eval_owned lanes inBlock rfl, ran]
  simpa [Task.eval, Mem.set] using scanned

end

theorem eval_storeMaximum (m : Mem ScaleAddr.Val Empty) :
    (storeMaximum.eval m).cell .status =
        (if (m.part ScaleAddr.scan).cell (.blockInvalid 0 0) ≠ 0#32 then .errNonfinite
          else .ok) ∧
      (storeMaximum.eval m).cell .scale =
        ofF32Bits ((m.part ScaleAddr.scan).cell (.blockMax 0 0)) := by
  unfold storeMaximum
  simp only [Task.eval, Mem.set, Mem.part]
  exact ⟨Function.update_self .., (Function.update_of_ne (by decide) _ _).trans
    (Function.update_self ..)⟩

/-- `reduce_max_kernel` stores the largest magnitude, and whether a value is not finite. -/
theorem reduceMaxKernel_eval {value : ℕ → Word} {indices : ℕ → Set ℕ} {partials count : ℕ}
    (whole : lanesBelow partials indices = { i | i < count }) {m : Mem ScaleAddr.Val Empty}
    (holds : ∀ p < partials, Scanned value (indices p) (m.cell (.scan (.maxPartial p)))
      (m.cell (.scan (.invalidPartial p)))) :
    let values := fun i => ofF32Bits (value i)
    let later := (reduceMaxKernel partials).eval m
    if allFinite values count then
      later.cell .status = .ok ∧ later.cell .scale = magF (maxMag values count)
    else later.cell .status = .errNonfinite := by
  dsimp only
  have scanned := eval_reduceMaxScan (m := m.part ScaleAddr.scan) holds
  have embedded : (Mem.part ScaleAddr.scan ((Task.embed ScaleAddr.scan
      (reduceMaxScan partials) : ScaleTask).eval m)) = _ :=
    Task.eval_embed (fun _ _ => ScaleAddr.scan.inj) (reduceMaxScan partials) m
  rw [whole, ← embedded] at scanned
  obtain ⟨finite, largest⟩ := scanned.whole
  rw [reduceMaxKernel, Task.eval]
  generalize (Task.embed ScaleAddr.scan (reduceMaxScan partials) : ScaleTask).eval m = later
    at finite largest
  obtain ⟨status, scale⟩ := eval_storeMaximum later
  rw [status, scale]
  by_cases all : allFinite (fun i => ofF32Bits (value i)) count = true
  · rw [if_pos all, if_neg (not_not.mpr (finite.mpr all)), largest all, ofF32Bits_f32Bits]
    exact ⟨rfl, rfl⟩
  · rw [if_neg all, if_pos fun zero => all (finite.mp zero)]

end Stoquant

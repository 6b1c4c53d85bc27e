import Stoquant.Cuda.Max
import Stoquant.Cuda.Round
import Stoquant.Cuda.Sums
import Stoquant.Par.Count

/-!
# The kernels do their work once

Every kernel stores each of its results exactly once and loads each of its inputs exactly
once, for every count and grid.
-/

namespace Stoquant

open Ieee Loop Par

theorem performs_absorbValues {indices : List ℕ} {i : ℕ} {localMax localInvalid : Word}
    {next : Word → Word → MaxTask}
    (tail : ∀ max invalid, (next max invalid).Performs (.load (.value i)) 0) :
    (absorbValues indices localMax localInvalid next).Performs (.load (.value i))
      (indices.count i) := by
  induction indices generalizing localMax localInvalid with
  | nil => exact tail _ _
  | cons j rest ih =>
      have same : (if Access.load (MaxAddr.value j) = .load (.value i) then 1 else 0) =
          if (j == i) = true then 1 else 0 := by simp
      rw [absorbValues, List.count_cons, ← same]
      apply Task.Performs.read
      intro value
      apply ih

theorem count_words (words : List ℕ) (i : ℕ) :
    (words.flatMap fun q => [4 * q, 4 * q + 1, 4 * q + 2, 4 * q + 3]).count i =
      words.count (i / 4) := by
  induction words with
  | nil => rfl
  | cons q words ih =>
      have four : [4 * q, 4 * q + 1, 4 * q + 2, 4 * q + 3].count i =
          if q = i / 4 then 1 else 0 := by
        simp only [List.count_cons, List.count_nil, beq_iff_eq]
        split_ifs <;> omega
      rw [List.flatMap_cons, List.count_append, ih, four, List.count_cons, Nat.add_comm]
      simp

/-- The threads of `max_vector_kernel` scan every value once, whatever is left of the last
word. -/
theorem sum_count_vectorIndices {stride : ℕ} (enough : 4 ≤ stride) (count i : ℕ) :
    ∑ t ∈ Finset.range stride, (vectorIndices t stride count).count i =
      if i < count then 1 else 0 := by
  have pos : 0 < stride := by omega
  have tail : ∀ t, (if t < count % 4 then [count / 4 * 4 + t] else []).count i =
      if i - count / 4 * 4 = t ∧ count / 4 * 4 ≤ i ∧ t < count % 4 then 1 else 0 := by
    intro t
    by_cases inside : t < count % 4
    · rw [if_pos inside, List.count_singleton]
      simp only [beq_iff_eq]
      split_ifs <;> omega
    · rw [if_neg inside, if_neg (by omega), List.count_nil]
  have words := shares_strided pos (count / 4)
  simp only [vectorIndices, List.count_append, count_words, tail]
  rw [Finset.sum_add_distrib, Task.shares_count words]
  by_cases rest : count / 4 * 4 ≤ i ∧ i < count
  · rw [if_neg (by omega), if_pos rest.2,
      Finset.sum_eq_single_of_mem (i - count / 4 * 4) (Finset.mem_range.mpr (by omega))]
    · rw [if_pos (by omega)]
    · intro t _ different
      rw [if_neg (by omega)]
  · rw [Finset.sum_eq_zero fun t _ => if_neg (by omega), Nat.add_zero]
    split_ifs <;> omega

theorem value_notMem_belowPartials (bound i : ℕ) : .value i ∉ belowPartials bound :=
  fun member => member.1 i rfl

theorem performs_scratch (bound : ℕ) {task : MaxTask}
    (within : task.Within ∅ (belowPartials bound)) (i : ℕ) :
    task.Performs (.load (.value i)) 0 :=
  Task.performs_load_of_within within (Set.notMem_empty _) (value_notMem_belowPartials bound i)

/-- `max_vector_kernel` loads every value once. -/
theorem maxVectorKernel_performs {grid : ℕ} (pos : 0 < grid) (count i : ℕ) :
    (maxVectorKernel grid count).Performs (.load (.value i)) (if i < count then 1 else 0) := by
  let scanned : ℕ → ℕ := fun t =>
    (vectorIndices t (grid * sqCudaReductionThreads) count).count i
  have total : ∑ block ∈ Finset.range grid, ∑ w ∈ Finset.range warpsPerBlock,
      ∑ lane ∈ Finset.range sqCudaWarp,
      scanned (block * sqCudaReductionThreads + (w * sqCudaWarp + lane)) =
        if i < count then 1 else 0 := by
    have warps : ∀ block, ∑ w ∈ Finset.range warpsPerBlock, ∑ lane ∈ Finset.range sqCudaWarp,
        scanned (block * sqCudaReductionThreads + (w * sqCudaWarp + lane)) =
          ∑ thread ∈ Finset.range sqCudaReductionThreads,
            scanned (block * sqCudaReductionThreads + thread) := fun block =>
      sum_range_rows (fun thread => scanned (block * sqCudaReductionThreads + thread))
        warpsPerBlock sqCudaWarp
    simp only [warps]
    rw [sum_range_rows]
    apply sum_count_vectorIndices
    unfold sqCudaReductionThreads
    omega
  rw [← total]
  unfold maxVectorKernel
  apply Task.performs_threads
  intro block below
  apply Task.Performs.seq_left _ (performs_scratch grid (storeBlock_within below) i)
  apply Task.performs_threads
  intro w _
  apply Task.Performs.seq_left _ (performs_scratch grid (storeWarp_within block w) i)
  apply Task.performs_threads
  intro lane _
  apply performs_absorbValues
  intro localMax localInvalid
  apply performs_scratch grid
  exact ⟨laneMax_belowPartials _ _ _, laneInvalid_belowPartials _ _ _, trivial⟩

theorem sum_count_block (logicalBlock count i : ℕ) :
    ∑ lane ∈ Finset.range sqCudaReductionThreads,
      (if logicalBlock * sqCudaReductionThreads + lane < count then
        [logicalBlock * sqCudaReductionThreads + lane] else []).count i =
      if logicalBlock = i / sqCudaReductionThreads then if i < count then 1 else 0 else 0 := by
  have each : ∀ lane, (if logicalBlock * sqCudaReductionThreads + lane < count then
      [logicalBlock * sqCudaReductionThreads + lane] else []).count i =
        if logicalBlock * sqCudaReductionThreads + lane = i ∧ i < count then 1 else 0 := by
    intro lane
    by_cases inside : logicalBlock * sqCudaReductionThreads + lane < count
    · rw [if_pos inside, List.count_singleton]
      simp only [beq_iff_eq]
      split_ifs <;> omega
    · rw [if_neg inside, if_neg (by omega), List.count_nil]
  simp only [each]
  unfold sqCudaReductionThreads
  by_cases own : logicalBlock = i / 256
  · rw [if_pos own, Finset.sum_eq_single_of_mem (i % 256)
      (Finset.mem_range.mpr (Nat.mod_lt i (by norm_num)))]
    · split_ifs <;> omega
    · intro lane _ different
      rw [if_neg (by omega)]
  · rw [if_neg own]
    apply Finset.sum_eq_zero
    intro lane below
    have small := Finset.mem_range.mp below
    rw [if_neg (by omega)]

/-- `max_blocks_kernel` loads every value once. -/
theorem maxBlocksKernel_performs {grid : ℕ} (pos : 0 < grid) (count i : ℕ) :
    (maxBlocksKernel grid count (ceilDiv count sqCudaReductionThreads)).Performs
      (.load (.value i)) (if i < count then 1 else 0) := by
  let blocks := ceilDiv count sqCudaReductionThreads
  have total : (if i / sqCudaReductionThreads < blocks then if i < count then 1 else 0 else 0) =
      if i < count then 1 else 0 := by
    have inBlocks : i / sqCudaReductionThreads < blocks ↔ _ := lt_ceilDiv_iff (by decide)
    have lower := Nat.div_mul_le_self i sqCudaReductionThreads
    split_ifs with inside present present
    · rfl
    · rfl
    · exact absurd (inBlocks.mpr (by omega)) inside
    · rfl
  rw [← total]
  unfold maxBlocksKernel
  apply Task.performs_team (shares_strided pos blocks)
  intro block _ logicalBlock member
  rw [← sum_count_block]
  have levels : (Task.forEach (halvings (sqCudaReductionThreads / 2)) fun stride =>
      maxLevel block stride).Within ∅ (belowPartials blocks) :=
    Task.within_forEach fun stride _ => maxLevel_within block stride
  have below : logicalBlock < blocks :=
    ((shares_strided pos blocks).cover logicalBlock).mpr ⟨block, ‹_›, member⟩
  obtain ⟨maxBelow, invalidBelow⟩ := maxPartial_belowPartials below
  apply Task.Performs.seq_left
  · apply Task.performs_threads
    intro lane _
    apply performs_absorbValues
    intro valueMax invalid
    apply performs_scratch blocks
    exact ⟨blockMax_belowPartials _ _, blockInvalid_belowPartials _ _, trivial⟩
  · apply performs_scratch blocks
    exact ⟨levels, .inr (blockMax_belowPartials _ _), fun _ =>
      ⟨.inr (blockInvalid_belowPartials _ _), fun _ => ⟨maxBelow, invalidBelow, trivial⟩⟩⟩

/-! ## Partial results of the maximum -/

/-- The two results of a block. -/
def partialsOf (b : ℕ) : Set MaxAddr := {.maxPartial b, .invalidPartial b}

theorem partials_notMem_belowPartials {b : ℕ} {a : MaxAddr} (own : a ∈ partialsOf b) :
    a ∉ belowPartials 0 := by
  intro member
  exact absurd (member.2 b own) (Nat.not_lt_zero b)

theorem performs_noPartial (reads : Set MaxAddr) {task : MaxTask}
    (within : task.Within reads (belowPartials 0)) {b : ℕ} {a : MaxAddr} (own : a ∈ partialsOf b) :
    task.Performs (.store a) 0 :=
  Task.performs_store_of_within within (partials_notMem_belowPartials own)

theorem performs_storePartials (block : ℕ) (localMax localInvalid : Word) {b : ℕ} {a : MaxAddr}
    (own : a ∈ partialsOf b) :
    (.write (.maxPartial block) localMax (.write (.invalidPartial block) localInvalid .done) :
      MaxTask).Performs (.store a) (if block = b then 1 else 0) := by
  intro m
  rw [Task.trace, Task.trace, Task.trace, List.count_cons, List.count_cons, List.count_nil]
  rcases own with rfl | rfl
  · simp
  · simp

theorem performs_absorbWarps {block : ℕ} {warps : List ℕ} {localMax localInvalid : Word}
    {next : Word → Word → MaxTask} {a : MaxAddr} {n : ℕ}
    (tail : ∀ max invalid, (next max invalid).Performs (.store a) n) :
    (absorbWarps block warps localMax localInvalid next).Performs (.store a) n := by
  induction warps generalizing localMax localInvalid with
  | nil => exact tail _ _
  | cons w rest ih =>
      apply Task.Performs.read_store
      intro otherMax
      apply Task.Performs.read_store
      intro otherInvalid
      exact ih

/-- `max_vector_kernel` stores the results of every block of the grid once. -/
theorem maxVectorKernel_stores (grid count : ℕ) {b : ℕ} {a : MaxAddr} (own : a ∈ partialsOf b) :
    (maxVectorKernel grid count).Performs (.store a) (if b < grid then 1 else 0) := by
  have total : ∑ block ∈ Finset.range grid, (if block = b then 1 else 0) =
      if b < grid then 1 else 0 := by
    rw [Finset.sum_ite_eq']
    exact if_congr Finset.mem_range rfl rfl
  rw [← total]
  unfold maxVectorKernel
  apply Task.performs_threads
  intro block _
  apply Task.Performs.seq_right
  · refine performs_noPartial (Set.range .value) ?_ own
    apply Task.within_threads
    intro w _
    constructor
    · apply Task.within_threads
      intro lane _
      apply within_absorbValues (Set.mem_range_self ·)
      exact fun _ _ => ⟨laneMax_belowPartials _ _ _, laneInvalid_belowPartials _ _ _, trivial⟩
    · exact (storeWarp_within block w).mono (Set.empty_subset _) (Set.Subset.refl _)
  · apply Task.Performs.read_store
    intro localMax
    apply Task.Performs.read_store
    intro localInvalid
    apply performs_absorbWarps
    exact fun _ _ => performs_storePartials block _ _ own

/-- `max_blocks_kernel` stores the results of every logical block once. -/
theorem maxBlocksKernel_stores {grid : ℕ} (pos : 0 < grid) (count blocks : ℕ) {b : ℕ}
    {a : MaxAddr} (own : a ∈ partialsOf b) :
    (maxBlocksKernel grid count blocks).Performs (.store a) (if b < blocks then 1 else 0) := by
  apply Task.performs_team (shares_strided pos blocks)
  intro block _ logicalBlock _
  apply Task.Performs.seq_right
  · refine performs_noPartial (Set.range .value) ?_ own
    apply Task.within_threads
    intro lane _
    apply within_absorbValues (Set.mem_range_self ·)
    exact fun _ _ => ⟨blockMax_belowPartials _ _, blockInvalid_belowPartials _ _, trivial⟩
  · apply Task.Performs.seq_right
    · refine performs_noPartial ∅ ?_ own
      exact Task.within_forEach fun stride _ => maxLevel_within block stride
    · apply Task.Performs.read_store
      intro blockMax
      apply Task.Performs.read_store
      exact fun blockInvalid => performs_storePartials logicalBlock _ _ own

/-! ## Partial sums -/

section

variable {α : Type} {op : α → α → α} {zero : α} {term : ℕ → α} {skip : Bool} {count : ℕ}
  {grid blocks padded i : ℕ}

theorem ite_sums (buffer : SumsBuffer) (block : ℕ) :
    (if SumAddr.sums buffer block = .sums buffer i then 1 else 0) = if block = i then 1 else 0 := by
  simp

theorem performs_noSum (member : ℕ) {task : SumTask α}
    (within : task.Within Set.univ (scratchOf member)) (buffer : SumsBuffer) :
    task.Performs (.store (.sums buffer i)) 0 := by
  apply Task.performs_store_of_within within
  rintro (⟨_, _, ⟨⟩⟩ | ⟨_, _, ⟨⟩⟩)

/-- `sum_blocks_kernel` stores the sum of every logical block once. -/
theorem sumBlocksKernel_stores (pos : 0 < grid) :
    (sumBlocksKernel op zero term skip count grid blocks padded).Performs (.store (.sums .a i))
      (if i < padded then 1 else 0) := by
  apply Task.performs_team (shares_strided pos padded)
  intro block _ logicalBlock _
  rw [← ite_sums .a]
  unfold sumBlock
  split
  · exact Task.performs_write
  · apply Task.performs_reduceInto fun _ _ => SumAddr.noConfusion
    apply performs_noSum block
    exact Task.within_team fun _ lane => ⟨.inl ⟨_, _, rfl⟩, trivial⟩

/-- `sum_warps_kernel` stores the sum of every chunk once. -/
theorem sumWarpsKernel_stores (pos : 0 < grid) :
    (sumWarpsKernel op zero term skip count grid blocks padded).Performs (.store (.sums .a i))
      (if i < padded then 1 else 0) := by
  apply Task.performs_team (shares_strided (Nat.mul_pos pos (by decide)) padded)
  intro warp _ chunk _
  rw [← ite_sums .a]
  unfold sumWarp
  split
  · exact Task.performs_write
  · apply Task.performs_reduceInto fun _ _ => SumAddr.noConfusion
    apply performs_noSum warp
    exact Task.within_team fun _ lane => ⟨.inr ⟨_, _, rfl⟩, trivial⟩

variable {input output : SumsBuffer} {outputCount span : ℕ}

/-- `reduce_pairs_kernel` stores the sum of every pair once. -/
theorem reducePairsKernel_stores (pos : 0 < grid) :
    (reducePairsKernel op grid input output outputCount).Performs (.store (.sums output i))
      (if i < outputCount then 1 else 0) := by
  apply Task.performs_team (shares_strided (Nat.mul_pos pos (by decide)) outputCount)
  intro thread _ pair _
  rw [← ite_sums output]
  apply Task.Performs.read_store
  intro x
  apply Task.Performs.read_store
  exact fun y => Task.performs_write

/-- `reduce_tree_kernel` stores the sum of every segment once. -/
theorem reduceTreeKernel_stores (pos : 0 < grid) :
    (reduceTreeKernel op grid input output outputCount span).Performs (.store (.sums output i))
      (if i < outputCount then 1 else 0) := by
  apply Task.performs_team (shares_strided pos outputCount)
  intro block _ segment _
  rw [← ite_sums output]
  apply Task.performs_reduceInto fun _ _ => SumAddr.noConfusion
  apply performs_noSum block
  exact Task.within_team fun _ k => ⟨.inl (Set.mem_univ _), fun _ => ⟨.inl ⟨_, _, rfl⟩, trivial⟩⟩

end

/-! ## Codes -/

section

variable {bitWidth count grid blockSize i : ℕ} {x : Access CodeAddr}

theorem performs_raiseIf {raised : Bool} {flag : ValidationFlag} {next : CodeTask} {n : ℕ}
    (tail : next.Performs x n) : (raiseIf raised flag next).Performs x n := by
  cases raised with
  | false => exact tail
  | true => exact fun m => tail (m.absorb flag)

section

variable [Arith Format.binary32] {scale : F32} {prescribedWords : Bool} {stream : SqRngStream}

theorem roundElement_loads (group index : ℕ) :
    (roundElement bitWidth scale prescribedWords stream group index).Performs
      (.load (.value i)) (if index = i then 1 else 0) := by
  have loads : (roundElement bitWidth scale prescribedWords stream group index).Performs
      (.load (.value i)) (0 + if CodeAddr.value index = .value i then 1 else 0) := by
    apply Task.Performs.read_load
    intro value
    split_ifs
    · exact fun _ => rfl
    · exact performs_raiseIf (performs_raiseIf Task.performs_write_load)
    · apply performs_raiseIf
      exact Task.Performs.read fun _ => Task.performs_write_load
    · exact performs_raiseIf Task.performs_write_load
  simpa using loads

theorem roundGroup_loads (group : ℕ) :
    (roundGroup bitWidth count scale prescribedWords stream group).Performs (.load (.value i))
      (if group = i / sqPhiloxWordsPerGroup then if i < count then 1 else 0 else 0) := by
  have lanes : ∀ lane ∈ groupLanes group count,
      (roundElement bitWidth scale prescribedWords stream group
        (sqPhiloxGroupWord group lane)).Performs (.load (.value i))
          (if lane = i % sqPhiloxWordsPerGroup then
            if group = i / sqPhiloxWordsPerGroup then 1 else 0 else 0) := by
    intro lane member
    have small := (mem_groupLanes.mp member).1
    have same : (if lane = i % sqPhiloxWordsPerGroup then
        if group = i / sqPhiloxWordsPerGroup then 1 else 0 else 0) =
          if sqPhiloxGroupWord group lane = i then 1 else 0 := by
      unfold sqPhiloxGroupWord sqPhiloxWordsPerGroup at *
      split_ifs <;> omega
    rw [same]
    exact roundElement_loads group _
  have loads := Task.performs_forEach lanes
  rw [Task.sum_map_owner, (groupLanes_nodup group count).count] at loads
  have total : (if i % sqPhiloxWordsPerGroup ∈ groupLanes group count then 1 else 0) *
      (if group = i / sqPhiloxWordsPerGroup then 1 else 0) =
        if group = i / sqPhiloxWordsPerGroup then if i < count then 1 else 0 else 0 := by
    rw [if_congr mem_groupLanes rfl rfl]
    unfold sqPhiloxGroupWord sqPhiloxWordsPerGroup
    split_ifs <;> omega
  rwa [total] at loads

/-- `round_kernel` loads every element once. -/
theorem roundKernel_loads (pos : 0 < grid * blockSize) :
    (roundKernel bitWidth count scale prescribedWords stream grid blockSize).Performs
      (.load (.value i)) (if i < count then 1 else 0) := by
  have total : (if i / sqPhiloxWordsPerGroup < ceilDiv count sqPhiloxWordsPerGroup then
      if i < count then 1 else 0 else 0) = if i < count then 1 else 0 := by
    have inGroups : i / sqPhiloxWordsPerGroup < ceilDiv count sqPhiloxWordsPerGroup ↔ _ :=
      lt_ceilDiv_iff (by decide)
    have lower := Nat.div_mul_le_self i sqPhiloxWordsPerGroup
    split_ifs <;> omega
  rw [← total]
  apply Task.performs_team (shares_strided pos _)
  exact fun thread _ group _ => roundGroup_loads group

end

theorem ite_payload (byteIndex : ℕ) :
    (if CodeAddr.payload byteIndex = .payload i then 1 else 0) =
      if byteIndex = i then 1 else 0 := by
  simp

/-- The packing kernel stores every byte of the payload once. -/
theorem packKernel_stores (supported : Supported bitWidth) (pos : 0 < grid * blockSize) :
    (packKernel bitWidth count grid blockSize).Performs (.store (.payload i))
      (if i < sqPayloadSize bitWidth count then 1 else 0) := by
  unfold packKernel
  rcases supported with rfl | rfl
  · rw [if_pos rfl]
    apply Task.performs_team (shares_strided pos _)
    intro thread _ byteIndex _
    rw [← ite_payload]
    apply Task.Performs.read_store
    intro low
    split
    · exact Task.Performs.read_store fun high => Task.performs_write
    · exact Task.performs_write
  · rw [if_neg (by decide)]
    apply Task.performs_team (shares_strided pos _)
    intro thread _ index _
    rw [← ite_payload]
    exact Task.Performs.read_store fun code => Task.performs_write

/-- A byte of `pack_q4_kernel` loads its two codes, the second one if it is an element's. -/
theorem packQ4Byte_loads {byteIndex : ℕ} (inside : byteIndex * 2 < count) :
    (packQ4Byte count byteIndex).Performs (.load (.code i))
      (if byteIndex = i / 2 then if i < count then 1 else 0 else 0) := by
  have high : (if byteIndex * 2 + 1 < count then
      if CodeAddr.code (byteIndex * 2 + 1) = .code i then 1 else 0 else 0) +
        (if CodeAddr.code (byteIndex * 2) = .code i then 1 else 0) =
          if byteIndex = i / 2 then if i < count then 1 else 0 else 0 := by
    simp only [CodeAddr.code.injEq]
    split_ifs <;> omega
  rw [← high]
  apply Task.Performs.read_load
  intro low
  by_cases more : byteIndex * 2 + 1 < count
  · have loads : (.read (.code (byteIndex * 2 + 1)) fun high : Byte =>
        .write (.payload byteIndex) ((low &&& 0x0F#8) ||| (high &&& 0x0F#8) <<< 4) .done :
          CodeTask).Performs (.load (.code i))
        (0 + if CodeAddr.code (byteIndex * 2 + 1) = .code i then 1 else 0) :=
      Task.Performs.read_load fun _ => Task.performs_write_load
    rw [if_pos more, if_pos more]
    rwa [Nat.zero_add] at loads
  · rw [if_neg more, if_neg more]
    exact Task.performs_write_load

/-- The packing kernel loads every code once. -/
theorem packKernel_loads (supported : Supported bitWidth) (pos : 0 < grid * blockSize) :
    (packKernel bitWidth count grid blockSize).Performs (.load (.code i))
      (if i < count then 1 else 0) := by
  unfold packKernel
  rcases supported with rfl | rfl
  · rw [if_pos rfl]
    have total : (if i / 2 < sqPayloadSize sqQ4Bits count then if i < count then 1 else 0 else 0) =
        if i < count then 1 else 0 := by
      unfold sqPayloadSize
      split_ifs <;> omega
    rw [← total]
    apply Task.performs_team (shares_strided pos _)
    intro thread below byteIndex member
    apply packQ4Byte_loads
    have inside := ((mem_strided_iff below).mp member).1
    unfold sqPayloadSize at inside
    rw [if_pos rfl] at inside
    omega
  · rw [if_neg (by decide)]
    apply Task.performs_team (shares_strided pos _)
    intro thread _ index _
    have loads : (packQ8Byte index).Performs (.load (.code i))
        (0 + if CodeAddr.code index = .code i then 1 else 0) :=
      Task.Performs.read_load fun _ => Task.performs_write_load
    simpa using loads

end

end Stoquant

import Stoquant.Cuda.Launch
import Stoquant.Par.Phases

/-!
# The maximum kernels

The scans for the largest magnitude.  Their memory is one of 32-bit words, floats by
their bit patterns.
-/

namespace Stoquant

open Ieee Loop Par

/-- The words that the maximum kernels touch: the input, the partial results, the local
results of the lanes of a warp before and after a shuffle, the results of the warps of a
block and the shared arrays of a block. -/
inductive MaxAddr where
  | value (i : ℕ)
  | maxPartial (i : ℕ)
  | invalidPartial (i : ℕ)
  | laneMax (warp : ℕ) (side : Bool) (lane : ℕ)
  | laneInvalid (warp : ℕ) (side : Bool) (lane : ℕ)
  | warpMax (block warp : ℕ)
  | warpInvalid (block warp : ℕ)
  | blockMax (block lane : ℕ)
  | blockInvalid (block lane : ℕ)
  deriving DecidableEq

/-- Tasks of the maximum kernels. -/
abbrev MaxTask := Task (fun _ : MaxAddr => Word) Empty

/-- `if (other_max > local_max) local_max = other_max`. -/
def largerMax (localMax otherMax : Word) : Word :=
  if (ofF32Bits localMax).lt (ofF32Bits otherMax) then otherMax else localMax

/-- `absorb_max`. -/
def absorbMax (value localMax localInvalid : Word) : Word × Word :=
  if isfinite (ofF32Bits value) = false then (localMax, 1#32)
  else (largerMax localMax (f32Bits (fabsf (ofF32Bits value))), localInvalid)

/-- `absorb_max` over the values at some indices. -/
def absorbValues : List ℕ → Word → Word → (Word → Word → MaxTask) → MaxTask
  | [], localMax, localInvalid, next => next localMax localInvalid
  | i :: rest, localMax, localInvalid, next =>
      .read (.value i) fun value =>
        absorbValues rest (absorbMax value localMax localInvalid).1
          (absorbMax value localMax localInvalid).2 next

/-- The indices that a thread of `max_vector_kernel` scans: the four values of its words,
and at most one value behind the last word. -/
def vectorIndices (first stride count : ℕ) : List ℕ :=
  let wordCount := count / 4
  (strided first stride wordCount).flatMap (fun i => [4 * i, 4 * i + 1, 4 * i + 2, 4 * i + 3])
    ++ if first < count % 4 then [wordCount * 4 + first] else []

/-- The shuffles of `max_vector_kernel`. -/
def shuffleMax (warp : ℕ) : List ℕ → Bool → (Bool → MaxTask) → MaxTask
  | [], side, next => next side
  | offset :: rest, side, next =>
      .phases largerMax (.laneMax warp) sqCudaWarp [.shuffle sqCudaWarp offset] side fun _ =>
        .phases (· ||| ·) (.laneInvalid warp) sqCudaWarp [.shuffle sqCudaWarp offset] side
          fun after => shuffleMax warp rest after next

/-- The loop of the first thread over the other warps. -/
def absorbWarps (block : ℕ) : List ℕ → Word → Word → (Word → Word → MaxTask) → MaxTask
  | [], localMax, localInvalid, next => next localMax localInvalid
  | w :: rest, localMax, localInvalid, next =>
      .read (.warpMax block w) fun otherMax =>
        .read (.warpInvalid block w) fun otherInvalid =>
          absorbWarps block rest (largerMax localMax otherMax) (localInvalid ||| otherInvalid)
            next

/-- The shuffles of a warp of `max_vector_kernel` and the stores of its first lane. -/
def storeWarp (block w : ℕ) : MaxTask :=
  let warp := block * warpsPerBlock + w
  shuffleMax warp (halvings (sqCudaWarp / 2)) false fun side =>
    .read (.laneMax warp side 0) fun localMax =>
      .read (.laneInvalid warp side 0) fun localInvalid =>
        .write (.warpMax block w) localMax (.write (.warpInvalid block w) localInvalid .done)

/-- What the first thread of a block does behind the barrier; it still holds what it
stored for the first warp. -/
def storeBlock (block : ℕ) : MaxTask :=
  .read (.warpMax block 0) fun localMax =>
    .read (.warpInvalid block 0) fun localInvalid =>
      absorbWarps block (List.range' 1 (warpsPerBlock - 1)) localMax localInvalid
        fun localMax localInvalid =>
          .write (.maxPartial block) localMax (.write (.invalidPartial block) localInvalid .done)

/-- `max_vector_kernel`. -/
def maxVectorKernel (grid count : ℕ) : MaxTask :=
  let stride := grid * sqCudaReductionThreads
  .threads grid fun block =>
    .seq
      (.threads warpsPerBlock fun w =>
        let warp := block * warpsPerBlock + w
        .seq
          (.threads sqCudaWarp fun lane =>
            let first := block * sqCudaReductionThreads + (w * sqCudaWarp + lane)
            absorbValues (vectorIndices first stride count) (f32Bits zeroF) 0#32
              fun localMax localInvalid =>
                .write (.laneMax warp false lane) localMax
                  (.write (.laneInvalid warp false lane) localInvalid .done))
          (storeWarp block w))
      (storeBlock block)

/-- One level of the shared arrays of `max_blocks_kernel`. -/
def maxLevel (block stride : ℕ) : MaxTask :=
  .team sqCudaReductionThreads (fun lane => if lane < stride then [lane] else [])
    fun _ lane =>
      .seq
        (.read (.blockMax block (lane + stride)) fun otherMax =>
          .read (.blockMax block lane) fun own =>
            if (ofF32Bits own).lt (ofF32Bits otherMax) then
              .write (.blockMax block lane) otherMax .done
            else .done)
        (.read (.blockInvalid block lane) fun own =>
          .read (.blockInvalid block (lane + stride)) fun other =>
            .write (.blockInvalid block lane) (own ||| other) .done)

/-- Scan the values at some indices and store the pair. -/
abbrev scanInto (indices : List ℕ) (maxCell invalidCell : MaxAddr) : MaxTask :=
  absorbValues indices (f32Bits zeroF) 0#32 fun localMax localInvalid =>
    .write maxCell localMax (.write invalidCell localInvalid .done)

/-- Copy a pair. -/
abbrev copyPair (maxSource invalidSource maxCell invalidCell : MaxAddr) : MaxTask :=
  .read maxSource fun localMax =>
    .read invalidSource fun localInvalid =>
      .write maxCell localMax (.write invalidCell localInvalid .done)

/-- The index that a thread of `max_blocks_kernel` scans. -/
def blockIndices (count logicalBlock lane : ℕ) : List ℕ :=
  if logicalBlock * sqCudaReductionThreads + lane < count then
    [logicalBlock * sqCudaReductionThreads + lane]
  else []

/-- A logical block of `max_blocks_kernel`. -/
abbrev maxBlock (count block logicalBlock : ℕ) : MaxTask :=
  .seq
    (.threads sqCudaReductionThreads fun lane =>
      scanInto (blockIndices count logicalBlock lane) (.blockMax block lane)
        (.blockInvalid block lane))
    (.seq
      (.forEach (halvings (sqCudaReductionThreads / 2)) fun stride => maxLevel block stride)
      (copyPair (.blockMax block 0) (.blockInvalid block 0) (.maxPartial logicalBlock)
        (.invalidPartial logicalBlock)))

/-- `max_blocks_kernel`. -/
def maxBlocksKernel (grid count blockCount : ℕ) : MaxTask :=
  .team grid (fun block => strided block grid blockCount) (maxBlock count)

section

variable {reads writes : Set MaxAddr}

theorem within_absorbValues {indices : List ℕ} (values : ∀ i, .value i ∈ reads)
    {localMax localInvalid : Word} {next : Word → Word → MaxTask}
    (within : ∀ max invalid, (next max invalid).Within reads writes) :
    (absorbValues indices localMax localInvalid next).Within reads writes := by
  induction indices generalizing localMax localInvalid with
  | nil => exact within _ _
  | cons i rest ih => exact ⟨.inl (values i), fun _ => ih⟩

theorem within_shuffleMax {warp : ℕ} {offsets : List ℕ}
    (lanes : ∀ side lane, .laneMax warp side lane ∈ writes ∧ .laneInvalid warp side lane ∈ writes)
    {side : Bool} {next : Bool → MaxTask} (within : ∀ side, (next side).Within reads writes) :
    (shuffleMax warp offsets side next).Within reads writes := by
  induction offsets generalizing side with
  | nil => exact within side
  | cons offset rest ih =>
      apply Task.within_phases _ fun side lane => (lanes side lane).1
      intro _
      apply Task.within_phases _ fun side lane => (lanes side lane).2
      exact fun _ => ih

theorem within_absorbWarps {block : ℕ} {warps : List ℕ}
    (cells : ∀ w, .warpMax block w ∈ writes ∧ .warpInvalid block w ∈ writes)
    {localMax localInvalid : Word} {next : Word → Word → MaxTask}
    (within : ∀ max invalid, (next max invalid).Within reads writes) :
    (absorbWarps block warps localMax localInvalid next).Within reads writes := by
  induction warps generalizing localMax localInvalid with
  | nil => exact within _ _
  | cons w rest ih => exact ⟨.inr (cells w).1, fun _ => ⟨.inr (cells w).2, fun _ => ih⟩⟩

end

/-- Every word but the input and the partial results of blocks from a bound on. -/
def belowPartials (bound : ℕ) : Set MaxAddr :=
  { a | (∀ i, a ≠ .value i) ∧ ∀ i, a = .maxPartial i ∨ a = .invalidPartial i → i < bound }

section

variable {bound : ℕ}

theorem scratch_belowPartials {a : MaxAddr} (notValue : ∀ i, a ≠ .value i)
    (notMax : ∀ i, a ≠ .maxPartial i) (notInvalid : ∀ i, a ≠ .invalidPartial i) :
    a ∈ belowPartials bound :=
  ⟨notValue, fun i either => either.elim (absurd · (notMax i)) (absurd · (notInvalid i))⟩

theorem laneMax_belowPartials (warp : ℕ) (side : Bool) (lane : ℕ) :
    .laneMax warp side lane ∈ belowPartials bound :=
  scratch_belowPartials (fun _ => nofun) (fun _ => nofun) fun _ => nofun

theorem laneInvalid_belowPartials (warp : ℕ) (side : Bool) (lane : ℕ) :
    .laneInvalid warp side lane ∈ belowPartials bound :=
  scratch_belowPartials (fun _ => nofun) (fun _ => nofun) fun _ => nofun

theorem warpMax_belowPartials (block w : ℕ) : .warpMax block w ∈ belowPartials bound :=
  scratch_belowPartials (fun _ => nofun) (fun _ => nofun) fun _ => nofun

theorem warpInvalid_belowPartials (block w : ℕ) : .warpInvalid block w ∈ belowPartials bound :=
  scratch_belowPartials (fun _ => nofun) (fun _ => nofun) fun _ => nofun

theorem blockMax_belowPartials (block lane : ℕ) : .blockMax block lane ∈ belowPartials bound :=
  scratch_belowPartials (fun _ => nofun) (fun _ => nofun) fun _ => nofun

theorem blockInvalid_belowPartials (block lane : ℕ) :
    .blockInvalid block lane ∈ belowPartials bound :=
  scratch_belowPartials (fun _ => nofun) (fun _ => nofun) fun _ => nofun

theorem maxPartial_belowPartials {i : ℕ} (below : i < bound) :
    .maxPartial i ∈ belowPartials bound ∧ .invalidPartial i ∈ belowPartials bound := by
  refine ⟨⟨fun _ => nofun, ?_⟩, ⟨fun _ => nofun, ?_⟩⟩
  · rintro j (same | same) <;> cases same
    exact below
  · rintro j (same | same) <;> cases same
    exact below

theorem maxLevel_within (block stride : ℕ) :
    (maxLevel block stride).Within ∅ (belowPartials bound) := by
  apply Task.within_team
  intro _ lane
  constructor
  · refine ⟨.inr (blockMax_belowPartials _ _), fun otherMax =>
      ⟨.inr (blockMax_belowPartials _ _), fun own => ?_⟩⟩
    dsimp only
    split
    · exact ⟨blockMax_belowPartials _ _, trivial⟩
    · trivial
  · exact ⟨.inr (blockInvalid_belowPartials _ _), fun _ =>
      ⟨.inr (blockInvalid_belowPartials _ _), fun _ => ⟨blockInvalid_belowPartials _ _, trivial⟩⟩⟩

theorem storeWarp_within (block w : ℕ) : (storeWarp block w).Within ∅ (belowPartials bound) := by
  apply within_shuffleMax fun side lane =>
    ⟨laneMax_belowPartials _ side lane, laneInvalid_belowPartials _ side lane⟩
  intro side
  exact ⟨.inr (laneMax_belowPartials _ _ _), fun _ => ⟨.inr (laneInvalid_belowPartials _ _ _),
    fun _ => ⟨warpMax_belowPartials _ _, warpInvalid_belowPartials _ _, trivial⟩⟩⟩

theorem storeBlock_within {block : ℕ} (below : block < bound) :
    (storeBlock block).Within ∅ (belowPartials bound) := by
  refine ⟨.inr (warpMax_belowPartials _ _), fun _ =>
    ⟨.inr (warpInvalid_belowPartials _ _), fun _ => ?_⟩⟩
  apply within_absorbWarps fun w =>
    ⟨warpMax_belowPartials block w, warpInvalid_belowPartials block w⟩
  intro _ _
  obtain ⟨maxBelow, invalidBelow⟩ := maxPartial_belowPartials below
  exact ⟨maxBelow, invalidBelow, trivial⟩

end

/-- `max_vector_kernel` reads the input and stores one partial result for each block of
the grid. -/
theorem maxVectorKernel_within (grid count : ℕ) :
    (maxVectorKernel grid count).Within (Set.range .value) (belowPartials grid) := by
  unfold maxVectorKernel
  apply Task.within_threads
  intro block below
  constructor
  · apply Task.within_threads
    intro w _
    constructor
    · apply Task.within_threads
      intro lane _
      apply within_absorbValues (Set.mem_range_self ·)
      exact fun _ _ => ⟨laneMax_belowPartials _ _ _, laneInvalid_belowPartials _ _ _, trivial⟩
    · exact (storeWarp_within block w).mono (Set.empty_subset _) (Set.Subset.refl _)
  · exact (storeBlock_within below).mono (Set.empty_subset _) (Set.Subset.refl _)

end Stoquant

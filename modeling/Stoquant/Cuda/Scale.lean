import Stoquant.Cuda.Maximum
import Stoquant.Cuda.Reduction

/-!
# The scale that K1 computes

The launches of K1 one after the other on the memory of the device, each with its threads
in some order.  What they leave is the scale of the tensor, or the status with which
`quantizer.c` fails on it.
-/

namespace Stoquant

open Abort Ieee Loop Par

/-- The device memory of K1. -/
structure K1Memory where
  values : ℕ → F32
  scan : MaxAddr → Word
  sums : SumAddr → F32
  scale : F32
  status : SqStatus

namespace K1Memory

/-- The words of the scans, the values by their bit patterns. -/
def words (memory : K1Memory) : Mem (fun _ : MaxAddr => Word) Empty :=
  ⟨fun a => match a with
    | .value i => f32Bits (memory.values i)
    | a => memory.scan a, 0⟩

/-- The words that `reduce_max_kernel` touches. -/
def scaleCells (memory : K1Memory) : Mem ScaleAddr.Val Empty :=
  ⟨fun a => match a with
    | .scan a => memory.words.cell a
    | .scale => memory.scale
    | .status => memory.status, 0⟩

section

variable [Arith Format.binary32]

/-- `scale_term` of a value under the maximum. -/
def term (memory : K1Memory) (i : ℕ) : F32 :=
  let ratio := fabsf (memory.values i) / memory.scale
  ratio * ratio

/-- `*status != SQ_OK || *max_abs == 0.0f`. -/
def skip (memory : K1Memory) : Bool :=
  decide (memory.status ≠ .ok) || memory.scale.eq zeroF

end

end K1Memory

section

variable [Arith Format.binary32]

/-- `finish_scale_kernel`. -/
def finishScaleKernel (sum : SumsBuffer) (memory : K1Memory) : K1Memory :=
  if memory.status ≠ .ok then memory
  else if memory.scale.eq zeroF then memory
  else
    let root := sqrt (memory.sums (.sums sum 0))
    let result := memory.scale * root
    if isfinite result = false then { memory with status := .errScaleOverflow, scale := zeroF }
    else { memory with scale := result }

/-- What a launch does to the memory, its threads in the order of a scheduler. -/
def K1Kernel.run (scheduler : Scheduler) (count : ℕ) (memory : K1Memory) :
    K1Kernel → K1Memory
  | .maxBlocks grid blocks =>
      { memory with
        scan := (scheduler.run (maxBlocksKernel grid count blocks) memory.words).cell }
  | .maxVector grid =>
      { memory with scan := (scheduler.run (maxVectorKernel grid count) memory.words).cell }
  | .reduceMax partials =>
      let later := scheduler.run (reduceMaxKernel partials) memory.scaleCells
      { memory with
        scan := fun a => later.cell (.scan a)
        scale := later.cell .scale
        status := later.cell .status }
  | .finishScale sum => finishScaleKernel sum memory
  | kernel =>
      { memory with
        sums := (scheduler.run
          (kernel.sumTask (· + ·) zeroF memory.term memory.skip count) ⟨memory.sums, 0⟩).cell }

/-- The launches of a stream, each with an order of its own. -/
def runLaunches (count : ℕ) : (ℕ → Scheduler) → List K1Kernel → K1Memory → K1Memory
  | _, [], memory => memory
  | schedulers, kernel :: rest, memory =>
      runLaunches count (fun i => schedulers (i + 1)) rest
        (kernel.run (schedulers 0) count memory)

/-- A memory that holds what a scale computation returns; the scale counts only without an
error. -/
def K1Memory.Delivers (memory : K1Memory) : Except SqStatus F32 → Prop
  | .ok scale => memory.status = .ok ∧ memory.scale = scale
  | .error status => memory.status = status

/-! ## The maximum -/

/-- The kernels that scan for the maximum, and how many partial results each leaves. -/
def K1Kernel.IsScan (count partials : ℕ) : K1Kernel → Prop
  | .maxBlocks grid blocks => 0 < grid ∧ blocks = blockCount count ∧ partials = blocks
  | .maxVector grid => 0 < grid ∧ partials = grid
  | _ => False

section

omit [Arith Format.binary32]

theorem lanesBelow_blocks (count : ℕ) :
    lanesBelow (blockCount count) (blockValues count) = { i | i < count } := by
  ext i
  constructor
  · rintro ⟨block, -, inside, -⟩
    exact inside
  · intro inside
    refine ⟨i / sqCudaReductionThreads, ?_, inside, rfl⟩
    rw [← ceilDiv_eq_blockCount, lt_ceilDiv_iff (by decide)]
    exact (Nat.div_mul_le_self _ _).trans_lt inside

theorem inputWords_words (memory : K1Memory) :
    (fun i => ofF32Bits (inputWords memory.words i)) = memory.values :=
  funext fun i => ofF32Bits_f32Bits (memory.values i)

end

variable {count : ℕ}

/-- A scan leaves partial results that stand for all values. -/
theorem K1Kernel.IsScan.run {kernel : K1Kernel} {partials : ℕ}
    (scan : kernel.IsScan count partials) (scheduler : Scheduler) (memory : K1Memory) :
    ∃ indices : ℕ → Set ℕ, lanesBelow partials indices = { i | i < count } ∧
      (∀ p < partials, Scanned (inputWords memory.words) (indices p)
        ((kernel.run scheduler count memory).scan (.maxPartial p))
        ((kernel.run scheduler count memory).scan (.invalidPartial p))) ∧
      (kernel.run scheduler count memory).values = memory.values := by
  cases kernel with
  | maxBlocks grid blocks =>
      obtain ⟨pos, rfl, rfl⟩ := scan
      refine ⟨blockValues count, lanesBelow_blocks count, ?_, rfl⟩
      intro p below
      rw [K1Kernel.run, scheduler.run_eq (maxBlocksKernel_raceFree pos count _)]
      exact maxBlocksKernel_eval pos count _ memory.words below
  | maxVector grid =>
      obtain ⟨pos, same⟩ := scan
      subst same
      refine ⟨vectorValues partials count, lanesBelow_vectorValues pos count, ?_, rfl⟩
      intro p below
      rw [K1Kernel.run, scheduler.run_eq (maxVectorKernel_raceFree partials count)]
      exact maxVectorKernel_eval partials count memory.words below
  | _ => exact scan.elim

/-- After the maximum kernels the scale is the largest magnitude, or the status tells of a
value that is not finite. -/
theorem run_maximum {kernel : K1Kernel} {partials : ℕ} (scan : kernel.IsScan count partials)
    (first second : Scheduler) (memory : K1Memory) :
    let later := (K1Kernel.reduceMax partials).run second count (kernel.run first count memory)
    later.values = memory.values ∧
      if allFinite memory.values count then
        later.status = .ok ∧ later.scale = magF (maxMag memory.values count)
      else later.status = .errNonfinite := by
  obtain ⟨indices, whole, holds, kept⟩ := scan.run first memory
  dsimp only
  rw [K1Kernel.run, second.run_eq (reduceMaxKernel_raceFree partials)]
  refine ⟨kept, ?_⟩
  have stored := reduceMaxKernel_eval (m := (kernel.run first count memory).scaleCells) whole holds
  rw [inputWords_words] at stored
  exact stored

/-! ## The sum -/

/-- The kernels that compute partial sums. -/
def K1Kernel.IsSum : K1Kernel → Prop
  | .sumBlocks .. | .sumWarps .. | .reducePairs .. | .reduceTree .. => True
  | _ => False

theorem K1Kernel.IsSum.run {kernel : K1Kernel} (isSum : kernel.IsSum) (scheduler : Scheduler)
    (memory : K1Memory) :
    kernel.run scheduler count memory =
      { memory with
        sums := (scheduler.run
          (kernel.sumTask (· + ·) zeroF memory.term memory.skip count)
          ⟨memory.sums, 0⟩).cell } := by
  cases kernel with
  | sumBlocks grid blocks padded => rfl
  | sumWarps grid blocks padded => rfl
  | reducePairs grid input output outputCount => rfl
  | reduceTree grid input output outputCount span => rfl
  | _ => exact isSum.elim

/-- The launches of sum kernels are an interleaving of their tasks, and change nothing but
the sums. -/
theorem runLaunches_sums {launched : List K1Kernel} (sums : ∀ kernel ∈ launched, kernel.IsSum)
    (schedulers : ℕ → Scheduler) (memory : K1Memory) :
    ∃ later, Task.Steps
        (.forEach launched (K1Kernel.sumTask (· + ·) zeroF memory.term memory.skip count))
        ⟨memory.sums, 0⟩ .done later ∧
      runLaunches count schedulers launched memory = { memory with sums := later.cell } := by
  induction launched generalizing schedulers memory with
  | nil => exact ⟨_, .refl, rfl⟩
  | cons kernel rest ih =>
      let first := (schedulers 0).run
        (kernel.sumTask (· + ·) zeroF memory.term memory.skip count) ⟨memory.sums, 0⟩
      obtain ⟨later, steps, ran⟩ := ih (fun k member => sums k (List.mem_cons_of_mem _ member))
        (fun i => schedulers (i + 1)) { memory with sums := first.cell }
      have complete := (schedulers 0).complete
        (kernel.sumTask (· + ·) zeroF memory.term memory.skip count) ⟨memory.sums, 0⟩
      have log : first = ⟨first.cell, 0⟩ := Mem.ext rfl (Multiset.eq_zero_of_forall_notMem nofun)
      refine ⟨later, ?_, ?_⟩
      · apply complete.first.trans
        refine .head .barrier ?_
        show Task.Steps _ first .done later
        rw [log]
        exact steps
      · rw [runLaunches, (sums kernel List.mem_cons_self).run]
        exact ran

theorem tree_blockRoot {memory : K1Memory} (notSkip : memory.skip = false) :
    Tree.tree (· + ·) (paddedBits count)
        (blockRoot (· + ·) zeroF memory.term memory.skip count) =
      squareSum memory.values count memory.scale := by
  apply Tree.tree_congr
  intro block _
  unfold blockRoot partialLeaf
  rw [notSkip]
  simp only [true_and]
  rfl

/-! ## The scale -/

/-- The launches of K1: a scan, the maximum, sums and the last kernel, which reads the one
partial sum that they leave. -/
def K1Shape (count : ℕ) (launched : List K1Kernel) : Prop :=
  ∃ scan partials sums final,
    launched = scan :: .reduceMax partials :: sums ++ [K1Kernel.finishScale final] ∧
    scan.IsScan count partials ∧ (∀ kernel ∈ sums, kernel.IsSum ∧ kernel.Fits count) ∧
    sums.foldl K1Kernel.partials none = some (final, 1)

theorem runLaunches_append (schedulers : ℕ → Scheduler) (first second : List K1Kernel)
    (memory : K1Memory) :
    runLaunches count schedulers (first ++ second) memory =
      runLaunches count (fun i => schedulers (i + first.length)) second
        (runLaunches count schedulers first memory) := by
  induction first generalizing schedulers memory with
  | nil => rfl
  | cons kernel rest ih =>
      rw [List.cons_append, runLaunches, ih, List.length_cons]
      rfl

theorem finishScaleKernel_delivers {values : ℕ → F32} {memory : K1Memory} (sum : SumsBuffer)
    (maximum : if allFinite values count then
      memory.status = .ok ∧ memory.scale = magF (maxMag values count)
      else memory.status = .errNonfinite)
    (added : memory.skip = false →
      memory.sums (.sums sum 0) = squareSum values count memory.scale) :
    (finishScaleKernel sum memory).Delivers (tensorScale values count) := by
  unfold finishScaleKernel tensorScale
  rw [scanMaxAbs_eq]
  by_cases finite : allFinite values count = true
  · rw [if_pos finite] at maximum ⊢
    obtain ⟨status, scale⟩ := maximum
    dsimp only
    rw [if_neg (not_not.mpr status), ← scale]
    by_cases zero : memory.scale.eq zeroF = true
    · have small := allFinite_iff_maxMag.mp finite
      have none : maxMag values count = 0 := by
        rw [scale, magF_eq_zeroF small] at zero
        simpa using zero
      rw [if_pos zero, if_pos zero]
      exact ⟨status, by rw [scale, none]; rfl⟩
    · have notSkip : memory.skip = false := by
        unfold K1Memory.skip
        simpa [status] using zero
      rw [if_neg zero, if_neg zero, added notSkip]
      by_cases overflow :
      isfinite (memory.scale * sqrt (squareSum values count memory.scale)) = true
      · rw [if_pos overflow, if_neg (by simp [overflow])]
        exact ⟨status, rfl⟩
      · rw [if_neg overflow, if_pos (by simpa using overflow)]
        rfl
  · rw [if_neg finite] at maximum ⊢
    rw [if_pos (by rw [maximum]; exact nofun)]
    exact maximum

/-- Whatever the order of the threads of each launch, K1 leaves the scale of the tensor, or
the status with which its computation fails. -/
theorem K1Shape.delivers {launched : List K1Kernel} (shape : K1Shape count launched)
    (schedulers : ℕ → Scheduler) (memory : K1Memory) :
    (runLaunches count schedulers launched memory).Delivers
      (tensorScale memory.values count) := by
  obtain ⟨scan, partials, sums, final, rfl, isScan, sumKernels, left⟩ := shape
  obtain ⟨values, maximum⟩ := run_maximum isScan (schedulers 0) (schedulers 1) memory
  rw [List.cons_append, List.cons_append, runLaunches, runLaunches, runLaunches_append]
  generalize (K1Kernel.reduceMax partials).run (schedulers 1) count
    (scan.run (schedulers 0) count memory) = reduced at values maximum
  have onlySums : ∀ kernel ∈ sums, kernel.IsSum := fun kernel member => (sumKernels kernel member).1
  obtain ⟨later, steps, ran⟩ : ∃ later, _ ∧ runLaunches count _ sums reduced = _ :=
    runLaunches_sums onlySums (fun i => schedulers (i + 1 + 1)) reduced
  have tree := (sumsInTree_of_fits (fun kernel member => (sumKernels kernel member).2) left F32
    (· + ·) zeroF reduced.term reduced.skip ⟨reduced.sums, 0⟩).2 later steps
  rw [ran, runLaunches, runLaunches, K1Kernel.run, ← values]
  rw [← values] at maximum
  have final' : (finishScaleKernel final { reduced with sums := later.cell }).Delivers
      (tensorScale reduced.values count) := by
    apply finishScaleKernel_delivers final
    · exact maximum
    · intro notSkip
      exact tree.trans (tree_blockRoot notSkip)
  exact final'

end

/-! ## The launches of K1 have this shape -/

section

variable {lastError : List K1Kernel → Option CudaError}

theorem issue_ok {kernel : K1Kernel} {launched later : List K1Kernel}
    (ran : exec (issue lastError kernel) launched = (.ok (), later)) :
    later = launched ++ [kernel] := by
  cases outcome : lastError (launched ++ [kernel]) with
  | none =>
      have made : exec (issue lastError kernel) launched = (.ok (), launched ++ [kernel]) := by
        simp [issue, exec, StateT.run, outcome]
      exact (Prod.mk.inj (made.symm.trans ran)).2.symm
  | some error =>
      have stopped : exec (issue lastError kernel) launched =
          (.error error, launched ++ [kernel]) := by
        simp [issue, exec, StateT.run, outcome]
      cases (Prod.mk.inj (stopped.symm.trans ran)).1

theorem issue_bind_ok {α : Type} {kernel : K1Kernel} {next : K1Run α} {result : α}
    {launched later : List K1Kernel}
    (ran : exec (issue lastError kernel >>= fun _ => next) launched = (.ok result, later)) :
    exec next (launched ++ [kernel]) = (.ok result, later) := by
  rw [exec_bind] at ran
  cases first : exec (issue lastError kernel) launched with
  | mk outcome reached =>
      rw [first] at ran
      cases outcome with
      | error error => cases (Prod.mk.inj ran).1
      | ok done => rwa [issue_ok first] at ran

theorem bind_ok {α β : Type} {run : K1Run α} {next : α → K1Run β} {result : β}
    {launched later : List K1Kernel}
    (ran : exec (run >>= next) launched = (.ok result, later)) :
    ∃ middle reached, exec run launched = (.ok middle, reached) ∧
      exec (next middle) reached = (.ok result, later) := by
  rw [exec_bind] at ran
  cases first : exec run launched with
  | mk outcome reached =>
      rw [first] at ran
      cases outcome with
      | error error => cases (Prod.mk.inj ran).1
      | ok middle => exact ⟨middle, reached, rfl, ran⟩

variable {gridSize : ℤ}

theorem reducePairsLoop_sums {input output final : SumsBuffer} {active : ℕ}
    {launched later : List K1Kernel}
    (ran : exec (reducePairsLoop lastError gridSize input output active) launched =
      (.ok final, later)) :
    ∃ levels, later = launched ++ levels ∧ ∀ kernel ∈ levels, kernel.IsSum := by
  induction active using Nat.strong_induction_on generalizing input output launched with
  | _ active ih =>
      rw [reducePairsLoop] at ran
      by_cases more : active > 1
      · rw [if_pos more] at ran
        obtain ⟨levels, rfl, sums⟩ := ih (active / 2) (by omega) (issue_bind_ok ran)
        refine ⟨_ :: levels, List.append_assoc .., ?_⟩
        exact List.forall_mem_cons.mpr ⟨trivial, sums⟩
      · rw [if_neg more] at ran
        obtain ⟨-, rfl⟩ := Prod.mk.inj ran
        exact ⟨[], (List.append_nil _).symm, fun _ member => absurd member List.not_mem_nil⟩

omit gridSize in
theorem treeSpan_less {active : ℕ} (more : active > 1) :
    active / (if active < sqCudaK1TreeSpan then active else sqCudaK1TreeSpan) < active := by
  apply Nat.div_lt_self
  · omega
  · unfold sqCudaK1TreeSpan
    split <;> omega

theorem reduceTreeLoop_sums {input output final : SumsBuffer} {active : ℕ}
    {launched later : List K1Kernel}
    (ran : exec (reduceTreeLoop lastError gridSize input output active) launched =
      (.ok final, later)) :
    ∃ levels, later = launched ++ levels ∧ ∀ kernel ∈ levels, kernel.IsSum := by
  induction active using Nat.strong_induction_on generalizing input output launched with
  | _ active ih =>
      rw [reduceTreeLoop] at ran
      by_cases more : active > 1
      · rw [if_pos more] at ran
        obtain ⟨levels, rfl, sums⟩ := ih _ (treeSpan_less more) (issue_bind_ok ran)
        refine ⟨_ :: levels, List.append_assoc .., ?_⟩
        exact List.forall_mem_cons.mpr ⟨trivial, sums⟩
      · rw [if_neg more] at ran
        obtain ⟨-, rfl⟩ := Prod.mk.inj ran
        exact ⟨[], (List.append_nil _).symm, fun _ member => absurd member List.not_mem_nil⟩

/-- Three launches, a loop over sums and the last launch. -/
def Around (first second third : K1Kernel) (launched : List K1Kernel) : Prop :=
  ∃ levels final,
    launched = first :: second :: third :: levels ++ [K1Kernel.finishScale final] ∧
    ∀ kernel ∈ levels, kernel.IsSum

theorem around_ok {first second third : K1Kernel} {loop : K1Run SumsBuffer}
    (loopSums : ∀ {final launched later}, exec loop launched = (.ok final, later) →
      ∃ levels, later = launched ++ levels ∧ ∀ kernel ∈ levels, kernel.IsSum)
    {launched : List K1Kernel}
    (ran : exec (do
        issue lastError first
        issue lastError second
        issue lastError third
        let input ← loop
        issue lastError (.finishScale input)) [] = (.ok (), launched)) :
    Around first second third launched := by
  obtain ⟨final, reached, loopRan, last⟩ :=
    bind_ok (issue_bind_ok (issue_bind_ok (issue_bind_ok ran)))
  obtain ⟨levels, rfl, sums⟩ := loopSums loopRan
  exact ⟨levels, final, issue_ok last, sums⟩

variable {count : ℕ} {variant : K1Variant} {pointers : K1Pointers} {workspace : K1Workspace}

/-- The loop over the partial sums of either variant. -/
def sumsLoop (lastError : List K1Kernel → Option CudaError) (gridSize : ℤ) :
    K1Variant → SumsBuffer → SumsBuffer → ℕ → K1Run SumsBuffer
  | .optimized => reduceTreeLoop lastError gridSize
  | .reference => reducePairsLoop lastError gridSize

/-- Unless it fails before its first launch, K1 makes three launches, a loop and the last
one. -/
theorem launchK1_cases (nonempty : count ≠ 0) (gridSize : ℤ) (variant : K1Variant)
    (pointers : K1Pointers) (workspace : K1Workspace) :
    (∃ error, ∀ lastError, launchK1 lastError gridSize variant pointers count (some workspace) =
      throw error) ∨
    ∃ scan partials sum padded, scan.IsScan count partials ∧ sum.IsSum ∧ ∀ lastError,
      launchK1 lastError gridSize variant pointers count (some workspace) = (do
        issue lastError scan
        issue lastError (.reduceMax partials)
        issue lastError sum
        let input ← sumsLoop lastError gridSize variant .a .b padded
        issue lastError (.finishScale input)) := by
  unfold launchK1
  simp only [if_neg nonempty]
  by_cases geometry : validLaunchGeometry sqCudaReductionThreads gridSize = false
  · simp only [if_pos geometry]
    exact .inl ⟨_, fun _ => rfl⟩
  simp only [if_neg geometry]
  generalize (if gridSize > 0 then gridSize.toNat else if workspace.counts.blockCount <
    sqCudaMaxGridSize then workspace.counts.blockCount else sqCudaMaxGridSize) = maxGrid
  generalize (if gridSize > 0 then gridSize.toNat else if workspace.counts.paddedCount <
    sqCudaMaxGridSize then workspace.counts.paddedCount else sqCudaMaxGridSize) = sumGrid
  split
  · exact .inl ⟨_, fun _ => rfl⟩
  rename_i counts
  simp only [not_or, not_not] at counts
  obtain ⟨blocks, padded, maxGridPos, -⟩ := counts
  rw [ceilDiv_eq_blockCount] at blocks
  split
  · cases variant with
    | optimized =>
        obtain ⟨pos, -⟩ := optimizedMaxGrid_fits gridSize nonempty blocks
        unfold launchK1Optimized
        dsimp only
        split
        · exact .inl ⟨_, fun _ => rfl⟩
        · exact .inr ⟨.maxVector _, _, .sumWarps .., _, ⟨pos, rfl⟩, trivial, fun _ => rfl⟩
    | reference =>
        exact .inr ⟨.maxBlocks .., _, .sumBlocks .., _,
          ⟨Nat.pos_of_ne_zero maxGridPos, blocks, rfl⟩, trivial, fun _ => rfl⟩
  · exact .inl ⟨_, fun _ => rfl⟩

/-- What a computation does without an error it does when no launch reports one. -/
def Quietly {α : Type} (run quiet : K1Run α) : Prop :=
  ∀ launched result later, exec run launched = (.ok result, later) →
    exec quiet launched = (.ok result, later)

theorem quietly_refl {α : Type} (run : K1Run α) : Quietly run run :=
  fun _ _ _ ran => ran

theorem Quietly.bind {α β : Type} {run quiet : K1Run α} {next next' : α → K1Run β}
    (first : Quietly run quiet) (rest : ∀ result, Quietly (next result) (next' result)) :
    Quietly (run >>= next) (quiet >>= next') := by
  intro launched result later ran
  obtain ⟨middle, reached, ranFirst, ranNext⟩ := bind_ok ran
  rw [exec_bind_ok (first _ _ _ ranFirst)]
  exact rest _ _ _ _ ranNext

/-- No launch reports an error. -/
def noError : List K1Kernel → Option CudaError := fun _ => none

theorem quietly_issue (kernel : K1Kernel) :
    Quietly (issue lastError kernel) (issue noError kernel) := by
  intro launched result later ran
  rw [issue_ok ran]
  rfl

theorem quietly_reducePairsLoop (input output : SumsBuffer) (active : ℕ) :
    Quietly (reducePairsLoop lastError gridSize input output active)
      (reducePairsLoop noError gridSize input output active) := by
  induction active using Nat.strong_induction_on generalizing input output with
  | _ active ih =>
      rw [reducePairsLoop, reducePairsLoop]
      by_cases more : active > 1
      · rw [if_pos more, if_pos more]
        exact (quietly_issue _).bind fun _ => ih (active / 2) (by omega) _ _
      · rw [if_neg more, if_neg more]
        exact quietly_refl _

theorem quietly_reduceTreeLoop (input output : SumsBuffer) (active : ℕ) :
    Quietly (reduceTreeLoop lastError gridSize input output active)
      (reduceTreeLoop noError gridSize input output active) := by
  induction active using Nat.strong_induction_on generalizing input output with
  | _ active ih =>
      rw [reduceTreeLoop, reduceTreeLoop]
      by_cases more : active > 1
      · rw [if_pos more, if_pos more]
        exact (quietly_issue _).bind fun _ => ih _ (treeSpan_less more) _ _
      · rw [if_neg more, if_neg more]
        exact quietly_refl _

theorem quietly_sumsLoop (variant : K1Variant) (input output : SumsBuffer) (active : ℕ) :
    Quietly (sumsLoop lastError gridSize variant input output active)
      (sumsLoop noError gridSize variant input output active) := by
  cases variant with
  | optimized => exact quietly_reduceTreeLoop input output active
  | reference => exact quietly_reducePairsLoop input output active

theorem quietly_launchK1 (nonempty : count ≠ 0) :
    Quietly (launchK1 lastError gridSize variant pointers count (some workspace))
      (launchK1 noError gridSize variant pointers count (some workspace)) := by
  obtain ⟨error, throws⟩ | ⟨scan, partials, sum, padded, -, -, same⟩ :=
    launchK1_cases nonempty gridSize variant pointers workspace
  · rw [throws, throws]
    exact quietly_refl _
  · rw [same, same]
    apply (quietly_issue _).bind
    intro _
    apply (quietly_issue _).bind
    intro _
    apply (quietly_issue _).bind
    intro _
    apply (quietly_sumsLoop _ _ _ _).bind
    intro _
    exact quietly_issue _

theorem sumsLoop_sums {input output final : SumsBuffer} {active : ℕ}
    {launched later : List K1Kernel}
    (ran : exec (sumsLoop lastError gridSize variant input output active) launched =
      (.ok final, later)) :
    ∃ levels, later = launched ++ levels ∧ ∀ kernel ∈ levels, kernel.IsSum := by
  cases variant with
  | optimized => exact reduceTreeLoop_sums ran
  | reference => exact reducePairsLoop_sums ran

/-- The launches that K1 makes without an error. -/
theorem launchK1_shape (nonempty : count ≠ 0) (bound : count ≤ uint64Max) {before : K1Counts}
    (geometry : validLaunchGeometry sqCudaReductionThreads gridSize = true)
    (sized : setK1WorkspaceGeometry (some before) count = (.ok, some workspace.counts))
    (ready : K1Ready pointers workspace) {launched : List K1Kernel}
    (ran : exec (launchK1 lastError gridSize variant pointers count (some workspace)) [] =
      (.ok (), launched)) :
    K1Shape count launched := by
  have silent : ∀ launched, noError launched = none := fun _ => rfl
  obtain ⟨kernels, final, quiet, -, fits, left⟩ :=
    launchK1_run silent nonempty bound geometry sized ready variant
  have same := (quietly_launchK1 nonempty _ _ _ ran).symm.trans quiet
  obtain rfl : launched = kernels ++ [K1Kernel.finishScale final] := (Prod.mk.inj same).2
  obtain ⟨error, throws⟩ | ⟨scan, partials, sum, padded, isScan, isSum, whole⟩ :=
    launchK1_cases nonempty gridSize variant pointers workspace
  · rw [throws] at ran
    cases (Prod.mk.inj ran).1
  · rw [whole] at ran
    obtain ⟨levels, last, split, sums⟩ := around_ok sumsLoop_sums ran
    obtain ⟨rfl, ends⟩ := List.append_inj' split rfl
    obtain rfl : final = last := K1Kernel.finishScale.inj (List.cons.inj ends).1
    refine ⟨scan, partials, sum :: levels, final, rfl, isScan, ?_, ?_⟩
    · intro kernel member
      refine ⟨?_, fits kernel (List.mem_cons_of_mem _ (List.mem_cons_of_mem _ member))⟩
      exact List.forall_mem_cons.mpr ⟨isSum, sums⟩ kernel member
    · rw [List.foldl_cons, List.foldl_cons] at left
      cases scan with
      | maxBlocks grid blocks => exact left
      | maxVector grid => exact left
      | _ => exact isScan.elim

end

/-- Both variants of K1 leave the scale of the tensor, or the status with which
`sq_compute_scale` fails, for every grid and whatever the order of the threads of each
launch. -/
theorem launchK1_delivers [Arith Format.binary32] {lastError : List K1Kernel → Option CudaError}
    {count : ℕ} (nonempty : count ≠ 0) (bound : count ≤ uint64Max) {gridSize : ℤ}
    (geometry : validLaunchGeometry sqCudaReductionThreads gridSize = true)
    {workspace : K1Workspace} {before : K1Counts}
    (sized : setK1WorkspaceGeometry (some before) count = (.ok, some workspace.counts))
    {pointers : K1Pointers} (ready : K1Ready pointers workspace) {variant : K1Variant}
    {launched : List K1Kernel}
    (ran : exec (launchK1 lastError gridSize variant pointers count (some workspace)) [] =
      (.ok (), launched)) (schedulers : ℕ → Scheduler) (memory : K1Memory) :
    (runLaunches count schedulers launched memory).Delivers (tensorScale memory.values count) :=
  (launchK1_shape nonempty bound geometry sized ready ran).delivers schedulers memory

end Stoquant

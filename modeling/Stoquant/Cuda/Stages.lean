import Stoquant.Cuda.Coverage
import Stoquant.Cuda.Device
import Stoquant.Par.Silent
import Stoquant.Quantizer.ScaleSound

/-!
# What the enqueued operations do

K1 leaves the scale of the tensor, K2 the codes and the flags of the values, and K3 the
payload, whatever the order of their threads.
-/

namespace Stoquant

open Abort Ieee Loop Par

section

variable [Arith Format.binary32] {Host : Type}

/-! ## Operations one after the other -/

theorem runOps_append (device : CudaDevice) (first second : List DeviceOp) (ran : ℕ)
    (memory : DeviceMemory) :
    runOps device (first ++ second) ran memory =
      runOps device second (ran + first.length) (runOps device first ran memory) := by
  induction first generalizing ran memory with
  | nil => rfl
  | cons op rest ih =>
      rw [List.cons_append, runOps, ih, List.length_cons, Nat.add_comm rest.length 1,
        ← Nat.add_assoc]
      rfl

theorem CudaState.enqueue_enqueue (device : CudaDevice) (first second : List DeviceOp)
    (state : CudaState Host) :
    (state.enqueue device first).enqueue device second =
      state.enqueue device (first ++ second) := by
  unfold CudaState.enqueue
  cases state.capture with
  | some captured =>
      dsimp only
      rw [List.append_assoc]
  | none =>
      dsimp only
      rw [runOps_append, List.length_append, Nat.add_assoc]

theorem On.enqueue {holds after : DeviceMemory → Host → Prop} {device : CudaDevice}
    {ops : List DeviceOp} {state : CudaState Host} (on : On holds state)
    (does : ∀ ran memory host, holds memory host → after (runOps device ops ran memory) host) :
    On after (state.enqueue device ops) := by
  obtain ⟨capture, start⟩ := on
  unfold CudaState.enqueue
  rw [capture]
  exact ⟨rfl, does _ _ _ start⟩

/-! ## K1 -/

omit [Arith Format.binary32] in
theorem DeviceMemory.k1_withK1 (own : Bool) (memory : DeviceMemory) {later : K1Memory}
    (values : later.values = memory.values) : (memory.withK1 own later).k1 own = later := by
  cases own with
  | true => exact congrArg (fun v => K1Memory.mk v _ _ _ _) values.symm
  | false => exact congrArg (fun v => K1Memory.mk v _ _ _ _) values.symm

omit [Arith Format.binary32] in
theorem DeviceMemory.withK1_withK1 (own : Bool) (memory : DeviceMemory) (first second : K1Memory) :
    (memory.withK1 own first).withK1 own second = memory.withK1 own second := by
  cases own with
  | true => rfl
  | false => rfl

theorem K1Kernel.run_values (kernel : K1Kernel) (scheduler : Scheduler) (count : ℕ)
    (memory : K1Memory) : (kernel.run scheduler count memory).values = memory.values := by
  cases kernel with
  | finishScale sum =>
      unfold K1Kernel.run finishScaleKernel
      dsimp only
      split_ifs
      · rfl
      · rfl
      · rfl
      · rfl
  | _ => rfl

theorem runOps_k1 (device : CudaDevice) (own : Bool) (count : ℕ) (launched : List K1Kernel)
    (ran : ℕ) (memory : DeviceMemory) :
    runOps device (launched.map (DeviceOp.k1 own count)) ran memory =
      memory.withK1 own
        (runLaunches count (fun i => device.schedule (ran + i)) launched (memory.k1 own)) := by
  induction launched generalizing ran memory with
  | nil => cases own <;> rfl
  | cons kernel rest ih =>
      rw [List.map_cons, runOps, ih, DeviceOp.run, DeviceMemory.withK1_withK1,
        DeviceMemory.k1_withK1 own memory (kernel.run_values _ _ _), runLaunches]
      simp only [Nat.add_assoc, Nat.add_comm 1]
      rfl

/-- The memory after K1: a scale or a status, and all else as before. -/
def ScaleLeft (own : Bool) (count : ℕ) (before after : DeviceMemory) : Prop :=
  ∃ later : K1Memory, after = before.withK1 own later ∧
    later.Delivers (tensorScale before.values count)

variable {device : CudaDevice} {own : Bool} {count : ℕ}

theorem K1Shape.scaleLeft {launched : List K1Kernel} (shape : K1Shape count launched)
    (device : CudaDevice) (own : Bool) (ran : ℕ) (memory : DeviceMemory) :
    ScaleLeft own count memory
      (runOps device (launched.map (DeviceOp.k1 own count)) ran memory) :=
  ⟨_, runOps_k1 device own count launched ran memory, shape.delivers _ (memory.k1 own)⟩

/-- On a quiet device K1 enqueues its kernels. -/
theorem quiet_launchK1On (Host : Type) (quiet : device.Quiet) (own : Bool) (nonempty : count ≠ 0)
    (bound : count ≤ uint64Max) {gridSize : ℤ}
    (geometry : validLaunchGeometry sqCudaReductionThreads gridSize = true)
    {workspace : K1Workspace} {before : K1Counts}
    (sized : setK1WorkspaceGeometry (some before) count = (.ok, some workspace.counts))
    {pointers : K1Pointers} (ready : K1Ready pointers workspace) (variant : K1Variant) :
    ∃ launched, K1Shape count launched ∧ ∀ state : CudaState Host,
      exec (launchK1On device own variant pointers count (some workspace) gridSize) state =
        (.ok (), { state with calls := state.calls ++ launched.map CudaCall.kernelError }.enqueue
          device (launched.map (DeviceOp.k1 own count))) := by
  have noErrors : ∀ calls : List CudaCall,
      (fun launched : List K1Kernel =>
        device.outcome (calls ++ launched.map CudaCall.kernelError)) =
        noError := fun calls => funext fun launched => quiet.calls _
  have silent : ∀ launched, noError launched = none := fun _ => rfl
  obtain ⟨kernels, final, ran, -⟩ :=
    launchK1_run silent nonempty bound geometry sized ready variant
  refine ⟨_, launchK1_shape nonempty bound geometry sized ready ran, ?_⟩
  intro state
  rw [exec_launchK1On, noErrors, ran]

/-! ## K2 and K3 -/

variable {bitWidth : ℕ} {prescribedWords : Bool} {stream : SqRngStream} {blockSize gridSize : ℤ}

/-- The word of an element: prescribed, or drawn. -/
def memoryWord (prescribedWords : Bool) (stream : SqRngStream) (memory : DeviceMemory) (i : ℕ) :
    Word :=
  if prescribedWords then memory.words i else streamWord stream i

/-- The memory after K2: the flags and the codes of the values. -/
structure CodesLeft (bitWidth count : ℕ) (prescribedWords : Bool) (stream : SqRngStream)
    (before after : DeviceMemory) : Prop where
  kept : after = { before with
    flags := after.flags, codes := after.codes, payload := after.payload }
  flags : before.flags = 0 → ∀ flag, flag ∈ after.flags ↔
    ∃ i < count, flag ∈ elementFlags before.scale (before.values i)
  codes : ∀ i < count, isfinite (before.values i) = true → after.codes i =
    elementCode (signedLimit bitWidth) before.scale (before.values i)
      (memoryWord prescribedWords stream before i)

/-- The operation that a launch of K2 enqueues. -/
def k2Op (bitWidth count : ℕ) (prescribedWords : Bool) (stream : SqRngStream)
    (blockSize gridSize : ℤ) : DeviceOp :=
  .k2 fun scale => launchedTask
    (sqCudaLaunchK2 bitWidth count scale prescribedWords stream true blockSize gridSize)

/-- The operation that a launch of K3 enqueues. -/
def k3Op (bitWidth count : ℕ) (blockSize gridSize : ℤ) : DeviceOp :=
  .k3 (launchedTask (sqCudaLaunchK3 bitWidth count true blockSize gridSize))

section

variable (supported : Supported bitWidth) (nonempty : count ≠ 0)
  (geometry : validLaunchGeometry blockSize gridSize = true)

include supported nonempty geometry

theorem sqCudaLaunchK2_eq (scale : F32) (prescribedWords : Bool) (stream : SqRngStream) :
    ∃ grid, 0 < grid * blockSize.toNat ∧
      sqCudaLaunchK2 bitWidth count scale prescribedWords stream true blockSize gridSize =
        .ok (some (roundKernel bitWidth count scale prescribedWords stream grid
          blockSize.toNat)) := by
  have groups : 0 < ceilDiv count sqPhiloxWordsPerGroup :=
    ceilDiv_pos (Nat.pos_of_ne_zero nonempty) (by decide)
  have pos := launchGrid_pos groups geometry
  refine ⟨_, pos, ?_⟩
  unfold sqCudaLaunchK2
  dsimp only
  rw [if_neg supported.ne, if_neg nonempty, if_neg (by simp [geometry]), if_neg]
  rintro (⟨⟨⟩⟩ | none)
  rw [none, Nat.zero_mul] at pos
  exact absurd pos (Nat.lt_irrefl 0)

omit [Arith Format.binary32] in
theorem sqCudaLaunchK3_eq :
    ∃ grid, 0 < grid * blockSize.toNat ∧
      sqCudaLaunchK3 bitWidth count true blockSize gridSize =
        .ok (some (packKernel bitWidth count grid blockSize.toNat)) := by
  have bytes : 0 < sqPayloadSize bitWidth count := by
    unfold sqPayloadSize
    split <;> omega
  have pos := launchGrid_pos bytes geometry
  refine ⟨_, pos, ?_⟩
  unfold sqCudaLaunchK3
  dsimp only
  rw [if_neg supported.ne, if_neg nonempty, if_neg (by simp [geometry]), if_neg]
  rintro (⟨⟨⟩⟩ | none)
  rw [none, Nat.zero_mul] at pos
  exact absurd pos (Nat.lt_irrefl 0)

theorem k2Op_run (scheduler : Scheduler) (memory : DeviceMemory) :
    CodesLeft bitWidth count prescribedWords stream memory
      ((k2Op bitWidth count prescribedWords stream blockSize gridSize).run scheduler memory) := by
  obtain ⟨grid, pos, launched⟩ := sqCudaLaunchK2_eq supported nonempty geometry memory.scale
    prescribedWords stream
  show CodesLeft _ _ _ _ _ (memory.withCodes (scheduler.run
    (launchedTask (sqCudaLaunchK2 bitWidth count memory.scale prescribedWords stream true
      blockSize gridSize)) memory.codeCells))
  rw [launched]
  have ran := scheduler.complete (launchedTask (.ok (some (roundKernel bitWidth count memory.scale
    prescribedWords stream grid blockSize.toNat)))) memory.codeCells
  constructor
  · rfl
  · intro clear flag
    exact roundKernel_flags pos ran clear
  · intro i inside finite
    exact roundKernel_code pos ran inside finite

omit [Arith Format.binary32] supported nonempty geometry in
theorem DeviceMemory.withCodes_eq (memory : DeviceMemory) {later : Mem CodeAddr.Val ValidationFlag}
    (kept : later.log = memory.flags) :
    memory.withCodes later =
      { memory with
        codes := fun i => later.cell (.code i)
        payload := fun i => later.cell (.payload i) } := by
  unfold DeviceMemory.withCodes
  rw [kept]

omit [Arith Format.binary32] supported nonempty geometry in
theorem silent_packKernel (bitWidth count grid blockSize : ℕ) :
    (packKernel bitWidth count grid blockSize).Silent := by
  unfold packKernel
  split
  · apply Task.silent_team
    intro _ byteIndex low
    dsimp only
    split
    · exact fun _ => trivial
    · trivial
  · exact Task.silent_team fun _ _ _ => trivial

theorem k3Op_run (scheduler : Scheduler) (memory : DeviceMemory) :
    let after := (k3Op bitWidth count blockSize gridSize).run scheduler memory
    after = { memory with codes := after.codes, payload := after.payload } ∧
    ∀ k < sqPayloadSize bitWidth count,
      after.payload k = payloadByte bitWidth count memory.codes k := by
  obtain ⟨grid, pos, launched⟩ := sqCudaLaunchK3_eq supported nonempty geometry
  have ran := scheduler.complete (packKernel bitWidth count grid blockSize.toNat) memory.codeCells
  have packed := packKernel_payload pos supported ran
  have quiet := (silent_packKernel bitWidth count grid blockSize.toNat).steps ran
  unfold k3Op
  rw [launched]
  exact ⟨memory.withCodes_eq quiet, packed⟩

end

/-- On a quiet device a launch of K2 enqueues its kernel. -/
theorem quiet_launchK2On (quiet : device.Quiet) (supported : Supported bitWidth)
    (nonempty : count ≠ 0) (geometry : validLaunchGeometry blockSize gridSize = true)
    (state : CudaState Host) :
    exec (launchK2On device bitWidth count prescribedWords true stream blockSize gridSize) state =
      (.ok (), (state.enqueue device
        [k2Op bitWidth count prescribedWords stream blockSize gridSize]).called .lastError) := by
  obtain ⟨grid, -, launched⟩ := sqCudaLaunchK2_eq supported nonempty geometry zeroF
    prescribedWords stream
  unfold launchK2On launchOp
  dsimp only
  rw [launched]
  exact (exec_bind_ok (exec_change _ _)).trans (quiet_exec quiet _ _ _)

/-- So does one of K3. -/
theorem quiet_launchK3On (quiet : device.Quiet) (supported : Supported bitWidth)
    (nonempty : count ≠ 0) (geometry : validLaunchGeometry blockSize gridSize = true)
    (state : CudaState Host) :
    exec (launchK3On device bitWidth count true blockSize gridSize) state =
      (.ok (), (state.enqueue device [k3Op bitWidth count blockSize gridSize]).called
        .lastError) := by
  obtain ⟨grid, -, launched⟩ := sqCudaLaunchK3_eq supported nonempty geometry
  unfold launchK3On launchOp k3Op
  dsimp only
  rw [launched]
  exact (exec_bind_ok (exec_change _ _)).trans (quiet_exec quiet _ _ _)

theorem mem_elementFlags {scale value : F32} (flag : ValidationFlag) :
    flag ∈ elementFlags scale value ↔
      match flag with
      | .nonfinite => isfinite value = false
      | .anyNonzero => isfinite value = true ∧ value.eq zeroF = false
      | .badZeroScale =>
          isfinite value = true ∧ value.eq zeroF = false ∧ scale.eq zeroF = true := by
  unfold elementFlags
  cases flag <;> cases isfinite value <;> cases value.eq zeroF <;> cases scale.eq zeroF <;> simp

/-- The check of the flags is that of the CPU encoder. -/
theorem compressCheck_eq {values : ℕ → F32} {scale : F32} (nonempty : count ≠ 0)
    (finite : isfinite scale = true) (nonneg : scale.lt zeroF = false)
    {flags : Multiset ValidationFlag} (raised : ∀ flag, flag ∈ flags ↔
      ∃ i < count, flag ∈ elementFlags scale (values i)) :
    compressCheck scale flags = encodeStatus values count scale := by
  have nonfinite : .nonfinite ∈ flags ↔ allFinite values count = false := by
    rw [raised, allFinite_eq_false_iff]
    simp only [mem_elementFlags]
    rfl
  have encoded : encodeStatus values count scale =
      if !allFinite values count then .errNonfinite
      else if anyNonzero values count = scale.eq zeroF then .errScale
      else .ok := by
    unfold encodeStatus
    rw [if_neg (by simp [finite, nonneg]), if_neg nonempty]
  rw [encoded, compressCheck]
  by_cases all : allFinite values count = true
  · have valuesFinite := allFinite_iff.mp all
    have anyFlag : .anyNonzero ∈ flags ↔ anyNonzero values count = true := by
      rw [raised]
      simp only [mem_elementFlags, anyNonzero, List.any_eq_true, List.mem_range,
        Bool.not_eq_true']
      refine exists_congr fun i => and_congr_right fun inside => ?_
      exact and_iff_right (valuesFinite i inside)
    have badFlag : .badZeroScale ∈ flags ↔
        anyNonzero values count = true ∧ scale.eq zeroF = true := by
      rw [← anyFlag, raised, raised]
      simp only [mem_elementFlags]
      constructor
      · rintro ⟨i, inside, isFinite, nonzero, zero⟩
        exact ⟨⟨i, inside, isFinite, nonzero⟩, zero⟩
      · rintro ⟨⟨i, inside, isFinite, nonzero⟩, zero⟩
        exact ⟨i, inside, isFinite, nonzero, zero⟩
    rw [if_neg (by rw [nonfinite, all]; exact Bool.noConfusion), all]
    simp only [anyFlag, badFlag]
    cases anyNonzero values count <;> cases scale.eq zeroF <;> simp
  · rw [if_pos (by rw [nonfinite]; simpa using all), if_pos (by simpa using all)]

/-! ## Only the values of the tensor count -/

section

omit [Arith Format.binary32]

variable {values values' : ℕ → F32}

theorem allFinite_congr (same : ∀ i < count, values i = values' i) :
    allFinite values count = allFinite values' count := by
  rw [Bool.eq_iff_iff, allFinite_iff, allFinite_iff]
  exact forall₂_congr fun i inside => by rw [same i inside]

theorem encodeStatus_congr (same : ∀ i < count, values i = values' i) (scale : F32) :
    encodeStatus values count scale = encodeStatus values' count scale := by
  have any : anyNonzero values count = anyNonzero values' count := by
    rw [Bool.eq_iff_iff]
    simp only [anyNonzero, List.any_eq_true, List.mem_range]
    exact exists_congr fun i => and_congr_right fun inside => by rw [same i inside]
  unfold encodeStatus
  rw [allFinite_congr same, any]

theorem scanMaxAbs_congr (same : ∀ i < count, values i = values' i) :
    scanMaxAbs values count = scanMaxAbs values' count := by
  induction count with
  | zero => rfl
  | succ n ih =>
      rw [scanMaxAbs, scanMaxAbs, ih fun i inside => same i (inside.trans n.lt_succ_self),
        same n n.lt_succ_self]

end

theorem tensorScale_congr {values values' : ℕ → F32} (same : ∀ i < count, values i = values' i) :
    tensorScale values count = tensorScale values' count := by
  have terms : scaleTerm values count = scaleTerm values' count := by
    funext maxAbs i
    unfold scaleTerm
    split
    · rw [same i ‹_›]
    · rfl
  unfold tensorScale squareSum partialLeaf blockTree
  rw [scanMaxAbs_congr same, terms]

end

end Stoquant

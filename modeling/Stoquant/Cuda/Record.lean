import Stoquant.Backends
import Stoquant.Cuda.Compress

/-!
# The GPU computes the record of the CPU

Without a failing call `sq_cuda_compress` returns the status of the tensor's record and, on
success, its scale and its payload, for every geometry, either variant of K1 and every order
of the threads.
-/

namespace Stoquant

open Abort Ieee Par

section

variable {Host : Type} {device : CudaDevice} (quiet : device.Quiet)
  {holds after : DeviceMemory → Host → Prop} {failed : SqStatus → CudaState Host → Prop}

include quiet

theorem quiet_orErrCuda (call : CudaCall) {effect : CudaState Host → CudaState Host}
    (does : ∀ state, On holds state → On after (effect state)) :
    Ends (On holds) (orErrCuda (sqCudaTry device call effect)) (fun _ => On after) failed := by
  apply Ends.orErrCuda
  exact quiet_try quiet fun state start => does (state.called call) start

theorem quiet_step (call : CudaCall) :
    Ends (On holds) (orErrCuda (sqCudaTry device call id)) (fun _ => On holds) failed :=
  quiet_orErrCuda quiet call fun _ start => start

theorem quiet_timedCopy (bytes : ℕ) {effect : CudaState Host → CudaState Host}
    (does : ∀ state, On holds state → On after (effect state)) :
    Ends (On holds) (timedCopy device bytes effect) (fun _ => On after) failed :=
  (quiet_orErrCuda quiet _ does).then fun _ => quiet_step quiet _

theorem quiet_finishKernelTiming (start stop : ℕ) :
    Ends (On holds) (finishKernelTiming device start stop) (fun _ => On holds) failed := by
  refine (quiet_step quiet _).then fun _ => ?_
  refine (quiet_step quiet _).then fun _ => ?_
  exact quiet_step quiet _

theorem quiet_deviceAvailable :
    Ends (On holds) (cudaDeviceAvailable device) (fun _ => On holds) failed := by
  refine (quiet_step quiet _).then fun _ => ?_
  rw [if_neg quiet.present]
  exact ends_pure fun _ start => start

theorem quiet_allocateK1Workspace (counts : K1Counts)
    {failed : CudaError → CudaState Host → Prop} :
    Ends (On holds) (allocateK1Workspace device counts)
      (fun workspace state => (workspace.counts = counts ∧
        workspace.maxPartials.isSome = true ∧ workspace.invalidPartials.isSome = true ∧
        workspace.sumsA.isSome = true ∧ workspace.sumsB.isSome = true) ∧ On holds state)
      failed := by
  refine (quiet_cudaMalloc quiet _).bind fun _ => ends_assuming fun ⟨_, maxPartials, _⟩ => ?_
  refine (quiet_cudaMalloc quiet _).bind fun _ => ends_assuming fun ⟨_, invalidPartials, _⟩ => ?_
  refine (quiet_cudaMalloc quiet _).bind fun _ => ends_assuming fun ⟨_, sumsA, _⟩ => ?_
  refine (quiet_cudaMalloc quiet _).bind fun _ => ends_assuming fun ⟨_, sumsB, _⟩ => ?_
  subst maxPartials invalidPartials sumsA sumsB
  exact ends_pure fun _ start => ⟨⟨rfl, rfl, rfl, rfl, rfl⟩, start⟩

omit quiet in
theorem ends_copied {α ε : Type} {failed : ε → CudaState Host → Prop}
    (read : DeviceMemory → α) :
    Ends (On holds) (copied read)
      (fun value => On fun memory host => holds memory host ∧ value = read memory) failed :=
  fun _ start => ⟨start.1, start.2, rfl⟩

end

section

variable {device : CudaDevice} (quiet : device.Quiet) (timed : Bool)
  {holds : DeviceMemory → CompressHost → Prop}
  {failed : SqStatus → CudaState CompressHost → Prop}

theorem ends_whenTimed {run : CudaRun CompressHost SqStatus Unit}
    (ends : Ends (On holds) run (fun _ => On holds) failed) :
    Ends (On holds) (whenTimed timed run) (fun _ => On holds) failed := by
  cases timed with
  | true => exact ends
  | false => exact ends_pure fun _ start => start

/-- Buffers that are all there, with a workspace of the tensor's geometry unless the scale
is prescribed. -/
structure BuffersReady (config : CudaConfig) (buffers : CompressBuffers) : Prop where
  values : ∃ address, buffers.values = some address ∧ address % 16 = 0
  scale : buffers.scale.isSome = true
  status : buffers.status.isSome = true
  validationFlags : buffers.validationFlags.isSome = true
  codes : buffers.codes.isSome = true
  payload : buffers.payload.isSome = true
  words : config.prescribedWords.isSome = true → buffers.words.isSome = true
  workspace : config.prescribedScale = none →
    setK1WorkspaceGeometry (some ⟨0, 0⟩) config.count = (.ok, some buffers.k1Workspace.counts) ∧
    buffers.k1Workspace.maxPartials.isSome = true ∧
    buffers.k1Workspace.invalidPartials.isSome = true ∧
    buffers.k1Workspace.sumsA.isSome = true ∧ buffers.k1Workspace.sumsB.isSome = true

include quiet

theorem quiet_allocateCompress (config : CudaConfig) {counts : K1Counts}
    (sized : config.prescribedScale = none →
      setK1WorkspaceGeometry (some ⟨0, 0⟩) config.count = (.ok, some counts))
    {failed : CudaError → CudaState CompressHost → Prop} :
    Ends (On holds) (allocateCompress device config counts)
      (fun buffers state => BuffersReady config buffers ∧ On holds state) failed := by
  have words : Ends (On holds)
      (cudaMallocIf device config.prescribedWords.isSome (config.count * 4))
      (fun pointer state => (config.prescribedWords.isSome = true → pointer.isSome = true) ∧
        On holds state) failed := by
    unfold cudaMallocIf
    refine ends_ite (fun _ => ?_) fun absent => ?_
    · refine (quiet_cudaMalloc quiet _).weaken (fun _ start => start) ?_ fun _ _ => id
      rintro _ _ ⟨⟨_, rfl, _⟩, start⟩
      exact ⟨fun _ => rfl, start⟩
    · exact ends_pure fun _ start => ⟨fun present => absurd present absent, start⟩
  have workspace : Ends (On holds) (compressWorkspace device config counts)
      (fun workspace state => (config.prescribedScale = none → workspace.counts = counts ∧
        workspace.maxPartials.isSome = true ∧ workspace.invalidPartials.isSome = true ∧
        workspace.sumsA.isSome = true ∧ workspace.sumsB.isSome = true) ∧ On holds state)
      failed := by
    unfold compressWorkspace
    refine ends_ite (fun prescribed => ?_) fun _ => ?_
    · refine ends_pure fun _ start => ⟨fun none => ?_, start⟩
      rw [none] at prescribed
      cases prescribed
    · refine (quiet_allocateK1Workspace quiet counts).weaken (fun _ start => start) ?_
        fun _ _ => id
      rintro _ _ ⟨ready, start⟩
      exact ⟨fun _ => ready, start⟩
  refine (quiet_cudaMalloc quiet _).bind fun _ => ends_assuming fun values => ?_
  refine (quiet_cudaMalloc quiet _).bind fun _ => ends_assuming fun ⟨_, scale, _⟩ => ?_
  refine (quiet_cudaMalloc quiet _).bind fun _ => ends_assuming fun ⟨_, status, _⟩ => ?_
  refine (quiet_cudaMalloc quiet _).bind fun _ => ends_assuming fun ⟨_, flags, _⟩ => ?_
  refine (quiet_cudaMalloc quiet _).bind fun _ => ends_assuming fun ⟨_, codes, _⟩ => ?_
  refine (quiet_cudaMalloc quiet _).bind fun _ => ends_assuming fun ⟨_, payload, _⟩ => ?_
  refine words.bind fun _ => ends_assuming fun wordsReady => ?_
  refine workspace.bind fun _ => ends_assuming fun workspaceReady => ?_
  subst scale status flags codes payload
  refine ends_pure fun _ start => ⟨⟨values, rfl, rfl, rfl, rfl, rfl, wordsReady, ?_⟩, start⟩
  intro none
  obtain ⟨rfl, maxPartials, invalidPartials, sumsA, sumsB⟩ := workspaceReady none
  exact ⟨sized none, maxPartials, invalidPartials, sumsA, sumsB⟩

end

/-! ## The stages -/

section

variable [Arith Format.binary32]

/-- The inputs of the kernels are on the device. -/
structure Loaded (config : CudaConfig) (x : F32Array) (payload : Ptr Byte)
    (memory : DeviceMemory) (host : CompressHost) : Prop where
  values : ∀ i < x.count, memory.values i = x.get i
  words : ∀ words, config.prescribedWords = some words → ∀ i < x.count, memory.words i = words i
  flags : memory.flags = 0
  payload : host.payload = payload

/-- The inputs and the scale of the record are on the device. -/
structure Scaled (config : CudaConfig) (x : F32Array) (payload : Ptr Byte) (scale : F32)
    (memory : DeviceMemory) (host : CompressHost) : Prop
    extends Loaded config x payload memory host where
  deviceScale : memory.scale = scale
  hostScale : host.scale = some scale
  resolved : resolveScale x config.prescribedScale = .ok scale

/-- The record that the compression is to make. -/
def CudaConfig.record (config : CudaConfig) (x : F32Array) : Except SqStatus TensorRecord :=
  tensorRecord config.bitWidth x config.ids config.prescribedScale config.prescribedWords

/-- The compression stops with the status of the record. -/
def Refuses (config : CudaConfig) (x : F32Array) (status : SqStatus)
    (_ : CudaState CompressHost) : Prop :=
  config.record x = .error status

/-- The codes of the record are on the device. -/
structure Coded (config : CudaConfig) (x : F32Array) (payload : Ptr Byte) (record : TensorRecord)
    (memory : DeviceMemory) (host : CompressHost) : Prop where
  codes : ∀ i < x.count, memory.codes i = record.codes i
  hostScale : host.scale = some record.scale
  payload : host.payload = payload
  record : config.record x = .ok record

/-- After K1: the scale of the tensor, or the status with which its computation fails. -/
structure Measured (config : CudaConfig) (x : F32Array) (payload : Ptr Byte)
    (memory : DeviceMemory) (host : CompressHost) : Prop
    extends Loaded config x payload memory host where
  measured : match tensorScale x.get x.count with
    | .ok scale => memory.status = .ok ∧ memory.scale = scale
    | .error status => memory.status = status

omit [Arith Format.binary32] in
theorem copyFrom_of_lt {α : Type} {count i : ℕ} {source buffer : ℕ → α} (inside : i < count) :
    copyFrom count source buffer i = source i :=
  if_pos inside

variable {device : CudaDevice} {config : CudaConfig} {x : F32Array} {payload : Ptr Byte}

theorem Loaded.measured {memory after : DeviceMemory} {host : CompressHost}
    (loaded : Loaded config x payload memory host)
    (left : ScaleLeft false x.count memory after) : Measured config x payload after host := by
  obtain ⟨later, rfl, delivers⟩ := left
  refine ⟨⟨loaded.values, loaded.words, loaded.flags, loaded.payload⟩, ?_⟩
  rw [tensorScale_congr loaded.values] at delivers
  cases scaled : tensorScale x.get x.count with
  | ok scale =>
      rw [scaled] at delivers
      exact delivers
  | error status =>
      rw [scaled] at delivers
      exact delivers

omit [Arith Format.binary32] in
theorem ends_exec {α ε : Type} {run : CudaRun CompressHost ε α} {result : α}
    {holds after : DeviceMemory → CompressHost → Prop}
    {failed : ε → CudaState CompressHost → Prop}
    {f : CudaState CompressHost → CudaState CompressHost}
    (ran : ∀ state, exec run state = (.ok result, f state))
    (does : ∀ state, On holds state → On after (f state)) :
    Ends (On holds) run (fun _ => On after) failed := by
  intro state start
  rw [ran]
  exact does state start

variable (quiet : device.Quiet) (timed : Bool)
  (values : config.values = x.values) (count : config.count = x.count)

include quiet count

include values in
theorem quiet_compressInputs :
    Ends (On fun memory host => memory.status = .ok ∧ memory.flags = 0 ∧ host.payload = payload)
      (compressInputs device config)
      (fun _ => On fun memory host => Loaded config x payload memory host ∧ memory.status = .ok)
      (Refuses config x) := by
  have copiedValues : Ends
      (On fun memory host => memory.status = .ok ∧ memory.flags = 0 ∧ host.payload = payload)
      (timedCopy device (config.count * 4) (CudaState.onDevice fun memory =>
        { memory with
          values := copyFrom config.count (config.values.getD fun _ => zeroF) memory.values }))
      (fun _ => On fun memory host => memory.status = .ok ∧ memory.flags = 0 ∧
        host.payload = payload ∧ ∀ i < x.count, memory.values i = x.get i)
      (Refuses config x) := by
    refine quiet_timedCopy quiet _ fun state ⟨capture, status, flags, kept⟩ => ?_
    refine ⟨capture, status, flags, kept, fun i inside => ?_⟩
    rw [values, count]
    exact copyFrom_of_lt inside
  refine copiedValues.then fun _ => ?_
  cases prescribed : config.prescribedWords with
  | some words =>
      refine quiet_timedCopy quiet _ fun state ⟨capture, status, flags, kept, loaded⟩ => ?_
      refine ⟨capture, ⟨loaded, ?_, flags, kept⟩, status⟩
      intro other same i inside
      rw [prescribed] at same
      cases same
      rw [count]
      exact copyFrom_of_lt inside
  | none =>
      refine ends_pure fun state ⟨capture, status, flags, kept, loaded⟩ => ?_
      refine ⟨capture, ⟨loaded, ?_, flags, kept⟩, status⟩
      intro other same
      rw [prescribed] at same
      cases same

theorem quiet_compressScale (nonempty : x.count ≠ 0)
    (geometry : validLaunchGeometry sqCudaReductionThreads config.gridSize = true)
    {buffers : CompressBuffers} (ready : BuffersReady config buffers) (variant : K1Variant) :
    Ends (On fun memory host => Loaded config x payload memory host ∧ memory.status = .ok)
      (compressScale device config timed buffers variant)
      (fun scale => On (Scaled config x payload scale)) (Refuses config x) := by
  unfold compressScale
  cases prescribed : config.prescribedScale with
  | some scale =>
      dsimp only
      have changed : Ends
          (On fun memory host => Loaded config x payload memory host ∧ memory.status = .ok)
          (change (CudaState.onHost fun _ host => { host with scale := some scale }))
          (fun _ => On fun memory host => Loaded config x payload memory host ∧
            host.scale = some scale) (Refuses config x) :=
        ends_change fun state ⟨capture, loaded, _⟩ =>
          ⟨capture, ⟨loaded.values, loaded.words, loaded.flags, loaded.payload⟩, rfl⟩
      refine changed.then fun _ => ?_
      have stored : Ends
          (On fun memory host => Loaded config x payload memory host ∧ host.scale = some scale)
          (timedCopy device 4 (CudaState.onDevice fun memory => { memory with scale := scale }))
          (fun _ => On (Scaled config x payload scale)) (Refuses config x) := by
        refine quiet_timedCopy quiet _ fun state ⟨capture, loaded, hostScale⟩ => ?_
        refine ⟨capture, ⟨loaded.values, loaded.words, loaded.flags, loaded.payload⟩, rfl,
          hostScale, ?_⟩
        rw [prescribed]
        rfl
      refine stored.then fun _ => ?_
      exact ends_pure fun _ start => start
  | none =>
      obtain ⟨sized, maxPartials, invalidPartials, sumsA, sumsB⟩ := ready.workspace prescribed
      rw [count] at sized
      have k1Ready : K1Ready ⟨buffers.values, buffers.scale, buffers.status⟩
          buffers.k1Workspace :=
        ⟨ready.values, ready.scale, ready.status, maxPartials, invalidPartials, sumsA, sumsB⟩
      obtain ⟨launched, shape, ran⟩ := quiet_launchK1On CompressHost quiet false nonempty
        (x.count_le) geometry sized k1Ready variant
      dsimp only
      rw [count]
      refine (ends_whenTimed timed (quiet_step quiet _)).then fun _ => ?_
      refine (quiet_step quiet _).then fun _ => ?_
      have k1 : Ends
          (On fun memory host => Loaded config x payload memory host ∧ memory.status = .ok)
          (orErrCuda (launchK1On device false variant
            ⟨buffers.values, buffers.scale, buffers.status⟩ x.count (some buffers.k1Workspace)
            config.gridSize))
          (fun _ => On (Measured config x payload)) (Refuses config x) := by
        apply Ends.orErrCuda
        refine ends_exec ran fun state start => ?_
        have does : ∀ at_ memory host,
            (Loaded config x payload memory host ∧ memory.status = .ok) →
            Measured config x payload (runOps device
              (launched.map (DeviceOp.k1 false x.count)) at_ memory) host :=
          fun at_ memory host ⟨loaded, _⟩ =>
            loaded.measured (shape.scaleLeft device false at_ memory)
        exact On.enqueue start does
      refine k1.then fun _ => ?_
      refine (ends_whenTimed timed (quiet_finishKernelTiming quiet _ _)).then fun _ => ?_
      refine (quiet_step quiet _).then fun _ => ?_
      refine (quiet_timedCopy quiet _ fun _ start => start).then fun _ => ?_
      refine (ends_copied (·.status)).bind fun hostStatus => ?_
      have download : Ends
          (On fun memory host => Measured config x payload memory host ∧
            hostStatus = memory.status)
          (timedCopy device 4 (CudaState.onHost fun memory host =>
            { host with scale := some memory.scale }))
          (fun _ => On fun memory host => (Measured config x payload memory host ∧
            hostStatus = memory.status) ∧ host.scale = some memory.scale) (Refuses config x) :=
        quiet_timedCopy quiet _ fun state ⟨capture, measured, same⟩ =>
          ⟨capture, ⟨⟨⟨measured.values, measured.words, measured.flags, measured.payload⟩,
            measured.measured⟩, same⟩, rfl⟩
      refine download.then fun _ => ?_
      refine (ends_copied (·.scale)).bind fun scale => ?_
      refine ends_ite (fun failed => ?_) fun ok => ?_
      · refine ends_throw fun state ⟨_, ⟨⟨measured, same⟩, _⟩, _⟩ => ?_
        have outcome := measured.measured
        unfold Refuses CudaConfig.record tensorRecord resolveScale
        rw [prescribed]
        cases scaled : tensorScale x.get x.count with
        | ok scale =>
            rw [scaled] at outcome
            exact absurd (same.trans outcome.1) failed
        | error status =>
            rw [scaled] at outcome
            rw [same, outcome]
      · refine ends_pure fun state ⟨capture, ⟨⟨measured, same⟩, hostScale⟩, read⟩ => ?_
        refine ⟨capture, measured.toLoaded, read.symm, by rw [hostScale, read], ?_⟩
        have outcome := measured.measured
        unfold resolveScale
        rw [prescribed]
        cases scaled : tensorScale x.get x.count with
        | ok scale =>
            rw [scaled] at outcome
            rw [read, outcome.2]
        | error status =>
            rw [scaled] at outcome
            exact absurd (outcome.symm.trans (same.symm.trans (not_not.mp ok)))
              (tensorScale_error scaled)

end

/-- A scale that was accepted as prescribed, or computed, is finite and not negative. -/
theorem resolveScale_valid [RoundedArith Format.binary32] {x : F32Array} {scale : F32}
    {prescribedScale : Option F32}
    (accepted : ¬ prescribedScale.any fun scale => !isfinite scale || scale.lt zeroF)
    (resolved : resolveScale x prescribedScale = .ok scale) :
    isfinite scale = true ∧ scale.lt zeroF = false := by
  unfold resolveScale at resolved
  cases prescribedScale with
  | some prescribed =>
      cases resolved
      simpa using accepted
  | none =>
      have computed := @scaleComputed_tensorScale _ x.get x.count x.fits
      rw [show tensorScale x.get x.count = .ok scale from resolved] at computed
      have encoded := encodeStatus_ok_iff.mp computed.encodeStatus_eq
      exact ⟨encoded.1, encoded.2.1⟩

section

variable [RoundedArith Format.binary32] {device : CudaDevice} {config : CudaConfig}
  {x : F32Array} {payload : Ptr Byte} (quiet : device.Quiet) (timed : Bool)
  (count : config.count = x.count) (supported : Supported config.bitWidth)
  (nonempty : x.count ≠ 0)
  (geometry : validLaunchGeometry config.blockSize config.gridSize = true)
  {buffers : CompressBuffers} (ready : BuffersReady config buffers)

/-- The record once its scale and its stream are known. -/
theorem record_eq {stream : SqRngStream} {scale : F32} (supported : Supported config.bitWidth)
    (drawn : sqRngStreamInit config.ids.seed config.ids.tensorId config.ids.invocationId =
      some stream)
    (resolved : resolveScale x config.prescribedScale = .ok scale) :
    config.record x =
      if encodeStatus x.get x.count scale = .ok then
        .ok ⟨scale, fun i => elementCode (signedLimit config.bitWidth) scale (x.get i)
          (config.prescribedWords.getD (streamWord stream) i)⟩
      else .error (encodeStatus x.get x.count scale) := by
  have status : storeStatus config.bitWidth x scale = encodeStatus x.get x.count scale :=
    if_neg supported.ne
  unfold CudaConfig.record tensorRecord resolveWords
  rw [resolved, drawn]
  cases config.prescribedWords with
  | some words =>
      dsimp only
      rw [status]
      rfl
  | none =>
      dsimp only
      rw [status]
      rfl

include quiet count supported nonempty geometry ready

theorem quiet_compressRound {stream : SqRngStream} {scale : F32}
    (accepted : ¬ config.prescribedScale.any fun scale => !isfinite scale || scale.lt zeroF)
    (drawn : sqRngStreamInit config.ids.seed config.ids.tensorId config.ids.invocationId =
      some stream) :
    Ends (On (Scaled config x payload scale))
      (compressRound device config timed buffers stream scale)
      (fun _ => On fun memory host => ∃ record, Coded config x payload record memory host)
      (Refuses config x) := by
  have present : (buffers.values.isSome && buffers.scale.isSome && buffers.codes.isSome &&
      buffers.validationFlags.isSome &&
      !(config.prescribedWords.isSome && buffers.words.isNone)) = true := by
    obtain ⟨address, valuesEq, -⟩ := ready.values
    have words := ready.words
    rw [valuesEq, ready.scale, ready.codes, ready.validationFlags]
    cases prescribed : config.prescribedWords with
    | none => rfl
    | some given =>
        obtain ⟨address, wordsEq⟩ := Option.isSome_iff_exists.mp (words (by rw [prescribed]; rfl))
        rw [wordsEq]
        rfl
  let before := fun (memory : DeviceMemory) (host : CompressHost) =>
    ∃ start, Scaled config x payload scale start host ∧
      CodesLeft config.bitWidth x.count config.prescribedWords.isSome stream start memory
  have k2 : Ends (On (Scaled config x payload scale))
      (orErrCuda (launchK2On device config.bitWidth x.count config.prescribedWords.isSome true
        stream config.blockSize config.gridSize)) (fun _ => On before) (Refuses config x) := by
    apply Ends.orErrCuda
    refine ends_exec (quiet_launchK2On quiet supported nonempty geometry) fun state start => ?_
    have does : ∀ at_ memory host, Scaled config x payload scale memory host →
        before (runOps device [k2Op config.bitWidth x.count config.prescribedWords.isSome stream
          config.blockSize config.gridSize] at_ memory) host :=
      fun at_ memory host scaled =>
        ⟨memory, scaled, k2Op_run supported nonempty geometry (device.schedule at_) memory⟩
    exact On.enqueue start does
  unfold compressRound
  dsimp only
  rw [present, count]
  refine (ends_whenTimed timed (quiet_step quiet _)).then fun _ => ?_
  refine (quiet_step quiet _).then fun _ => ?_
  refine k2.then fun _ => ?_
  refine (ends_whenTimed timed (quiet_finishKernelTiming quiet _ _)).then fun _ => ?_
  refine (quiet_step quiet _).then fun _ => ?_
  refine (quiet_timedCopy quiet _ fun _ start => start).then fun _ => ?_
  refine (ends_copied (·.flags)).bind fun flags => ?_
  -- The flags decide as the checks of the CPU encoder do.
  have checked : ∀ {start memory : DeviceMemory} {host : CompressHost},
      Scaled config x payload scale start host →
      CodesLeft config.bitWidth x.count config.prescribedWords.isSome stream start memory →
      compressCheck scale memory.flags = encodeStatus x.get x.count scale := by
    intro start memory host scaled left
    obtain ⟨finite, nonneg⟩ := resolveScale_valid accepted scaled.resolved
    have raised := left.flags scaled.flags
    rw [scaled.deviceScale] at raised
    rw [compressCheck_eq nonempty finite nonneg raised]
    exact encodeStatus_congr scaled.values scale
  refine ends_ite (fun failed => ?_) fun passed => ?_
  · refine ends_throw fun state ⟨_, ⟨start, scaled, left⟩, same⟩ => ?_
    subst same
    rw [checked scaled left] at failed ⊢
    unfold Refuses
    rw [record_eq supported drawn scaled.resolved, if_neg failed]
  · refine ends_pure fun state ⟨capture, ⟨start, scaled, left⟩, same⟩ => ?_
    subst same
    rw [not_not, checked scaled left] at passed
    refine ⟨capture, _, ?_, scaled.hostScale, scaled.payload,
      (record_eq supported drawn scaled.resolved).trans (if_pos passed)⟩
    intro i inside
    have finite : isfinite (x.get i) = true :=
      allFinite_iff.mp (encodeStatus_ok_iff.mp passed).2.2.1 i inside
    rw [left.codes i inside (by rw [scaled.values i inside]; exact finite), scaled.deviceScale,
      scaled.values i inside]
    congr 1
    unfold memoryWord
    cases prescribed : config.prescribedWords with
    | some words => exact scaled.words words prescribed i inside
    | none => rfl

theorem quiet_compressPack {record : TensorRecord} :
    Ends (On (Coded config x payload record))
      (compressPack device config timed buffers)
      (fun _ => On fun _ host => host.scale = some record.scale ∧
        host.payload = payload.map (packCodes config.bitWidth x.count record.codes) ∧
        config.record x = .ok record)
      (Refuses config x) := by
  have present : (buffers.codes.isSome && buffers.payload.isSome) = true := by
    rw [ready.codes, ready.payload]
    rfl
  let after := fun (memory : DeviceMemory) (host : CompressHost) =>
    (∀ k < sqPayloadSize config.bitWidth x.count,
      memory.payload k = payloadByte config.bitWidth x.count record.codes k) ∧
    host.scale = some record.scale ∧ host.payload = payload ∧ config.record x = .ok record
  have k3 : Ends (On (Coded config x payload record))
      (orErrCuda (launchK3On device config.bitWidth x.count true config.blockSize
        config.gridSize)) (fun _ => On after) (Refuses config x) := by
    apply Ends.orErrCuda
    refine ends_exec (quiet_launchK3On quiet supported nonempty geometry) fun state start => ?_
    have does : ∀ at_ memory host, Coded config x payload record memory host →
        after (runOps device [k3Op config.bitWidth x.count config.blockSize config.gridSize] at_
          memory) host := by
      intro at_ memory host coded
      refine ⟨fun k below => ?_, coded.hostScale, coded.payload, coded.record⟩
      have packed := (k3Op_run supported nonempty geometry (device.schedule at_) memory).2 k below
      exact packed.trans (payloadByte_congr supported below coded.codes)
    exact On.enqueue start does
  unfold compressPack
  dsimp only
  rw [present, count]
  refine (ends_whenTimed timed (quiet_step quiet _)).then fun _ => ?_
  refine (quiet_step quiet _).then fun _ => ?_
  refine k3.then fun _ => ?_
  refine (ends_whenTimed timed (quiet_finishKernelTiming quiet _ _)).then fun _ => ?_
  refine (quiet_step quiet _).then fun _ => ?_
  refine quiet_timedCopy quiet _ fun state ⟨capture, packed, hostScale, kept, found⟩ => ?_
  refine ⟨capture, hostScale, ?_, found⟩
  show state.host.payload.map _ = _
  rw [kept]
  congr 1
  funext buffer k
  unfold copyFrom packCodes
  split
  · exact packed k ‹_›
  · rfl

end

/-! ## The whole compression -/

section

variable [RoundedArith Format.binary32] {device : CudaDevice} {config : CudaConfig}
  {x : F32Array} {payload : Ptr Byte}

/-- The record is in the caller's hands. -/
def Stored (config : CudaConfig) (x : F32Array) (payload : Ptr Byte) (host : CompressHost) :
    Prop :=
  ∃ record, config.record x = .ok record ∧ host.scale = some record.scale ∧
    host.payload = payload.map (packCodes config.bitWidth x.count record.codes)

/-- The record of an empty tensor is its scale, which has to be zero. -/
theorem record_empty {stream : SqRngStream} (supported : Supported config.bitWidth)
    (drawn : sqRngStreamInit config.ids.seed config.ids.tensorId config.ids.invocationId =
      some stream)
    (accepted : ¬ config.prescribedScale.any fun scale => !isfinite scale || scale.lt zeroF)
    (empty : x.count = 0) :
    if config.prescribedScale.any (fun scale => !scale.eq zeroF) then
      config.record x = .error .errScale
    else ∃ codes, config.record x = .ok ⟨config.prescribedScale.getD zeroF, codes⟩ := by
  have resolved : resolveScale x config.prescribedScale =
      .ok (config.prescribedScale.getD zeroF) := by
    unfold resolveScale
    cases config.prescribedScale with
    | some scale => rfl
    | none =>
        dsimp only
        rw [empty]
        exact tensorScale_zero rfl rfl
  obtain ⟨finite, nonneg⟩ := resolveScale_valid accepted resolved
  have status : encodeStatus x.get x.count (config.prescribedScale.getD zeroF) =
      if (config.prescribedScale.getD zeroF).eq zeroF then .ok else .errScale := by
    unfold encodeStatus
    rw [if_neg (by simp [finite, nonneg]), if_pos empty]
  have anyNonzero : config.prescribedScale.any (fun scale => !scale.eq zeroF) =
      !(config.prescribedScale.getD zeroF).eq zeroF := by
    cases config.prescribedScale with
    | some scale => rfl
    | none => rfl
  rw [record_eq supported drawn resolved, status, anyNonzero]
  cases (config.prescribedScale.getD zeroF).eq zeroF with
  | true => exact ⟨_, rfl⟩
  | false => rfl

theorem quiet_compressOnDevice (quiet : device.Quiet) (timed : Bool)
    (values : config.values = x.values) (count : config.count = x.count)
    (supported : Supported config.bitWidth)
    (geometry : validLaunchGeometry config.blockSize config.gridSize = true)
    {stream : SqRngStream}
    (accepted : ¬ config.prescribedScale.any fun scale => !isfinite scale || scale.lt zeroF)
    (drawn : sqRngStreamInit config.ids.seed config.ids.tensorId config.ids.invocationId =
      some stream) (variant : K1Variant) :
    Ends (On fun _ host => host.payload = payload)
      (compressOnDevice device config timed variant stream)
      (fun _ => On fun _ host => Stored config x payload host) (Refuses config x) := by
  refine (quiet_deviceAvailable quiet).then fun _ => ?_
  refine ends_ite (fun rejected => ?_) fun notRejected =>
    ends_ite (fun empty => ?_) fun nonempty => ?_
  · refine ends_throw fun _ _ => ?_
    have empty := record_empty supported drawn accepted (count.symm.trans rejected.1)
    rw [if_pos rejected.2] at empty
    exact empty
  · rw [count] at empty
    have made := record_empty supported drawn accepted empty
    rw [if_neg fun any => notRejected ⟨count.trans empty, any⟩] at made
    obtain ⟨codes, made⟩ := made
    refine ends_change fun state ⟨capture, kept⟩ => ⟨capture, _, made, rfl, ?_⟩
    show state.host.payload = _
    have same : packCodes config.bitWidth 0 codes = id :=
      funext (packCodes_empty config.bitWidth codes)
    rw [kept, empty, same, Option.map_id_fun]
    rfl
  · rw [count] at nonempty
    have reductionGeometry :
        validLaunchGeometry sqCudaReductionThreads config.gridSize = true := by
      unfold validLaunchGeometry at geometry ⊢
      simp only [decide_eq_true_eq] at geometry ⊢
      exact ⟨by decide, by decide, geometry.2.2⟩
    have counts : Ends (On fun _ host => host.payload = payload) (compressCounts config)
        (fun counts state => (config.prescribedScale = none →
          setK1WorkspaceGeometry (some ⟨0, 0⟩) config.count = (.ok, some counts)) ∧
          On (fun _ host => host.payload = payload) state) (Refuses config x) := by
      unfold compressCounts
      refine ends_ite (fun prescribed => ?_) fun _ => ?_
      · refine ends_pure fun _ start => ⟨fun none => ?_, start⟩
        rw [none] at prescribed
        cases prescribed
      · rw [setK1WorkspaceGeometry_eq (by rw [count]; exact nonempty)
          (by rw [count]; exact x.count_le)]
        exact ends_pure fun _ start => ⟨fun _ => rfl, start⟩
    refine counts.bind fun _ => ends_assuming fun sized => ?_
    refine (quiet_step quiet _).then fun _ => ?_
    refine (ends_whenTimed timed (Ends.orErrCuda (quiet_createEvents quiet _))).then fun _ => ?_
    refine (Ends.orErrCuda (quiet_allocateCompress quiet config sized)).bind
      fun buffers => ends_assuming fun ready => ?_
    have clearStatus : Ends (On fun _ host => host.payload = payload)
        (orErrCuda (sqCudaTry device .memset (CudaState.enqueue device [.clearStatus])))
        (fun _ => On fun memory host => memory.status = .ok ∧ host.payload = payload)
        (Refuses config x) :=
      quiet_orErrCuda quiet _ fun state start => On.enqueue start fun _ _ _ kept => ⟨rfl, kept⟩
    have clearFlags :
        Ends (On fun memory host => memory.status = .ok ∧ host.payload = payload)
        (orErrCuda (sqCudaTry device .memset (CudaState.enqueue device [.clearFlags])))
        (fun _ => On fun memory host => memory.status = .ok ∧ memory.flags = 0 ∧
          host.payload = payload) (Refuses config x) :=
      quiet_orErrCuda quiet _ fun state start =>
        On.enqueue start fun _ _ _ ⟨status, kept⟩ => ⟨status, rfl, kept⟩
    refine clearStatus.then fun _ => clearFlags.then fun _ => ?_
    refine (quiet_compressInputs quiet values count).then fun _ => ?_
    refine (quiet_compressScale quiet timed count nonempty reductionGeometry ready variant).bind
      fun scale => ?_
    refine (quiet_compressRound quiet timed count supported nonempty geometry ready accepted
      drawn).then fun _ => ?_
    rintro state ⟨capture, record, coded⟩
    have packed := (quiet_compressPack quiet timed count supported nonempty geometry ready).weaken
      (fun _ start => start) (fun _ _ ⟨capture, hostScale, stored, found⟩ =>
        (⟨capture, record, found, hostScale, stored⟩ : On (fun _ host =>
          Stored config x payload host) _)) fun _ _ => id
    exact packed state ⟨capture, coded⟩

end

/-- The checks that `sq_cuda_compress` makes before its first CUDA call. -/
theorem compressArguments_eq {config : CudaConfig} {x : F32Array}
    (values : config.values = x.values) (count : config.count = x.count)
    (supported : Supported config.bitWidth)
    (geometry : validLaunchGeometry config.blockSize config.gridSize = true)
    (variant : config.k1Variant.isSome = true)
    (tensorId : config.ids.tensorId.toNat ≤ uint32Max)
    (invocationId : config.ids.invocationId.toNat ≤ uint32Max)
    (payload : ℕ → Byte) (scale : F32) :
    ∃ stream,
      sqRngStreamInit config.ids.seed config.ids.tensorId config.ids.invocationId = some stream ∧
      compressArguments config (some payload) (some scale) =
        if config.prescribedScale.any fun scale => !isfinite scale || scale.lt zeroF then
          .error .errScale
        else .ok stream := by
  have narrow : ¬ (config.ids.tensorId.toNat > uint32Max ∨
      config.ids.invocationId.toNat > uint32Max) := by omega
  have drawn : sqRngStreamInit config.ids.seed config.ids.tensorId config.ids.invocationId =
      some ⟨config.ids.seed, config.ids.tensorId.setWidth 32,
        config.ids.invocationId.setWidth 32⟩ := if_neg narrow
  have range : ¬ invocationRangeValidWord config.ids.tensorId config.ids.invocationId 0 1 0 =
      false := by
    rw [invocationRangeValidWord_eq, Bool.not_eq_false, sqInvocationRangeValid_iff (by decide)]
    exact ⟨by decide, by decide, tensorId, by simpa using invocationId⟩
  have arguments : ¬ (some scale = none ∨ (config.count ≠ 0 ∧ (config.values = none ∨
      some payload = none)) ∨ config.count > sizeMax / 4 ∨ config.k1Variant = none) := by
    rintro (⟨⟨⟩⟩ | ⟨nonempty, absent | ⟨⟨⟩⟩⟩ | large | absent)
    · rw [count] at nonempty
      have present := x.present nonempty
      rw [← values, absent] at present
      cases present
    · have := x.fits
      omega
    · rw [absent] at variant
      cases variant
  refine ⟨_, drawn, ?_⟩
  unfold compressArguments
  rw [if_neg supported.ne, if_neg arguments, if_neg (by simp [geometry]), if_neg range, drawn]

/-- The result for the result of making the record: its error, or the record's payload and
scale in the caller's. -/
structure CompressResult.HandsOut (result : CompressResult) (bitWidth count : ℕ)
    (payload : ℕ → Byte) (made : Except SqStatus TensorRecord) : Prop where
  error : ∀ status, made = .error status → result.status = status
  ok : ∀ record, made = .ok record → result.status = .ok ∧
    result.host.payload = some (packCodes bitWidth count record.codes payload) ∧
    result.host.scale = some record.scale

section

variable [RoundedArith Format.binary32] {device : CudaDevice} (quiet : device.Quiet)
  (timed : Bool) {x : F32Array} {config : CudaConfig} (values : config.values = x.values)
  (count : config.count = x.count) (supported : Supported config.bitWidth)
  (geometry : validLaunchGeometry config.blockSize config.gridSize = true)
  (variant : config.k1Variant.isSome = true)
  (tensorId : config.ids.tensorId.toNat ≤ uint32Max)
  (invocationId : config.ids.invocationId.toNat ≤ uint32Max) (payload : ℕ → Byte) (scale : F32)
  (memory : DeviceMemory)

include quiet values count supported geometry variant tensorId invocationId

theorem sqCudaCompress_handsOut :
    (sqCudaCompress device timed (some config) (some payload) (some scale) memory).HandsOut
      config.bitWidth x.count payload (tensorRecord config.bitWidth x config.ids
        config.prescribedScale config.prescribedWords) := by
  obtain ⟨stream, drawn, arguments⟩ := compressArguments_eq values count supported geometry
    variant tensorId invocationId payload scale
  obtain ⟨k1, variantEq⟩ := Option.isSome_iff_exists.mp variant
  unfold sqCudaCompress
  dsimp only
  rw [arguments, variantEq]
  by_cases accepted :
      config.prescribedScale.any fun scale => !isfinite scale || scale.lt zeroF
  · rw [if_pos accepted]
    have refused : config.record x = .error .errScale := by
      cases prescribed : config.prescribedScale with
      | none =>
          rw [prescribed] at accepted
          cases accepted
      | some scale =>
          rw [prescribed] at accepted
          have status : encodeStatus x.get x.count scale = .errScale := if_pos accepted
          rw [record_eq supported drawn (by rw [prescribed]; rfl), status]
          rfl
    unfold CudaConfig.record at refused
    rw [refused]
    refine ⟨fun other same => Except.error.inj same, fun record same => ?_⟩
    cases same
  · rw [if_neg accepted]
    dsimp only
    have ends : Ends (On fun _ (host : CompressHost) => host.payload = some payload) _ _ _ :=
      quiet_compressOnDevice quiet timed values count supported geometry accepted drawn k1
    cases ran : exec (compressOnDevice device config timed k1 stream)
        ⟨[], 0, memory, none, ⟨some scale, some payload⟩⟩ with
    | mk outcome state =>
        cases outcome with
        | error status =>
            have refused : config.record x = .error status := ends.error ⟨rfl, rfl⟩ ran
            unfold CudaConfig.record at refused
            rw [refused]
            refine ⟨fun other same => Except.error.inj same, fun record same => ?_⟩
            cases same
        | ok done =>
            obtain ⟨-, record, found, hostScale, stored⟩ := ends.ok ⟨rfl, rfl⟩ ran
            unfold CudaConfig.record at found
            rw [found]
            refine ⟨fun other same => ?_, fun made same => ?_⟩
            · cases same
            · obtain rfl := Except.ok.inj same
              exact ⟨rfl, stored, hostScale⟩

end

/-- Without a failing call the GPU computes the record of the scalar CPU backend: the same
status and, with `SQ_OK`, the same scale and the same payload. -/
theorem sqCudaCompress_eq_scalar [RoundedArith Format.binary32] {device : CudaDevice}
    (quiet : device.Quiet) (timed : Bool) {x : F32Array} {config : CudaConfig}
    (values : config.values = x.values) (count : config.count = x.count)
    (supported : Supported config.bitWidth)
    (geometry : validLaunchGeometry config.blockSize config.gridSize = true)
    (variant : config.k1Variant.isSome = true)
    (tensorId : config.ids.tensorId.toNat ≤ uint32Max)
    (invocationId : config.ids.invocationId.toNat ≤ uint32Max)
    (payload : ℕ → Byte) (scale : F32) (memory : DeviceMemory) (omp : OmpRuntime)
    {workspace : SqCpuCompressWorkspace} (reserved : Reserved workspace x.count)
    (buffer : ℕ → Byte) :
    let cuda := sqCudaCompress device timed (some config) (some payload) (some scale) memory
    let scalar := sqCpuCompress omp .cpu config.bitWidth x.values x.count config.ids
      config.prescribedScale config.prescribedWords workspace (some buffer)
    cuda.status = scalar.1 ∧ (scalar.1 = .ok → ∃ computed bytes,
      cuda.host.scale = some computed ∧ cuda.host.payload = some bytes ∧
      scalar.2.2.map (recordIn config.bitWidth x.count) =
        some (headerBytes config.bitWidth x.count computed ++
          (List.range (sqPayloadSize config.bitWidth x.count)).map bytes)) := by
  have stages := stagesCorrect_cpu omp x
  dsimp only
  rw [sqCpuCompress_status stages reserved]
  have handed := sqCudaCompress_handsOut quiet timed values count supported geometry variant
    tensorId invocationId payload scale memory
  cases found : tensorRecord config.bitWidth x config.ids config.prescribedScale
      config.prescribedWords with
  | error status =>
      exact ⟨handed.error status found, fun ok => absurd ok (tensorRecord_error found)⟩
  | ok record =>
      obtain ⟨status, stored, hostScale⟩ := handed.ok record found
      rw [sqCpuCompress_record stages reserved buffer found]
      refine ⟨status, fun _ => ⟨_, _, hostScale, stored, ?_⟩⟩
      congr 1
      apply congrArg (headerBytes config.bitWidth x.count record.scale ++ ·)
      apply List.map_congr_left
      intro k member
      exact (if_pos (List.mem_range.mp member)).symm

/-- A device whose calls all succeed. -/
def quietDevice : CudaDevice :=
  ⟨fun _ => none, 1, fun _ => ⟨0x100, rfl⟩, fun _ => true, fun _ => Scheduler.inOrder⟩

theorem quietDevice_quiet : quietDevice.Quiet := ⟨fun _ => rfl, Nat.one_ne_zero⟩

/-- Device buffers that hold zeros. -/
def zeroMemory : DeviceMemory :=
  ⟨fun _ => zeroF, fun _ => 0#32, fun _ => 0#32, fun _ => zeroF, zeroF, zeroF, .ok, 0,
    fun _ => 0#8, fun _ => 0#8⟩

/-- A compression of two blocks to four bits. -/
def twoBlocksConfig : CudaConfig :=
  ⟨4, twoBlocks.values, 261, ⟨7#64, 0#64, 0#64⟩, none, none, 128, 0, some .optimized, .resident,
    .pageable, 0#64, 1#64, 0#64⟩

theorem sqCudaCompress_eq_scalar_twoBlocks :
    letI := nearestEven Format.binary32
    let cuda := sqCudaCompress quietDevice true (some twoBlocksConfig) (some fun _ => 0#8)
      (some zeroF) zeroMemory
    let scalar := sqCpuCompress threeThreadRuntime .cpu twoBlocksConfig.bitWidth twoBlocks.values
      twoBlocks.count twoBlocksConfig.ids twoBlocksConfig.prescribedScale
      twoBlocksConfig.prescribedWords twoBlocksWorkspace (some fun _ => 0#8)
    cuda.status = scalar.1 ∧ (scalar.1 = .ok → ∃ computed bytes,
      cuda.host.scale = some computed ∧ cuda.host.payload = some bytes ∧
      scalar.2.2.map (recordIn twoBlocksConfig.bitWidth twoBlocks.count) =
        some (headerBytes twoBlocksConfig.bitWidth twoBlocks.count computed ++
          (List.range (sqPayloadSize twoBlocksConfig.bitWidth twoBlocks.count)).map bytes)) :=
  @sqCudaCompress_eq_scalar (nearestEven Format.binary32).toRoundedArith _ quietDevice_quiet true
    twoBlocks twoBlocksConfig rfl rfl (.inl rfl) (by decide) rfl (by decide) (by decide)
    (fun _ => 0#8) zeroF zeroMemory threeThreadRuntime _ twoBlocksWorkspace_reserved
    fun _ => 0#8

end Stoquant

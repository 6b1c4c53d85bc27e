import Stoquant.Cuda.Record

/-!
# Benchmarking on the GPU

`sq_cuda_bench` makes the record of the base invocation once with its outputs inspected,
and then runs the warm-ups and the repetitions over the same buffers, either by enqueueing
the kernels again or by launching a graph that it captured.  The clock is left out.
-/

namespace Stoquant

open Abort Ieee Par

/-- The events of `sq_cuda_bench_context`. -/
inductive BenchEvent where
  | k1Start
  | k1Stop
  | k2Start
  | k2Stop
  | k3Start
  | k3Stop
  | h2dStart
  | h2dStop
  | d2hStart
  | d2hStop
  deriving DecidableEq, Repr

/-- The position of an event in the array. -/
def BenchEvent.index : BenchEvent → ℕ
  | .k1Start => 0
  | .k1Stop => 1
  | .k2Start => 2
  | .k2Stop => 3
  | .k3Start => 4
  | .k3Stop => 5
  | .h2dStart => 6
  | .h2dStop => 7
  | .d2hStart => 8
  | .d2hStop => 9

/-- `SQ_BENCH_EVENT_COUNT`. -/
def sqBenchEventCount : ℕ := 10

/-- What a benchmark keeps on the host: `host_payload`, the three words of
`sq_cuda_bench_host`, and the outputs for its caller. -/
structure BenchHost where
  payload : ℕ → Byte
  scale : F32
  status : SqStatus
  flags : Multiset ValidationFlag
  basePayload : Ptr Byte
  baseScale : Option F32

/-- The device pointers of `sq_cuda_bench_context`, absent when null. -/
structure BenchBuffers where
  values : Option ℕ
  scale : Option ℕ
  k1Scale : Option ℕ
  status : Option ℕ
  validationFlags : Option ℕ
  codes : Option ℕ
  payload : Option ℕ
  words : Option ℕ
  k1Workspace : K1Workspace

/-- The buffers of a benchmark of an empty tensor. -/
def noBenchBuffers : BenchBuffers :=
  ⟨none, none, none, none, none, none, none, none, noWorkspace ⟨0, 0⟩⟩

/-- `check_bench_result`. -/
def checkBenchResult (hostScale : F32) (prescribedScaleSeen : Bool) (hostStatus : SqStatus)
    (hostValidationFlags : Multiset ValidationFlag) : SqStatus :=
  if hostStatus ≠ .ok ∧ (prescribedScaleSeen = false ∨ hostStatus ≠ .errScaleOverflow) then
    hostStatus
  else compressCheck hostScale hostValidationFlags

section

variable {Host : Type}

/-- The outcome of a computation whose error is looked at later. -/
def outcomeOf {ε ε' α : Type} (run : CudaRun Host ε α) : CudaRun Host ε' (Except ε α) :=
  ExceptT.mk fun state => (.ok (exec run state).1, (exec run state).2)

/-- What the host keeps. -/
def hostState {ε : Type} : CudaRun Host ε Host :=
  ExceptT.mk fun state => (.ok state.host, state)

/-- The operations captured so far. -/
def capturedOps {ε : Type} : CudaRun Host ε (List DeviceOp) :=
  ExceptT.mk fun state => (.ok (state.capture.getD []), state)

/-- Open a capture, or close it. -/
def CudaState.capturing (capture : Option (List DeviceOp)) (state : CudaState Host) :
    CudaState Host :=
  { state with capture := capture }

variable (device : CudaDevice)

/-- `malloc` and its null check. -/
def hostMalloc : CudaRun Host SqStatus Unit :=
  ExceptT.mk fun state =>
    if device.hostMemory state.calls then (.ok (), state) else (.error .errMemory, state)

/-- `allocate_host`, without which the callers return `SQ_ERR_MEMORY`. -/
def allocateHost (bytes : ℕ) (policy : SqTransferPolicy) : CudaRun Host SqStatus Unit :=
  if policy = .pinned then mapError (fun _ => .errMemory) (sqCudaTry device (.hostAlloc bytes) id)
  else hostMalloc device

end

/-- The checks of `sq_cuda_bench` before its first CUDA call. -/
def benchArguments (config : CudaConfig) (basePayload : Ptr Byte) (baseScale : Option F32)
    (samples : Bool) : SqStatus :=
  let transfers := config.boundary = .hostOrigin ∨ config.boundary = .gpuOrigin
  if config.bitWidth ≠ sqQ4Bits ∧ config.bitWidth ≠ sqQ8Bits then .errBitWidth
  else if (config.count ≠ 0 ∧ (config.values = none ∨ basePayload = none)) ∨
      baseScale = none ∨ samples = false ∨ config.reps = 0#64 ∨ config.count > sizeMax / 4 then
    .errArgument
  else if config.k1Variant = none then .errArgument
  else if validLaunchGeometry config.blockSize config.gridSize = false ∨
      config.boundary = .hostHost ∨ config.transferPolicy = .none ∨
      (¬ transfers ∧ config.transferPolicy ≠ .pageable) ∨
      (config.boundary = .residentGraph ∧ config.invocationIdStep ≠ 0#64) then .errArgument
  else if config.prescribedScale.any fun scale => !isfinite scale || scale.lt zeroF then .errScale
  else if invocationRangeValidWord config.ids.tensorId config.ids.invocationId config.warmups
      config.reps config.invocationIdStep = false then .errIdOverflow
  else if config.count = 0 ∧ config.prescribedScale.any (fun scale => !scale.eq zeroF) then
    .errScale
  else .ok

section

variable [Arith Format.binary32] (device : CudaDevice) (config : CudaConfig)

/-- An event recorded on the stream. -/
def recordEvent (event : BenchEvent) : CudaRun BenchHost CudaError Unit :=
  sqCudaTry device (.eventRecord event.index) id

/-- An event that is recorded unless the kernels are captured. -/
def recordUnlessCaptured (events : Bool) (event : BenchEvent) : CudaRun BenchHost CudaError Unit :=
  if events then recordEvent device event else pure ()

/-- `enqueue_resident`. -/
def enqueueResident (buffers : BenchBuffers) (variant : K1Variant) (stream : SqRngStream)
    (events : Bool) : CudaRun BenchHost CudaError Unit :=
  if config.count = 0 then pure ()
  else do
    let prescribedScale := config.prescribedScale.isSome
    let prescribedWords := config.prescribedWords.isSome
    let present := buffers.values.isSome && buffers.scale.isSome && buffers.codes.isSome &&
      buffers.validationFlags.isSome && !(prescribedWords && buffers.words.isNone)
    sqCudaTry device .memset (CudaState.enqueue device [.clearFlags])
    recordUnlessCaptured device events .k1Start
    sqCudaTry device .launchK1 id
    launchK1On device prescribedScale variant
      ⟨buffers.values, if prescribedScale then buffers.k1Scale else buffers.scale, buffers.status⟩
      config.count (some buffers.k1Workspace) config.gridSize
    recordUnlessCaptured device events .k1Stop
    recordUnlessCaptured device events .k2Start
    sqCudaTry device .launchK2 id
    launchK2On device config.bitWidth config.count prescribedWords present stream
      config.blockSize config.gridSize
    recordUnlessCaptured device events .k2Stop
    recordUnlessCaptured device events .k3Start
    sqCudaTry device .launchK3 id
    launchK3On device config.bitWidth config.count
      (buffers.codes.isSome && buffers.payload.isSome) config.blockSize config.gridSize
    recordUnlessCaptured device events .k3Stop

/-- A step that is taken only under a condition. -/
def whenNeeded {ε : Type} (needed : Bool) (run : CudaRun BenchHost ε Unit) :
    CudaRun BenchHost ε Unit :=
  if needed then run else pure ()

/-- The size of the payload. -/
def CudaConfig.payloadBytes (config : CudaConfig) : ℕ :=
  if config.bitWidth = sqQ4Bits then config.count / 2 + config.count % 2 else config.count

/-- The copy of the values to the device. -/
def copyValues : CudaRun BenchHost CudaError Unit :=
  sqCudaTry device (.memcpy (config.count * 4)) (CudaState.onDevice fun memory =>
    { memory with
      values := copyFrom config.count (config.values.getD fun _ => zeroF) memory.values })

/-- The copies of the payload and the scale to the host. -/
def copyOutputs : CudaRun BenchHost CudaError Unit := do
  whenNeeded (config.payloadBytes ≠ 0)
    (sqCudaTry device (.memcpy config.payloadBytes) (CudaState.onHost fun memory host =>
      { host with payload := copyFrom config.payloadBytes memory.payload host.payload }))
  sqCudaTry device (.memcpy 4) (CudaState.onHost fun memory host =>
    { host with scale := memory.scale })

/-- The copies of the status and the flags to the host. -/
def copyStatus : CudaRun BenchHost CudaError Unit := do
  sqCudaTry device (.memcpy 4) (CudaState.onHost fun memory host =>
    { host with status := memory.status })
  sqCudaTry device (.memcpy 4) (CudaState.onHost fun memory host =>
    { host with flags := memory.flags })

/-- The time between two events. -/
def elapsedTime (start stop : BenchEvent) : CudaRun BenchHost CudaError Unit :=
  sqCudaTry device (.eventElapsedTime start.index stop.index) id

/-- The CUDA calls of `run_bench_pipeline`: each returns `SQ_ERR_CUDA` when it fails. -/
def pipelineCalls (buffers : BenchBuffers) (variant : K1Variant) (stream : SqRngStream)
    (boundary : SqBoundary) (outputs inspect sample : Bool) : CudaRun BenchHost CudaError Unit := do
  let hostOrigin : Bool := boundary = .hostOrigin
  whenNeeded hostOrigin do
    recordEvent device .h2dStart
    copyValues device config
    recordEvent device .h2dStop
  sqCudaTry device .enqueueResident id
  enqueueResident device config buffers variant stream true
  whenNeeded outputs do
    recordEvent device .d2hStart
    copyOutputs device config
    recordEvent device .d2hStop
  whenNeeded inspect (copyStatus device)
  sqCudaTry device .deviceSynchronize id
  whenNeeded sample do
    elapsedTime device .k1Start .k1Stop
    elapsedTime device .k2Start .k2Stop
    elapsedTime device .k3Start .k3Stop
    whenNeeded hostOrigin (elapsedTime device .h2dStart .h2dStop)
    whenNeeded outputs (elapsedTime device .d2hStart .d2hStop)

/-- A status other than `SQ_OK` stops. -/
def stopUnlessOk (status : SqStatus) : CudaRun BenchHost SqStatus Unit :=
  if status ≠ .ok then throw status else pure ()

/-- `run_bench_pipeline`. -/
def runBenchPipeline (buffers : BenchBuffers) (variant : K1Variant) (invocationId : BitVec 64)
    (boundary : SqBoundary) (outputs inspect sample : Bool) : CudaRun BenchHost SqStatus Unit :=
  match sqRngStreamInit config.ids.seed config.ids.tensorId invocationId with
  | none => throw .errIdOverflow
  | some stream => do
      orErrCuda (pipelineCalls device config buffers variant stream boundary outputs inspect sample)
      let host ← hostState
      whenNeeded inspect (stopUnlessOk
        (checkBenchResult host.scale config.prescribedScale.isSome host.status host.flags))

/-- The payload on the device is replaced by the complement of the base payload. -/
def poisonPayload : CudaRun BenchHost CudaError Unit := do
  change (CudaState.onHost fun _ host =>
    { host with
      payload := copyFrom config.payloadBytes
        (fun i => ~~~ (host.basePayload.getD fun _ => 0#8) i) host.payload })
  let host ← hostState
  sqCudaTry device (.memcpy config.payloadBytes) (CudaState.onDevice fun memory =>
    { memory with payload := copyFrom config.payloadBytes host.payload memory.payload })
  sqCudaTry device .deviceSynchronize id

/-- The graph of the resident kernels, captured and instantiated. -/
def captureGraph (buffers : BenchBuffers) (variant : K1Variant) (stream : SqRngStream) :
    CudaRun BenchHost SqStatus (List DeviceOp) := do
  orErrCuda (sqCudaTry device .beginCapture (CudaState.capturing (some [])))
  let captured ← outcomeOf (enqueueResident device config buffers variant stream false)
  let graph ← capturedOps
  -- The capture ends even after a failed launch.
  orErrCuda (sqCudaTry device .endCapture (CudaState.capturing none))
  match captured with
  | .error _ => throw .errCuda
  | .ok () => do
      orErrCuda (sqCudaTry device .graphInstantiate id)
      pure graph

/-- One launch of the graph. -/
def launchGraph (graph : List DeviceOp) : CudaRun BenchHost CudaError Unit := do
  sqCudaTry device .graphLaunch (CudaState.enqueue device graph)
  sqCudaTry device .deviceSynchronize id

/-- Whether what the last launch of the graph left is the base record. -/
def sameAsBase (host : BenchHost) : Bool :=
  let basePayload := host.basePayload.getD fun _ => 0#8
  decide (f32Bits host.scale = f32Bits (host.baseScale.getD zeroF)) &&
    (List.range config.payloadBytes).all fun i => host.payload i = basePayload i

/-- The comparison that ends `run_bench_graph`. -/
def checkGraph : CudaRun BenchHost SqStatus Unit := do
  orErrCuda (copyOutputs device config)
  orErrCuda (copyStatus device)
  orErrCuda (sqCudaTry device .deviceSynchronize id)
  let host ← hostState
  stopUnlessOk (checkBenchResult host.scale config.prescribedScale.isSome host.status host.flags)
  stopUnlessOk (if sameAsBase config host then .ok else .errCuda)

/-- `run_bench_graph`. -/
def runBenchGraph (buffers : BenchBuffers) (variant : K1Variant) (invocationId : BitVec 64) :
    CudaRun BenchHost SqStatus Unit :=
  match sqRngStreamInit config.ids.seed config.ids.tensorId invocationId with
  | none => throw .errIdOverflow
  | some stream => do
      whenNeeded (config.payloadBytes ≠ 0) (orErrCuda (poisonPayload device config))
      let graph ← captureGraph device config buffers variant stream
      (List.range (config.warmups + config.reps).toNat).forM fun _ =>
        orErrCuda (launchGraph device graph)
      whenNeeded (config.count ≠ 0) (checkGraph device config)

/-- The buffers of `sq_cuda_bench_context` on the host. -/
def allocateBenchHost : CudaRun BenchHost SqStatus Unit := do
  allocateHost device (if config.payloadBytes = 0 then 1 else config.payloadBytes)
    config.transferPolicy
  allocateHost device 12 config.transferPolicy
  change (CudaState.onHost fun _ host => { host with scale := zeroF, status := .ok, flags := 0 })
  whenNeeded (config.boundary = .hostOrigin ∧ config.transferPolicy = .pinned ∧ config.count ≠ 0)
    (allocateHost device (config.count * 4) config.transferPolicy)

/-- The workspace of K1, which a benchmark always has. -/
def benchWorkspace : CudaRun BenchHost SqStatus K1Workspace :=
  match setK1WorkspaceGeometry (some ⟨0, 0⟩) config.count with
  | (.ok, some counts) => orErrCuda (allocateK1Workspace device counts)
  | (status, _) => throw status

/-- The buffers of `sq_cuda_bench_context` on the device. -/
def allocateBench : CudaRun BenchHost SqStatus BenchBuffers := do
  let values ← orErrCuda (cudaMalloc device (config.count * 4))
  let scale ← orErrCuda (cudaMalloc device 4)
  let status ← orErrCuda (cudaMalloc device 4)
  let validationFlags ← orErrCuda (cudaMalloc device 4)
  let codes ← orErrCuda (cudaMalloc device config.count)
  let payload ← orErrCuda
    (cudaMalloc device (if config.payloadBytes = 0 then 1 else config.payloadBytes))
  let k1Scale ← orErrCuda (cudaMallocIf device config.prescribedScale.isSome 4)
  let words ← orErrCuda (cudaMallocIf device config.prescribedWords.isSome (config.count * 4))
  let workspace ← benchWorkspace device config
  pure ⟨values, scale, k1Scale, status, validationFlags, codes, payload, words, workspace⟩

/-- The copy of a prescribed scale to the device. -/
def copyPrescribedScale : CudaRun BenchHost CudaError Unit :=
  match config.prescribedScale with
  | some prescribed =>
      sqCudaTry device (.memcpy 4) (CudaState.onDevice fun memory =>
        { memory with scale := prescribed })
  | none => pure ()

/-- The copy of prescribed words to the device. -/
def copyPrescribedWords : CudaRun BenchHost CudaError Unit :=
  match config.prescribedWords with
  | some words =>
      sqCudaTry device (.memcpy (config.count * 4)) (CudaState.onDevice fun memory =>
        { memory with words := copyFrom config.count words memory.words })
  | none => pure ()

/-- The inputs that are on the device before the first run. -/
def benchInputs : CudaRun BenchHost CudaError Unit := do
  copyPrescribedScale device config
  copyPrescribedWords device config
  whenNeeded (config.boundary ≠ .hostOrigin) (copyValues device config)
  sqCudaTry device .streamSynchronize id

/-- The invocation of a run. -/
def CudaConfig.invocation (config : CudaConfig) (index : ℕ) : BitVec 64 :=
  runInvocationIdWord config.ids.invocationId config.warmups config.reps (BitVec.ofNat 64 index)
    config.invocationIdStep

/-- The warm-ups and the repetitions of a tensor that is not empty. -/
def benchRuns (buffers : BenchBuffers) (variant : K1Variant) : CudaRun BenchHost SqStatus Unit :=
  let transfers : Bool := config.boundary = .hostOrigin ∨ config.boundary = .gpuOrigin
  let warmups := config.warmups.toNat
  if config.boundary = .residentGraph then
    runBenchGraph device config buffers variant (config.invocation warmups)
  else
    (List.range (config.warmups + config.reps).toNat).forM fun index =>
      runBenchPipeline device config buffers variant (config.invocation index) config.boundary
        transfers false (warmups ≤ index)

/-- The benchmark of a tensor that is not empty. -/
def benchTensor (variant : K1Variant) : CudaRun BenchHost SqStatus Unit := do
  let buffers ← allocateBench device config
  orErrCuda (benchInputs device config)
  runBenchPipeline device config buffers variant config.ids.invocationId
    (if config.boundary = .hostOrigin then .hostOrigin else .resident) true true false
  change (CudaState.onHost fun _ host =>
    { host with
      basePayload := host.basePayload.map (copyFrom config.payloadBytes host.payload)
      baseScale := some host.scale })
  benchRuns device config buffers variant

/-- The benchmark of an empty tensor. -/
def benchEmpty (variant : K1Variant) : CudaRun BenchHost SqStatus Unit := do
  change (CudaState.onHost fun _ host => { host with baseScale := some zeroF })
  if config.boundary = .residentGraph then
    runBenchGraph device config noBenchBuffers variant (config.invocation config.warmups.toNat)
  else
    (List.range (config.warmups + config.reps).toNat).forM fun _ =>
      orErrCuda (sqCudaTry device .deviceSynchronize id)

/-- `sq_cuda_bench` from its first CUDA call on. -/
def benchOnDevice (variant : K1Variant) : CudaRun BenchHost SqStatus Unit := do
  cudaDeviceAvailable device
  orErrCuda (sqCudaTry device .streamCreate id)
  orErrCuda (createEvents device sqBenchEventCount)
  allocateBenchHost device config
  if config.count = 0 then benchEmpty device config variant
  else benchTensor device config variant

/-- What `sq_cuda_bench` leaves: its status, the base record and the checked calls that it
made. -/
structure BenchOutcome where
  status : SqStatus
  basePayload : Ptr Byte
  baseScale : Option F32
  calls : List CudaCall

/-- `sq_cuda_bench`, on buffers that hold anything. -/
def sqCudaBench (config : Option CudaConfig) (basePayload : Ptr Byte) (baseScale : Option F32)
    (samples : Bool) (memory : DeviceMemory) (hostPayload : ℕ → Byte) : BenchOutcome :=
  match config with
  | none => ⟨.errArgument, basePayload, baseScale, []⟩
  | some config =>
      match benchArguments config basePayload baseScale samples, config.k1Variant with
      | .ok, some variant =>
          let (result, state) := exec (benchOnDevice device config variant)
            ⟨[], 0, memory, none, ⟨hostPayload, zeroF, .ok, 0, basePayload, baseScale⟩⟩
          ⟨match result with | .ok () => .ok | .error status => status, state.host.basePayload,
            state.host.baseScale, state.calls⟩
      | status, _ => ⟨status, basePayload, baseScale, []⟩

end

end Stoquant

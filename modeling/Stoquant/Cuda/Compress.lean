import Stoquant.Cuda.Stages
import Stoquant.Native.Invocation

/-!
# Compression on the GPU

`sq_cuda_compress` checks its arguments, allocates and fills the device buffers, launches
K1 unless a scale is prescribed, K2 and K3, and copies back the statuses, the flags, the
scale and the payload.
-/

namespace Stoquant

open Abort Ieee Par

/-- `sq_cuda_config`.  The variant of K1 is absent when it is neither of the two. -/
structure CudaConfig where
  bitWidth : ℕ
  values : Ptr F32
  count : ℕ
  ids : StreamIds
  prescribedScale : Option F32
  prescribedWords : Ptr Word
  blockSize : ℤ
  gridSize : ℤ
  k1Variant : Option K1Variant
  boundary : SqBoundary
  transferPolicy : SqTransferPolicy
  warmups : BitVec 64
  reps : BitVec 64
  invocationIdStep : BitVec 64

/-- What `sq_cuda_compress` writes for its caller: `*scale` and `payload`. -/
structure CompressHost where
  scale : Option F32
  payload : Ptr Byte

/-- The device pointers of a compression, absent when null. -/
structure CompressBuffers where
  values : Option ℕ
  scale : Option ℕ
  status : Option ℕ
  validationFlags : Option ℕ
  codes : Option ℕ
  payload : Option ℕ
  words : Option ℕ
  k1Workspace : K1Workspace

/-- `SQ_CUDA_TIMING_START`. -/
def sqCudaTimingStart : ℕ := 0

/-- `SQ_CUDA_TIMING_STOP`. -/
def sqCudaTimingStop : ℕ := 1

/-- `SQ_CUDA_TIMING_COUNT`. -/
def sqCudaTimingCount : ℕ := 2

/-- The workspace of a compression with a prescribed scale. -/
def noWorkspace (counts : K1Counts) : K1Workspace := ⟨none, none, none, none, counts⟩

section

variable {Host : Type}

/-- A change of the device memory. -/
def CudaState.onDevice (f : DeviceMemory → DeviceMemory) (state : CudaState Host) :
    CudaState Host :=
  { state with memory := f state.memory }

/-- A change of what the host keeps, given the device memory. -/
def CudaState.onHost (f : DeviceMemory → Host → Host) (state : CudaState Host) : CudaState Host :=
  { state with host := f state.memory state.host }

/-- A value that the host has copied from the device. -/
def copied {ε α : Type} (read : DeviceMemory → α) : CudaRun Host ε α :=
  ExceptT.mk fun state => (.ok (read state.memory), state)

/-- Elements copied to the device. -/
def copyFrom {α : Type} (count : ℕ) (source buffer : ℕ → α) : ℕ → α :=
  fun i => if i < count then source i else buffer i

variable (device : CudaDevice)

/-- `timed_copy`, but for the time. -/
def timedCopy (bytes : ℕ) (effect : CudaState Host → CudaState Host) :
    CudaRun Host SqStatus Unit := do
  orErrCuda (sqCudaTry device (.memcpy bytes) effect)
  orErrCuda (sqCudaTry device .streamSynchronize id)

/-- `finish_kernel_timing`, but for the time. -/
def finishKernelTiming (start stop : ℕ) : CudaRun Host SqStatus Unit := do
  orErrCuda (sqCudaTry device (.eventRecord stop) id)
  orErrCuda (sqCudaTry device (.eventSynchronize stop) id)
  orErrCuda (sqCudaTry device (.eventElapsedTime start stop) id)

/-- `cudaMalloc` of a buffer that is not always needed. -/
def cudaMallocIf (needed : Bool) (bytes : ℕ) : CudaRun Host CudaError (Option ℕ) :=
  if needed then cudaMalloc device bytes else pure none

end

/-- The checks of `sq_cuda_compress` before its first CUDA call: the stream of the
tensor. -/
def compressArguments (config : CudaConfig) (payload : Ptr Byte) (scale : Option F32) :
    Except SqStatus SqRngStream :=
  if config.bitWidth ≠ sqQ4Bits ∧ config.bitWidth ≠ sqQ8Bits then .error .errBitWidth
  else if scale = none ∨ (config.count ≠ 0 ∧ (config.values = none ∨ payload = none)) ∨
      config.count > sizeMax / 4 ∨ config.k1Variant = none then .error .errArgument
  else if validLaunchGeometry config.blockSize config.gridSize = false then .error .errArgument
  else if config.prescribedScale.any fun scale => !isfinite scale || scale.lt zeroF then
    .error .errScale
  else if invocationRangeValidWord config.ids.tensorId config.ids.invocationId 0 1 0 = false then
    .error .errIdOverflow
  else
    match sqRngStreamInit config.ids.seed config.ids.tensorId config.ids.invocationId with
    | none => .error .errIdOverflow
    | some stream => .ok stream

section

variable [Arith Format.binary32] (device : CudaDevice) (config : CudaConfig) (timed : Bool)

/-- A call that is made only when timings are collected. -/
def whenTimed (run : CudaRun CompressHost SqStatus Unit) : CudaRun CompressHost SqStatus Unit :=
  if timed then run else pure ()

/-- The geometry of the workspace, which a prescribed scale does not need. -/
def compressCounts : CudaRun CompressHost SqStatus K1Counts :=
  if config.prescribedScale.isSome then pure ⟨0, 0⟩
  else
    match setK1WorkspaceGeometry (some ⟨0, 0⟩) config.count with
    | (.ok, some counts) => pure counts
    | (status, _) => throw status

/-- The workspace, which a prescribed scale does not need. -/
def compressWorkspace (counts : K1Counts) : CudaRun CompressHost CudaError K1Workspace :=
  if config.prescribedScale.isSome then pure (noWorkspace counts)
  else allocateK1Workspace device counts

/-- The allocations of `sq_cuda_compress`. -/
def allocateCompress (counts : K1Counts) : CudaRun CompressHost CudaError CompressBuffers := do
  let payloadBytes := sqPayloadSize config.bitWidth config.count
  let values ← cudaMalloc device (config.count * 4)
  let scale ← cudaMalloc device 4
  let status ← cudaMalloc device 4
  let validationFlags ← cudaMalloc device 4
  let codes ← cudaMalloc device config.count
  let payload ← cudaMalloc device (if payloadBytes > 0 then payloadBytes else 1)
  let words ← cudaMallocIf device config.prescribedWords.isSome (config.count * 4)
  let workspace ← compressWorkspace device config counts
  pure ⟨values, scale, status, validationFlags, codes, payload, words, workspace⟩

/-- The copies of the values and of prescribed words to the device. -/
def compressInputs : CudaRun CompressHost SqStatus Unit := do
  let values := config.values.getD fun _ => zeroF
  timedCopy device (config.count * 4) (CudaState.onDevice fun memory =>
    { memory with values := copyFrom config.count values memory.values })
  match config.prescribedWords with
  | some words =>
      timedCopy device (config.count * 4) (CudaState.onDevice fun memory =>
        { memory with words := copyFrom config.count words memory.words })
  | none => pure ()

/-- The scale: the prescribed one, or that of K1. -/
def compressScale (buffers : CompressBuffers) (variant : K1Variant) :
    CudaRun CompressHost SqStatus F32 :=
  match config.prescribedScale with
  | some prescribed => do
      change (CudaState.onHost fun _ host => { host with scale := some prescribed })
      timedCopy device 4 (CudaState.onDevice fun memory => { memory with scale := prescribed })
      pure prescribed
  | none => do
      whenTimed timed (orErrCuda (sqCudaTry device (.eventRecord sqCudaTimingStart) id))
      orErrCuda (sqCudaTry device .launchK1 id)
      orErrCuda (launchK1On device false variant
        ⟨buffers.values, buffers.scale, buffers.status⟩ config.count (some buffers.k1Workspace)
        config.gridSize)
      whenTimed timed (finishKernelTiming device sqCudaTimingStart sqCudaTimingStop)
      orErrCuda (sqCudaTry device .streamSynchronize id)
      timedCopy device 4 id
      let hostStatus ← copied (·.status)
      timedCopy device 4 (CudaState.onHost fun memory host =>
    { host with scale := some memory.scale })
      let scale ← copied (·.scale)
      if hostStatus ≠ .ok then throw hostStatus else pure scale

/-- K2 and the check of its flags. -/
def compressRound (buffers : CompressBuffers) (stream : SqRngStream) (scale : F32) :
    CudaRun CompressHost SqStatus Unit := do
  let prescribedWords := config.prescribedWords.isSome
  let present := buffers.values.isSome && buffers.scale.isSome && buffers.codes.isSome &&
    buffers.validationFlags.isSome && !(prescribedWords && buffers.words.isNone)
  whenTimed timed (orErrCuda (sqCudaTry device (.eventRecord sqCudaTimingStart) id))
  orErrCuda (sqCudaTry device .launchK2 id)
  orErrCuda (launchK2On device config.bitWidth config.count prescribedWords present stream
    config.blockSize config.gridSize)
  whenTimed timed (finishKernelTiming device sqCudaTimingStart sqCudaTimingStop)
  orErrCuda (sqCudaTry device .streamSynchronize id)
  timedCopy device 4 id
  let flags ← copied (·.flags)
  if compressCheck scale flags ≠ .ok then throw (compressCheck scale flags)

/-- K3 and the copy of the payload. -/
def compressPack (buffers : CompressBuffers) : CudaRun CompressHost SqStatus Unit := do
  let payloadBytes := sqPayloadSize config.bitWidth config.count
  whenTimed timed (orErrCuda (sqCudaTry device (.eventRecord sqCudaTimingStart) id))
  orErrCuda (sqCudaTry device .launchK3 id)
  orErrCuda (launchK3On device config.bitWidth config.count
    (buffers.codes.isSome && buffers.payload.isSome) config.blockSize config.gridSize)
  whenTimed timed (finishKernelTiming device sqCudaTimingStart sqCudaTimingStop)
  orErrCuda (sqCudaTry device .streamSynchronize id)
  timedCopy device payloadBytes (CudaState.onHost fun memory host =>
    { host with payload := host.payload.map (copyFrom payloadBytes memory.payload) })

/-- `sq_cuda_compress` from its first CUDA call on. -/
def compressOnDevice (variant : K1Variant) (stream : SqRngStream) :
    CudaRun CompressHost SqStatus Unit := do
  cudaDeviceAvailable device
  if config.count = 0 ∧ config.prescribedScale.any (fun scale => !scale.eq zeroF) then
    throw .errScale
  else if config.count = 0 then
    change (CudaState.onHost fun _ host =>
      { host with scale := some (config.prescribedScale.getD zeroF) })
  else do
    let counts ← compressCounts config
    orErrCuda (sqCudaTry device .streamCreate id)
    whenTimed timed (orErrCuda (createEvents device sqCudaTimingCount))
    let buffers ← orErrCuda (allocateCompress device config counts)
    orErrCuda (sqCudaTry device .memset (CudaState.enqueue device [.clearStatus]))
    orErrCuda (sqCudaTry device .memset (CudaState.enqueue device [.clearFlags]))
    compressInputs device config
    let scale ← compressScale device config timed buffers variant
    compressRound device config timed buffers stream scale
    compressPack device config timed buffers

/-- What `sq_cuda_compress` leaves: its status, what it writes for its caller, and the
checked calls that it made. -/
structure CompressResult where
  status : SqStatus
  host : CompressHost
  calls : List CudaCall

/-- `sq_cuda_compress`, on device buffers that hold anything; timings are collected unless
their pointer is null. -/
def sqCudaCompress (config : Option CudaConfig) (payload : Ptr Byte) (scale : Option F32)
    (memory : DeviceMemory) : CompressResult :=
  match config with
  | none => ⟨.errArgument, ⟨scale, payload⟩, []⟩
  | some config =>
      match compressArguments config payload scale, config.k1Variant with
      | .error status, _ => ⟨status, ⟨scale, payload⟩, []⟩
      | .ok _, none => ⟨.errArgument, ⟨scale, payload⟩, []⟩
      | .ok stream, some variant =>
          let (result, state) := exec (compressOnDevice device config timed variant stream)
            ⟨[], 0, memory, none, ⟨scale, payload⟩⟩
          ⟨match result with | .ok () => .ok | .error status => status, state.host, state.calls⟩

end

/-! ## A failing call is reported -/

section

variable {Host : Type} {device : CudaDevice}

theorem reported_call (call : CudaCall) {effect : CudaState Host → CudaState Host}
    (kept : ∀ state, (effect state).calls = state.calls) :
    Reported device (orErrCuda (sqCudaTry device call effect)) :=
  (guarded_try kept).orErrCuda

theorem reported_timedCopy (bytes : ℕ) {effect : CudaState Host → CudaState Host}
    (kept : ∀ state, (effect state).calls = state.calls) :
    Reported device (timedCopy device bytes effect) :=
  (reported_call _ kept).bind fun _ => reported_call _ fun _ => rfl

theorem reported_finishKernelTiming (start stop : ℕ) :
    Reported device (finishKernelTiming device start stop : CudaRun Host SqStatus Unit) := by
  refine Reported.bind (reported_call _ fun _ => rfl) fun _ => ?_
  refine Reported.bind (reported_call _ fun _ => rfl) fun _ => ?_
  exact reported_call _ fun _ => rfl

theorem reported_copied {α : Type} (read : DeviceMemory → α) :
    Reported device (copied read : CudaRun Host SqStatus α) :=
  fun _ fine => fine

theorem guarded_cudaMallocIf (needed : Bool) (bytes : ℕ) :
    Guarded device (cudaMallocIf device needed bytes : CudaRun Host CudaError (Option ℕ)) := by
  cases needed with
  | true => exact guarded_cudaMalloc bytes
  | false => exact guarded_pure _

end

section

variable {device : CudaDevice} (config : CudaConfig) (timed : Bool)

theorem reported_whenTimed {run : CudaRun CompressHost SqStatus Unit}
    (reported : Reported device run) : Reported device (whenTimed timed run) := by
  cases timed with
  | true => exact reported
  | false => exact reported_pure _

theorem reported_compressCounts : Reported device (compressCounts config) := by
  unfold compressCounts
  split
  · exact reported_pure _
  · split
    · exact reported_pure _
    · exact reported_throw _

theorem guarded_compressWorkspace (counts : K1Counts) :
    Guarded device (compressWorkspace device config counts) :=
  ends_ite (fun _ => guarded_pure _) fun _ => guarded_allocateK1Workspace _

theorem guarded_allocateCompress (counts : K1Counts) :
    Guarded device (allocateCompress device config counts) := by
  refine Guarded.bind (guarded_cudaMalloc _) fun _ => ?_
  refine Guarded.bind (guarded_cudaMalloc _) fun _ => ?_
  refine Guarded.bind (guarded_cudaMalloc _) fun _ => ?_
  refine Guarded.bind (guarded_cudaMalloc _) fun _ => ?_
  refine Guarded.bind (guarded_cudaMalloc _) fun _ => ?_
  refine Guarded.bind (guarded_cudaMalloc _) fun _ => ?_
  refine Guarded.bind (guarded_cudaMallocIf _ _) fun _ => ?_
  refine Guarded.bind (guarded_compressWorkspace _ _) fun _ => ?_
  exact guarded_pure _

theorem reported_compressInputs : Reported device (compressInputs device config) := by
  refine Reported.bind (reported_timedCopy _ fun _ => rfl) fun _ => ?_
  split
  · exact reported_timedCopy _ fun _ => rfl
  · exact reported_pure _

variable [Arith Format.binary32]

theorem reported_compressScale (buffers : CompressBuffers) (variant : K1Variant) :
    Reported device (compressScale device config timed buffers variant) := by
  unfold compressScale
  split
  · refine Reported.bind (reported_change fun _ => rfl) fun _ => ?_
    refine Reported.bind (reported_timedCopy _ fun _ => rfl) fun _ => ?_
    exact reported_pure _
  · refine Reported.bind (reported_whenTimed timed (reported_call _ fun _ => rfl)) fun _ => ?_
    refine Reported.bind (reported_call _ fun _ => rfl) fun _ => ?_
    refine Reported.bind (guarded_launchK1On _ _ _ _ _ _ _).orErrCuda fun _ => ?_
    refine Reported.bind (reported_whenTimed timed (reported_finishKernelTiming _ _)) fun _ => ?_
    refine Reported.bind (reported_call _ fun _ => rfl) fun _ => ?_
    refine Reported.bind (reported_timedCopy _ fun _ => rfl) fun _ => ?_
    refine Reported.bind (reported_copied _) fun status => ?_
    refine Reported.bind (reported_timedCopy _ fun _ => rfl) fun _ => ?_
    refine Reported.bind (reported_copied _) fun _ => ?_
    exact ends_ite (fun _ => reported_throw _) fun _ => reported_pure _

theorem reported_compressRound (buffers : CompressBuffers) (stream : SqRngStream) (scale : F32) :
    Reported device (compressRound device config timed buffers stream scale) := by
  refine Reported.bind (reported_whenTimed timed (reported_call _ fun _ => rfl)) fun _ => ?_
  refine Reported.bind (reported_call _ fun _ => rfl) fun _ => ?_
  refine Reported.bind (guarded_launchOp _ _ _).orErrCuda fun _ => ?_
  refine Reported.bind (reported_whenTimed timed (reported_finishKernelTiming _ _)) fun _ => ?_
  refine Reported.bind (reported_call _ fun _ => rfl) fun _ => ?_
  refine Reported.bind (reported_timedCopy _ fun _ => rfl) fun _ => ?_
  refine Reported.bind (reported_copied _) fun flags => ?_
  exact ends_ite (fun _ => reported_throw _) fun _ => reported_pure _

theorem reported_compressPack (buffers : CompressBuffers) :
    Reported device (compressPack device config timed buffers) := by
  refine Reported.bind (reported_whenTimed timed (reported_call _ fun _ => rfl)) fun _ => ?_
  refine Reported.bind (reported_call _ fun _ => rfl) fun _ => ?_
  refine Reported.bind (guarded_launchOp _ _ _).orErrCuda fun _ => ?_
  refine Reported.bind (reported_whenTimed timed (reported_finishKernelTiming _ _)) fun _ => ?_
  refine Reported.bind (reported_call _ fun _ => rfl) fun _ => ?_
  exact reported_timedCopy _ fun _ => rfl

theorem reported_compressOnDevice (variant : K1Variant) (stream : SqRngStream) :
    Reported device (compressOnDevice device config timed variant stream) := by
  refine Reported.bind reported_deviceAvailable fun _ => ?_
  refine ends_ite (fun _ => reported_throw _) fun _ => ?_
  refine ends_ite (fun _ => reported_change fun _ => rfl) fun _ => ?_
  refine Reported.bind (reported_compressCounts config) fun _ => ?_
  refine Reported.bind (reported_call _ fun _ => rfl) fun _ => ?_
  refine Reported.bind (reported_whenTimed timed (guarded_createEvents _).orErrCuda) fun _ => ?_
  refine Reported.bind (guarded_allocateCompress config _).orErrCuda fun buffers => ?_
  refine Reported.bind (reported_call _ fun _ => CudaState.calls_enqueue ..) fun _ => ?_
  refine Reported.bind (reported_call _ fun _ => CudaState.calls_enqueue ..) fun _ => ?_
  refine Reported.bind (reported_compressInputs config) fun _ => ?_
  refine Reported.bind (reported_compressScale config timed buffers variant) fun scale => ?_
  refine Reported.bind (reported_compressRound config timed buffers stream scale) fun _ => ?_
  exact reported_compressPack config timed buffers

theorem sqCudaCompress_fine {device : CudaDevice} {config : Option CudaConfig} {timed : Bool}
    {payload : Ptr Byte} {scale : Option F32} {memory : DeviceMemory}
    (other : (sqCudaCompress device timed config payload scale memory).status ≠ .errCuda) :
    device.Fine (sqCudaCompress device timed config payload scale memory).calls := by
  unfold sqCudaCompress at other ⊢
  cases config with
  | none => exact CudaDevice.fine_nil
  | some config =>
      dsimp only at other ⊢
      split at other
      · exact CudaDevice.fine_nil
      · exact CudaDevice.fine_nil
      · rename_i stream variant _ _
        have reported : Reported device _ :=
          reported_compressOnDevice config timed variant stream
        have start : device.Fine
            (⟨[], 0, memory, none, ⟨scale, payload⟩⟩ : CudaState CompressHost).calls :=
          CudaDevice.fine_nil
        rcases reported.outcome start with fine | blamed
        · exact fine
        · rw [blamed] at other
          exact absurd rfl other

/-- Unless every checked call that it made succeeded, `sq_cuda_compress` returns
`SQ_ERR_CUDA`. -/
theorem sqCudaCompress_reports (device : CudaDevice) (config : Option CudaConfig)
    (timed : Bool) (payload : Ptr Byte) (scale : Option F32) (memory : DeviceMemory) :
    let result := sqCudaCompress device timed config payload scale memory
    device.Fine result.calls ∨ result.status = .errCuda := by
  by_cases blamed : (sqCudaCompress device timed config payload scale memory).status = .errCuda
  · exact .inr blamed
  · exact .inl (sqCudaCompress_fine blamed)

end

end Stoquant

import Stoquant.Cuda.BenchErrors

/-!
# Staging for the CPU backend

The functions that keep the values on the device for the CPU backend and download them
before each of its runs, but for the time.  Together with the compression and the benchmark
they are all that a command calls, and none of them hides a failing call.
-/

namespace Stoquant

open Abort Ieee Par

/-- `sq_cuda_staging`: its policy, its count, and its buffers on the device and on the host. -/
structure SqCudaStaging where
  transferPolicy : SqTransferPolicy
  count : ℕ
  deviceValues : ℕ → F32
  landing : ℕ → F32

/-- What `sq_cuda_staging_create` leaves: its status, the staging that it hands out, and the
checked calls that it made. -/
structure StagingCreated where
  status : SqStatus
  staging : Option SqCudaStaging
  calls : List CudaCall

/-- What `sq_cuda_staging_download` leaves: its status, the staging, and the checked calls. -/
structure StagingDownloaded where
  status : SqStatus
  staging : Option SqCudaStaging
  calls : List CudaCall

section

variable (device : CudaDevice)

/-- The size of either buffer of a staging. -/
def stagingBytes (count : ℕ) : ℕ := if count = 0 then 1 else count * 4

/-- The copy of the values to the device. -/
def uploadValues (values : Ptr F32) (count : ℕ) : CudaRun (ℕ → F32) SqStatus Unit :=
  if count = 0 then pure ()
  else orErrCuda (sqCudaTry device (.memcpy (count * 4)) (CudaState.onDevice fun memory =>
    { memory with values := copyFrom count (values.getD fun _ => zeroF) memory.values }))

/-- The copy of the values to the landing buffer. -/
def landValues (count : ℕ) : CudaRun (ℕ → F32) SqStatus Unit :=
  if count = 0 then pure ()
  else orErrCuda (sqCudaTry device (.memcpy (count * 4)) (CudaState.onHost fun memory landing =>
    copyFrom count memory.values landing))

/-- `sq_cuda_staging_create` from its first CUDA call on.  The host keeps the landing buffer. -/
def createStaging (values : Ptr F32) (count : ℕ) (transferPolicy : SqTransferPolicy) :
    CudaRun (ℕ → F32) SqStatus Unit := do
  cudaDeviceAvailable device
  hostMalloc device
  allocateHost device (stagingBytes count) transferPolicy
  orErrCuda (sqCudaTry device .streamCreate id)
  orErrCuda (createEvents device sqCudaTimingCount)
  let _ ← orErrCuda (cudaMalloc device (stagingBytes count))
  uploadValues device values count
  orErrCuda (sqCudaTry device .deviceSynchronize id)

/-- `sq_cuda_staging_create`, on buffers that hold anything. -/
def sqCudaStagingCreate (values : Ptr F32) (count : ℕ) (transferPolicy : SqTransferPolicy)
    (staging : Bool) (memory : DeviceMemory) (landing : ℕ → F32) : StagingCreated :=
  if staging = false then ⟨.errArgument, none, []⟩
  else if (count ≠ 0 ∧ values = none) ∨ count > sizeMax / 4 ∨
      (transferPolicy ≠ .pageable ∧ transferPolicy ≠ .pinned) then ⟨.errArgument, none, []⟩
  else
    let (result, state) := exec (createStaging device values count transferPolicy)
      ⟨[], 0, memory, none, landing⟩
    match result with
    | .ok () => ⟨.ok, some ⟨transferPolicy, count, state.memory.values, state.host⟩, state.calls⟩
    | .error status => ⟨status, none, state.calls⟩

/-- The CUDA calls of `sq_cuda_staging_download`. -/
def downloadStaging (count : ℕ) : CudaRun (ℕ → F32) SqStatus Unit := do
  orErrCuda (sqCudaTry device (.eventRecord sqCudaTimingStart) id)
  landValues device count
  orErrCuda (sqCudaTry device (.eventRecord sqCudaTimingStop) id)
  orErrCuda (sqCudaTry device .streamSynchronize id)
  orErrCuda (sqCudaTry device (.eventElapsedTime sqCudaTimingStart sqCudaTimingStop) id)

/-- `sq_cuda_staging_download`; the buffers of the device beside the values hold anything. -/
def sqCudaStagingDownload (staging : Option SqCudaStaging) (landing d2hMs : Bool)
    (memory : DeviceMemory) : StagingDownloaded :=
  match staging with
  | none => ⟨.errArgument, none, []⟩
  | some staging =>
      if landing = false ∨ d2hMs = false then ⟨.errArgument, some staging, []⟩
      else
        let (result, state) := exec (downloadStaging device staging.count)
          ⟨[], 0, { memory with values := staging.deviceValues }, none, staging.landing⟩
        ⟨match result with | .ok () => .ok | .error status => status,
          some { staging with landing := state.host }, state.calls⟩

end

/-! ## A failing call is reported -/

section

variable {device : CudaDevice}

theorem noticed_hostMalloc {Host : Type} :
    Noticed device (hostMalloc device : CudaRun Host SqStatus Unit) :=
  noticed_allocateHost 0 .pageable

theorem reported_uploadValues (values : Ptr F32) (count : ℕ) :
    Reported device (uploadValues device values count) :=
  ends_ite (fun _ => reported_pure _) fun _ => reported_call _ fun _ => rfl

theorem reported_landValues (count : ℕ) : Reported device (landValues device count) :=
  ends_ite (fun _ => reported_pure _) fun _ => reported_call _ fun _ => rfl

theorem noticed_createStaging (values : Ptr F32) (count : ℕ) (transferPolicy : SqTransferPolicy) :
    Noticed device (createStaging device values count transferPolicy) := by
  refine Noticed.bind reported_deviceAvailable.noticed fun _ => ?_
  refine Noticed.bind noticed_hostMalloc fun _ => ?_
  refine Noticed.bind (noticed_allocateHost _ _) fun _ => ?_
  refine Noticed.bind (reported_call _ fun _ => rfl).noticed fun _ => ?_
  refine Noticed.bind (guarded_createEvents _).orErrCuda.noticed fun _ => ?_
  refine Noticed.bind (guarded_cudaMalloc _).orErrCuda.noticed fun _ => ?_
  refine Noticed.bind (reported_uploadValues _ _).noticed fun _ => ?_
  exact (reported_call _ fun _ => rfl).noticed

theorem reported_downloadStaging (count : ℕ) : Reported device (downloadStaging device count) := by
  refine Reported.bind (reported_call _ fun _ => rfl) fun _ => ?_
  refine Reported.bind (reported_landValues _) fun _ => ?_
  refine Reported.bind (reported_call _ fun _ => rfl) fun _ => ?_
  refine Reported.bind (reported_call _ fun _ => rfl) fun _ => ?_
  exact reported_call _ fun _ => rfl

theorem sqCudaStagingCreate_noticed (values : Ptr F32) (count : ℕ)
    (transferPolicy : SqTransferPolicy) (staging : Bool) (memory : DeviceMemory)
    (landing : ℕ → F32) :
    let created :=
      sqCudaStagingCreate device values count transferPolicy staging memory landing
    device.Fine created.calls ∨ created.status = .errCuda ∨ created.status = .errMemory := by
  unfold sqCudaStagingCreate
  dsimp only
  split
  · exact .inl CudaDevice.fine_nil
  split
  · exact .inl CudaDevice.fine_nil
  have noticed : Noticed device _ := noticed_createStaging values count transferPolicy
  cases ran : exec (createStaging device values count transferPolicy)
      ⟨[], 0, memory, none, landing⟩ with
  | mk outcome state =>
      cases outcome with
      | ok done => exact .inl (noticed.ok CudaDevice.fine_nil ran)
      | error status => exact noticed.error CudaDevice.fine_nil ran

theorem sqCudaStagingDownload_reported (staging : Option SqCudaStaging) (landing d2hMs : Bool)
    (memory : DeviceMemory) :
    let downloaded := sqCudaStagingDownload device staging landing d2hMs memory
    device.Fine downloaded.calls ∨ downloaded.status = .errCuda := by
  unfold sqCudaStagingDownload
  cases staging with
  | none => exact .inl CudaDevice.fine_nil
  | some staging =>
      dsimp only
      split
      · exact .inl CudaDevice.fine_nil
      have reported : Reported device _ := reported_downloadStaging staging.count
      cases ran : exec (downloadStaging device staging.count)
          ⟨[], 0, { memory with values := staging.deviceValues }, none, staging.landing⟩ with
      | mk outcome state =>
          cases outcome with
          | ok done => exact .inl (reported.ok CudaDevice.fine_nil ran)
          | error status => exact reported.error CudaDevice.fine_nil ran

/-- A failing call is never reported as success: with `SQ_OK` every checked call of the
compression, the benchmark or the staging succeeded, and a compression in which one failed
returns `SQ_ERR_CUDA`. -/
theorem cudaFailures_reported [Arith Format.binary32] (device : CudaDevice) :
    (∀ timed config payload scale memory,
      let result := sqCudaCompress device timed config payload scale memory
      (result.status = .ok → device.Fine result.calls) ∧
        (¬ device.Fine result.calls → result.status = .errCuda)) ∧
    (∀ config basePayload baseScale samples memory hostPayload,
      let outcome := sqCudaBench device config basePayload baseScale samples memory hostPayload
      outcome.status = .ok → device.Fine outcome.calls) ∧
    (∀ values count transferPolicy staging memory landing,
      let created :=
        sqCudaStagingCreate device values count transferPolicy staging memory landing
      created.status = .ok → device.Fine created.calls) ∧
    ∀ staging landing d2hMs memory,
      let downloaded := sqCudaStagingDownload device staging landing d2hMs memory
      downloaded.status = .ok → device.Fine downloaded.calls := by
  refine ⟨?_, ?_, ?_, ?_⟩
  · intro timed config payload scale memory
    constructor
    · intro ok
      apply sqCudaCompress_fine
      rw [ok]
      exact SqStatus.noConfusion
    · intro failed
      by_contra other
      exact failed (sqCudaCompress_fine other)
  · intro config basePayload baseScale samples memory hostPayload outcome ok
    rcases sqCudaBench_noticed config basePayload baseScale samples memory hostPayload with
      fine | blamed | missing
    · exact fine
    · exact SqStatus.noConfusion (ok.symm.trans blamed)
    · exact SqStatus.noConfusion (ok.symm.trans missing)
  · intro values count transferPolicy staging memory landing created ok
    rcases sqCudaStagingCreate_noticed values count transferPolicy staging memory landing with
      fine | blamed | missing
    · exact fine
    · exact SqStatus.noConfusion (ok.symm.trans blamed)
    · exact SqStatus.noConfusion (ok.symm.trans missing)
  · intro staging landing d2hMs memory downloaded ok
    rcases sqCudaStagingDownload_reported staging landing d2hMs memory with fine | blamed
    · exact fine
    · exact SqStatus.noConfusion (ok.symm.trans blamed)

end

end Stoquant

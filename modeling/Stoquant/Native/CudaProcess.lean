import Stoquant.Cuda.BenchRecord
import Stoquant.Cuda.Staging
import Stoquant.Native.CpuProcess

/-!
# CUDA calls of one process

What a command gets from `sq_cuda_compress`, `sq_cuda_bench` and the staging on a device
where no call fails: the record of its tensor, and the values that it staged.
-/

namespace Stoquant

open Abort Ieee

/-- The configuration as the CUDA functions read it. -/
def SqCudaConfig.toCuda (config : SqCudaConfig) : CudaConfig where
  bitWidth := config.bitWidth
  values := config.values
  count := config.count
  ids := ⟨BitVec.ofNat 64 config.seed, BitVec.ofNat 64 config.tensorId,
    BitVec.ofNat 64 config.invocationId⟩
  prescribedScale := config.prescribedScale
  prescribedWords := config.prescribedWords
  blockSize := config.blockSize
  gridSize := config.gridSize
  k1Variant := some config.k1Variant
  boundary := config.boundary
  transferPolicy := if config.pinned then .pinned else .pageable
  warmups := BitVec.ofNat 64 config.warmups
  reps := BitVec.ofNat 64 config.reps
  invocationIdStep := BitVec.ofNat 64 config.invocationIdStep

/-- What `sq_cuda_compress` gives its caller. -/
def compressAnswer (result : CompressResult) : Except SqStatus ((ℕ → Byte) × F32) :=
  match result.status, result.host.payload, result.host.scale with
  | .ok, some payload, some scale => .ok (payload, scale)
  | status, _, _ => .error status

/-- What `sq_cuda_bench` gives its caller, with the times that it measures. -/
def benchAnswer (samples : ℕ → BenchSample) (captureMs : ℚ≥0) (outcome : BenchOutcome) :
    Except SqStatus CudaBenchOutput :=
  match outcome.status, outcome.basePayload, outcome.baseScale with
  | .ok, some payload, some scale => .ok ⟨payload, scale, samples, captureMs⟩
  | status, _, _ => .error status

/-- What `sq_cuda_staging_download` gives its caller, with the time that it measures. -/
def downloadAnswer (d2hMs : ℚ≥0) (downloaded : StagingDownloaded) :
    Except SqStatus (Ptr F32 × ℚ≥0) :=
  match downloaded.status with
  | .ok => .ok (downloaded.staging.map SqCudaStaging.landing, d2hMs)
  | status => .error status

theorem cudaRecord_packCodes {bitWidth count : ℕ} {scale : F32} (supported : Supported bitWidth)
    (finite : isfinite scale = true) (nonneg : scale.lt zeroF = false)
    (empty : count = 0 → scale.eq zeroF = true) (codes payload : ℕ → Byte) :
    ∃ buffer, cudaRecord bitWidth count (packCodes bitWidth count codes payload) scale =
        .ok buffer ∧
      recordIn bitWidth count buffer = recordBytes bitWidth count ⟨scale, codes⟩ := by
  have zero : ¬ (count = 0 ∧ scale.eq zeroF = false) := by
    rintro ⟨none, nonzero⟩
    rw [empty none] at nonzero
    cases nonzero
  have encoded : ∀ buffer, sqHeaderEncode bitWidth count scale (some buffer) =
      (.ok, some (storeBytes buffer (headerBytes bitWidth count scale))) := by
    intro buffer
    unfold sqHeaderEncode
    dsimp only
    rw [if_neg supported.ne, if_neg (by simp [finite, nonneg]), if_neg zero]
  refine ⟨storeBytes (withPayload (fun _ => 0#8) (packCodes bitWidth count codes payload))
    (headerBytes bitWidth count scale), ?_, ?_⟩
  · unfold cudaRecord
    rw [encoded]
  · have headerLength := headerBytes_length bitWidth count scale
    unfold recordIn recordBytes payloadBytes
    rw [List.range_add, List.map_append, List.map_map]
    apply congrArg (headerBytes bitWidth count scale ++ ·)
    apply List.map_congr_left
    intro k member
    rw [List.mem_range] at member
    have beyond : (headerBytes bitWidth count scale)[sqHeaderSize + k]? = none :=
      List.getElem?_eq_none (by omega)
    have index : sqHeaderSize + k - sqHeaderSize = k := by omega
    simp only [Function.comp_apply, storeBytes, List.getD_eq_getElem?_getD, beyond,
      Option.getD_none, withPayload, packCodes, index]
    rw [if_neg (by omega), if_pos member]

theorem tensorRecord_scale [RoundedArith Format.binary32] {bitWidth : ℕ} {x : F32Array}
    {ids : StreamIds} {prescribedScale : Option F32} {prescribedWords : Ptr Word}
    {record : TensorRecord}
    (found : tensorRecord bitWidth x ids prescribedScale prescribedWords = .ok record) :
    isfinite record.scale = true ∧ record.scale.lt zeroF = false ∧
      (x.count = 0 → record.scale.eq zeroF = true) := by
  obtain ⟨-, encoded, -⟩ := tensorRecord_ok found
  obtain ⟨finite, nonneg, -, zero⟩ := encodeStatus_ok_iff.mp encoded
  refine ⟨finite, nonneg, fun empty => ?_⟩
  rw [empty] at zero
  simpa [anyNonzero] using zero

/-- Without a failing call the record that is assembled from the results of the GPU is byte for
byte the record of the scalar CPU backend. -/
theorem cudaRecord_eq_scalarRecord [RoundedArith Format.binary32] {device : CudaDevice}
    (quiet : device.Quiet) (timed : Bool) {x : F32Array} {config : CudaConfig}
    (values : config.values = x.values) (count : config.count = x.count)
    (width : config.bitWidth = 4 ∨ config.bitWidth = 8)
    (block : 1 ≤ config.blockSize ∧ config.blockSize ≤ 1024)
    (grid : 0 ≤ config.gridSize ∧ config.gridSize ≤ 65535)
    (variant : config.k1Variant = some .reference ∨ config.k1Variant = some .optimized)
    (tensorId : config.ids.tensorId.toNat ≤ uint32Max)
    (invocationId : config.ids.invocationId.toNat ≤ uint32Max)
    (payload : ℕ → Byte) (scale : F32) (memory : DeviceMemory) (omp : OmpRuntime)
    {workspace : SqCpuCompressWorkspace} (reserved : Reserved workspace x.count)
    (buffer : ℕ → Byte) :
    let cuda := sqCudaCompress device timed (some config) (some payload) (some scale) memory
    let scalar := sqCpuCompress omp .cpu config.bitWidth x.values x.count config.ids
      config.prescribedScale config.prescribedWords workspace (some buffer)
    cuda.status = scalar.1 ∧ (scalar.1 = .ok → ∃ computed bytes written record,
      cuda.host.scale = some computed ∧ cuda.host.payload = some bytes ∧
      scalar.2.2.map (recordIn config.bitWidth x.count) = some written ∧
      f32Bits computed = recordScaleBits written ∧
      (List.range (sqPayloadSize config.bitWidth x.count)).map bytes =
        written.drop sqHeaderSize ∧
      cudaRecord config.bitWidth x.count bytes computed = .ok record ∧
      recordIn config.bitWidth x.count record = written) := by
  have stages := stagesCorrect_cpu omp x
  have geometry : validLaunchGeometry config.blockSize config.gridSize = true := by
    unfold validLaunchGeometry sqCudaMaxBlockSize sqCudaMaxGridSize
    rw [decide_eq_true_eq]
    omega
  have chosen : config.k1Variant.isSome = true := by
    rcases variant with reference | optimized
    · rw [reference]
      rfl
    · rw [optimized]
      rfl
  dsimp only
  rw [sqCpuCompress_status stages reserved]
  have handed := sqCudaCompress_handsOut quiet timed values count width geometry chosen
    tensorId invocationId payload scale memory
  cases found : tensorRecord config.bitWidth x config.ids config.prescribedScale
      config.prescribedWords with
  | error status =>
      exact ⟨handed.error status found, fun ok => absurd ok (tensorRecord_error found)⟩
  | ok record =>
      obtain ⟨status, stored, hostScale⟩ := handed.ok record found
      obtain ⟨finite, nonneg, empty⟩ := tensorRecord_scale found
      obtain ⟨assembled, encoded, assembledBytes⟩ := cudaRecord_packCodes width finite nonneg
        empty record.codes payload
      refine ⟨status, fun _ => ⟨_, _, _, assembled, hostScale, stored,
        sqCpuCompress_record stages reserved buffer found, recordScaleBits_recordBytes.symm, ?_,
        encoded, assembledBytes⟩⟩
      unfold recordBytes payloadBytes
      rw [← headerBytes_length config.bitWidth x.count record.scale, List.drop_left]
      apply List.map_congr_left
      intro k member
      exact if_pos (List.mem_range.mp member)

theorem cudaRecord_eq_scalarRecord_twoBlocks :
    letI := nearestEven Format.binary32
    let cuda := sqCudaCompress quietDevice true (some twoBlocksConfig) (some fun _ => 0#8)
      (some zeroF) zeroMemory
    let scalar := sqCpuCompress threeThreadRuntime .cpu twoBlocksConfig.bitWidth twoBlocks.values
      twoBlocks.count twoBlocksConfig.ids twoBlocksConfig.prescribedScale
      twoBlocksConfig.prescribedWords twoBlocksWorkspace (some fun _ => 0#8)
    cuda.status = scalar.1 ∧ (scalar.1 = .ok → ∃ computed bytes written record,
      cuda.host.scale = some computed ∧ cuda.host.payload = some bytes ∧
      scalar.2.2.map (recordIn twoBlocksConfig.bitWidth twoBlocks.count) = some written ∧
      f32Bits computed = recordScaleBits written ∧
      (List.range (sqPayloadSize twoBlocksConfig.bitWidth twoBlocks.count)).map bytes =
        written.drop sqHeaderSize ∧
      cudaRecord twoBlocksConfig.bitWidth twoBlocks.count bytes computed = .ok record ∧
      recordIn twoBlocksConfig.bitWidth twoBlocks.count record = written) :=
  @cudaRecord_eq_scalarRecord (nearestEven Format.binary32).toRoundedArith _ quietDevice_quiet
    true twoBlocks twoBlocksConfig rfl rfl (.inl rfl) (by decide) (by decide) (.inr rfl)
    (by decide) (by decide) (fun _ => 0#8) zeroF zeroMemory threeThreadRuntime _
    twoBlocksWorkspace_reserved fun _ => 0#8

/-! ## Compression and benchmark -/

/-- The record that a configuration is to make of an input. -/
def SqCudaConfig.made [Arith Format.binary32] (config : SqCudaConfig) (x : F32Array) :
    Except SqStatus TensorRecord :=
  tensorRecord config.bitWidth x config.toCuda.ids config.prescribedScale
    config.prescribedWords

/-- A configuration of an input with which `sq_cuda_compress` finds no fault but for its
prescribed scale. -/
structure SqCudaConfig.Fits (config : SqCudaConfig) (x : F32Array) : Prop where
  values : config.values = x.values
  count : config.count = x.count
  supported : Supported config.bitWidth
  geometry : validLaunchGeometry config.blockSize config.gridSize = true
  tensorId : config.tensorId ≤ uint32Max
  invocationId : config.invocationId ≤ uint32Max

/-- A call of `sq_cuda_compress` in which no CUDA call fails. -/
def World.CompressesOnDevice [Arith Format.binary32] (world : World) (call : ℕ)
    (config : SqCudaConfig) : Prop :=
  ∃ (device : CudaDevice) (timed : Bool) (payload : ℕ → Byte) (scale : F32)
    (memory : DeviceMemory), device.Quiet ∧
    world.cudaCompress call config =
      compressAnswer (sqCudaCompress device timed (some config.toCuda) (some payload)
        (some scale) memory)

/-- A call of `sq_cuda_bench` in which no CUDA call and no host allocation fails. -/
def World.BenchesOnDevice [Arith Format.binary32] (world : World) (config : SqCudaConfig) :
    Prop :=
  ∃ (device : CudaDevice) (payload : ℕ → Byte) (scale : F32) (memory : DeviceMemory)
    (hostPayload : ℕ → Byte) (samples : ℕ → BenchSample) (captureMs : ℚ≥0),
    device.Quiet ∧ (∀ calls, device.hostMemory calls = true) ∧
    world.cudaBench config =
      benchAnswer samples captureMs (sqCudaBench device (some config.toCuda) (some payload)
        (some scale) true memory hostPayload)

theorem SqCudaConfig.Fits.ids {config : SqCudaConfig} {x : F32Array} (fits : config.Fits x) :
    config.toCuda.ids.tensorId.toNat ≤ uint32Max ∧
      config.toCuda.ids.invocationId.toNat ≤ uint32Max :=
  ⟨(Nat.mod_le _ _).trans fits.tensorId, (Nat.mod_le _ _).trans fits.invocationId⟩

section

variable [RoundedArith Format.binary32] {world : World} {config : SqCudaConfig}
  {x : F32Array}

theorem World.CompressesOnDevice.answer {call : ℕ}
    (compresses : world.CompressesOnDevice call config) (fits : config.Fits x) :
    (∀ status, config.made x = .error status →
      world.cudaCompress call config = .error status) ∧
    ∀ record, config.made x = .ok record → ∃ payload,
      world.cudaCompress call config =
        .ok (packCodes config.bitWidth x.count record.codes payload, record.scale) := by
  obtain ⟨device, timed, payload, scale, memory, quiet, answer⟩ := compresses
  have handed := @sqCudaCompress_handsOut _ _ quiet timed _ config.toCuda fits.values
    fits.count fits.supported fits.geometry rfl fits.ids.1 fits.ids.2 payload scale memory
  rw [answer]
  constructor
  · intro status refused
    have failed := tensorRecord_error refused
    have returned := handed.error status refused
    unfold compressAnswer
    rw [returned]
    cases status with
    | ok => exact absurd rfl failed
    | _ => rfl
  · intro record found
    obtain ⟨returned, stored, hostScale⟩ := handed.ok record found
    refine ⟨payload, ?_⟩
    unfold compressAnswer
    rw [returned, stored, hostScale]
    rfl

/-- The benchmark answers with the record of its base run, but for the scale of an empty
input, or with the status of making it. -/
theorem World.BenchesOnDevice.answer (benches : world.BenchesOnDevice config)
    (fits : config.Fits x)
    (arguments : ∀ payload scale,
      benchArguments config.toCuda (some payload) (some scale) true = .ok ∨
        config.made x =
          .error (benchArguments config.toCuda (some payload) (some scale) true)) :
    (∀ status, config.made x = .error status → world.cudaBench config = .error status) ∧
    ∀ record, config.made x = .ok record → ∃ payload samples captureMs,
      world.cudaBench config =
        .ok ⟨packCodes config.bitWidth x.count record.codes payload,
          if x.count = 0 then zeroF else record.scale, samples, captureMs⟩ := by
  obtain ⟨device, payload, scale, memory, hostPayload, samples, captureMs, quiet, found,
    answer⟩ := benches
  have handed := sqCudaBench_handsOut quiet found memory hostPayload fits.values fits.count
    (arguments payload scale)
  rw [answer]
  constructor
  · intro status refused
    have failed := tensorRecord_error refused
    have returned := handed.error status refused
    unfold benchAnswer
    rw [returned]
    cases status with
    | ok => exact absurd rfl failed
    | _ => rfl
  · intro record found
    obtain ⟨returned, basePayload, baseScale⟩ := handed.ok record found
    refine ⟨payload, samples, captureMs, ?_⟩
    unfold benchAnswer
    rw [returned, basePayload, baseScale]
    rfl

end

/-! ## Staging -/

section

variable {device : CudaDevice} {x : F32Array} {values : Ptr F32} {count : ℕ}

/-- The staging that a download finds. -/
def stagingBefore (device : CudaDevice) (memory : ℕ → DeviceMemory)
    (created : Option SqCudaStaging) : ℕ → Option SqCudaStaging
  | 0 => created
  | t + 1 =>
      (sqCudaStagingDownload device (stagingBefore device memory created t) true true
        (memory t)).staging

/-- The staging of a process in which no CUDA call and no host allocation fails. -/
def World.StagesOnDevice (world : World) (values : Ptr F32) (count : ℕ) (pinned : Bool)
    (downloads : ℕ) : Prop :=
  ∃ (device : CudaDevice) (memory : DeviceMemory) (landing : ℕ → F32)
    (memories : ℕ → DeviceMemory) (d2hMs : ℕ → ℚ≥0),
    let created := sqCudaStagingCreate device values count
      (if pinned then .pinned else .pageable) true memory landing
    device.Quiet ∧ (∀ calls, device.hostMemory calls = true) ∧
    world.stagingCreate values count pinned = created.status ∧
    ∀ t < downloads, world.stagingDownload t =
      downloadAnswer (d2hMs t) (sqCudaStagingDownload device
        (stagingBefore device memories created.staging t) true true (memories t))

section

variable (quiet : device.Quiet)

include quiet

theorem quiet_uploadValues (valuesEq : values = x.values) (countEq : count = x.count)
    (landing : ℕ → F32) {failed : SqStatus → CudaState (ℕ → F32) → Prop} :
    Ends (On fun _ host => host = landing) (uploadValues device values count)
      (fun _ => On fun memory host =>
        host = landing ∧ ∀ i < count, memory.values i = x.get i) failed := by
  subst valuesEq countEq
  refine ends_ite (fun empty => ends_pure ?_) fun nonempty => quiet_orErrCuda quiet _ ?_
  · intro state start
    refine ⟨start.1, start.2, fun i inside => ?_⟩
    omega
  · intro state start
    exact ⟨start.1, start.2, fun i inside => if_pos inside⟩

theorem quiet_createStaging (found : ∀ calls, device.hostMemory calls = true)
    (valuesEq : values = x.values) (countEq : count = x.count)
    (transferPolicy : SqTransferPolicy) (landing : ℕ → F32) :
    Ends (On fun _ host => host = landing) (createStaging device values count transferPolicy)
      (fun _ => On fun memory host =>
        host = landing ∧ ∀ i < count, memory.values i = x.get i) fun _ _ => False := by
  refine (quiet_deviceAvailable quiet).then fun _ => ?_
  have mallocs : Ends (On fun _ host => host = landing) (hostMalloc device)
      (fun _ => On fun _ host => host = landing) fun _ _ => False :=
    quiet_allocateHost quiet found 0 .pageable
  refine mallocs.then fun _ => ?_
  refine (quiet_allocateHost quiet found _ _).then fun _ => ?_
  refine (quiet_step quiet _).then fun _ => ?_
  refine (Ends.orErrCuda (quiet_createEvents quiet _)).then fun _ => ?_
  refine (Ends.orErrCuda (quiet_cudaMalloc quiet _)).bind fun _ => ?_
  refine ends_assuming fun _ => ?_
  refine (quiet_uploadValues quiet valuesEq countEq landing).then fun _ => ?_
  exact quiet_step quiet _

theorem quiet_downloadStaging (deviceValues landing : ℕ → F32) :
    Ends (On fun memory host => memory.values = deviceValues ∧ host = landing)
      (downloadStaging device count)
      (fun _ => On fun _ host => host = copyFrom count deviceValues landing)
      fun _ _ => False := by
  have lands : Ends (On fun memory host => memory.values = deviceValues ∧ host = landing)
      (landValues device count)
      (fun _ => On fun _ host => host = copyFrom count deviceValues landing)
      fun _ _ => False := by
    refine ends_ite (fun empty => ends_pure ?_) fun nonempty => quiet_orErrCuda quiet _ ?_
    · intro state start
      refine ⟨start.1, funext fun i => ?_⟩
      rw [start.2.2, empty]
      rfl
    · intro state start
      refine ⟨start.1, ?_⟩
      rw [← start.2.1, ← start.2.2]
      rfl
  refine (quiet_step quiet _).then fun _ => ?_
  refine lands.then fun _ => ?_
  refine (quiet_step quiet _).then fun _ => ?_
  refine (quiet_step quiet _).then fun _ => ?_
  exact quiet_step quiet _

theorem quiet_stagingCreate (found : ∀ calls, device.hostMemory calls = true)
    (valuesEq : values = x.values) (countEq : count = x.count) {policy : SqTransferPolicy}
    (proper : policy ≠ .none) (memory : DeviceMemory) (landing : ℕ → F32) :
    ∃ deviceValues : ℕ → F32, (∀ i < count, deviceValues i = x.get i) ∧
      let created := sqCudaStagingCreate device values count policy true memory landing
      created.status = .ok ∧ created.staging = some ⟨policy, count, deviceValues, landing⟩ := by
  have accepted : ¬ ((count ≠ 0 ∧ values = none) ∨ count > sizeMax / 4 ∨
      (policy ≠ .pageable ∧ policy ≠ .pinned)) := by
    have fits := x.fits
    rintro (⟨nonempty, absent⟩ | large | ⟨notPageable, notPinned⟩)
    · have present := x.present (countEq ▸ nonempty)
      rw [← valuesEq, absent] at present
      cases present
    · omega
    · cases policy with
      | pageable => exact notPageable rfl
      | pinned => exact notPinned rfl
      | none => exact proper rfl
  have ends : Ends (On fun _ host => host = landing) _ _ _ :=
    quiet_createStaging quiet found valuesEq countEq policy landing
  unfold sqCudaStagingCreate
  rw [if_neg (by simp), if_neg accepted]
  cases ran : exec (createStaging device values count policy)
      ⟨[], 0, memory, none, landing⟩ with
  | mk outcome state =>
      cases outcome with
      | error status => exact (ends.error ⟨rfl, rfl⟩ ran).elim
      | ok done =>
          obtain ⟨-, kept, staged⟩ := ends.ok ⟨rfl, rfl⟩ ran
          subst kept
          exact ⟨state.memory.values, staged, rfl, rfl⟩

theorem quiet_stagingDownload (policy : SqTransferPolicy) (deviceValues landing : ℕ → F32)
    (memory : DeviceMemory) :
    let downloaded := sqCudaStagingDownload device
      (some ⟨policy, count, deviceValues, landing⟩) true true memory
    downloaded.status = .ok ∧ downloaded.staging =
      some ⟨policy, count, deviceValues, copyFrom count deviceValues landing⟩ := by
  have ends : Ends (On fun memory host => memory.values = deviceValues ∧ host = landing) _ _ _ :=
    @quiet_downloadStaging _ count quiet deviceValues landing
  unfold sqCudaStagingDownload
  dsimp only
  rw [if_neg (by simp)]
  cases ran : exec (downloadStaging device count)
      ⟨[], 0, { memory with values := deviceValues }, none, landing⟩ with
  | mk outcome state =>
      cases outcome with
      | error status => exact (ends.error ⟨rfl, rfl, rfl⟩ ran).elim
      | ok done =>
          obtain ⟨-, landed⟩ := ends.ok ⟨rfl, rfl, rfl⟩ ran
          rw [← landed]
          exact ⟨rfl, rfl⟩

/-- The landing buffer before a download: from the second one on it holds the values. -/
theorem quiet_stagingBefore (policy : SqTransferPolicy) (deviceValues landing : ℕ → F32)
    (memory : ℕ → DeviceMemory) (t : ℕ) :
    ∃ held, stagingBefore device memory (some ⟨policy, count, deviceValues, landing⟩) t =
        some ⟨policy, count, deviceValues, held⟩ ∧
      copyFrom count deviceValues held = copyFrom count deviceValues landing := by
  induction t with
  | zero => exact ⟨landing, rfl, rfl⟩
  | succ t ih =>
      obtain ⟨held, before, same⟩ := ih
      refine ⟨copyFrom count deviceValues held, ?_, ?_⟩
      · rw [stagingBefore, before]
        exact (quiet_stagingDownload quiet policy deviceValues held (memory t)).2
      · rw [← same]
        funext i
        unfold copyFrom
        split
        · rfl
        · rfl

end

theorem World.StagesOnDevice.lands {world : World} {pinned : Bool} {downloads : ℕ}
    (stages : world.StagesOnDevice values count pinned downloads)
    (valuesEq : values = x.values) (countEq : count = x.count) :
    world.stagingCreate values count pinned = .ok ∧
    ∃ landed : F32Array, landed.count = x.count ∧ (∀ i < x.count, landed.get i = x.get i) ∧
      ∀ t < downloads, ∃ d2hMs, world.stagingDownload t = .ok (landed.values, d2hMs) := by
  obtain ⟨device, memory, landing, memories, d2hMs, quiet, found, create, download⟩ := stages
  have proper : (if pinned then SqTransferPolicy.pinned else .pageable) ≠ .none := by
    cases pinned with
    | true => exact SqTransferPolicy.noConfusion
    | false => exact SqTransferPolicy.noConfusion
  obtain ⟨deviceValues, staged, status, staging⟩ :=
    quiet_stagingCreate quiet found valuesEq countEq proper memory landing
  refine ⟨create.trans status, ⟨some (copyFrom count deviceValues landing), count,
    fun _ => rfl, countEq ▸ x.fits⟩, countEq, fun i inside => ?_, fun t below => ⟨d2hMs t, ?_⟩⟩
  · have copied : copyFrom count deviceValues landing i = deviceValues i :=
      if_pos (countEq ▸ inside)
    exact copied.trans (staged i (countEq ▸ inside))
  · obtain ⟨held, before, same⟩ :=
      @quiet_stagingBefore _ count quiet _ deviceValues landing memories t
    obtain ⟨returned, landed⟩ :=
      @quiet_stagingDownload _ count quiet _ deviceValues held (memories t)
    rw [download t below, staging, before]
    unfold downloadAnswer
    rw [returned, landed, same]
    rfl

end

end Stoquant

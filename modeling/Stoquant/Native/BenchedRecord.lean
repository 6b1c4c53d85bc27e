import Stoquant.Native.CommandRecord

/-!
# The record of `bench`

Every path of `bench` makes one untimed record, writes it, and repeats the compression.  Where
no file, allocation, clock or CUDA call fails, it ends with the status of making the record of
its input and writes that record, but for the scale of an empty input on the GPU.
-/

namespace Stoquant

open Abort Ieee

/-! ## Runs in which nothing fails -/

/-- The arguments of the calls of `sq_cpu_compress`: the untimed one, then those of the runs. -/
def BenchJob.calls (job : BenchJob) (values : Ptr F32) (threads : ℕ) : ℕ → CpuCompressArgs
  | 0 => job.cpuArgs values job.options.invocationId threads
  | run + 1 => job.cpuArgs values (job.runId run) threads

/-- A run of `bench` with an output path on an accepted command line whose identifiers fit, in
which no file, allocation, clock or CUDA call fails. -/
structure FaultlessBench [Arith Format.binary32] (world : World) (strtof : String → Option F32)
    (arguments : List String) (options : SqOptions) (input : List Byte)
    (words : Option (List Byte)) : Prop where
  accepted : acceptedOptions strtof .bench arguments = .ok options
  range : ∀ row, sqCliLegality options.backend options.boundary = some row →
    sqInvocationRangeValid options.tensorId options.invocationId options.warmups options.reps
      row.idStep = true
  samples : options.reps ≤ sizeMax / sampleSize
  output : options.outputPath.isSome = true
  given : FilesAndMemory world options input words
  clock : world.clockInit = true
  readings : ∀ run reading, (world.clockNow run reading).isSome = true
  onHost : ∀ job, benchJob world strtof arguments = .ok job → job.hostHost = true →
    ∀ x : F32Array, x.values = job.values → x.count = job.count →
      CpuProcess world x (job.calls job.values job.threads) (job.totalRuns + 1)
  staged : ∀ job, benchJob world strtof arguments = .ok job → job.hostHost = false →
    job.options.backend = .cpu →
    world.StagesOnDevice job.values job.count (job.options.transferPolicy = .pinned)
      (job.totalRuns + 1) ∧
    ∀ landed : F32Array, landed.count = job.count →
      (∀ call < job.totalRuns + 1, ∃ d2hMs,
        world.stagingDownload call = .ok (landed.values, d2hMs)) →
      CpuProcess world landed (job.calls landed.values 0) (job.totalRuns + 1)
  onGpu : ∀ job, benchJob world strtof arguments = .ok job → job.options.backend = .cuda →
    world.BenchesOnDevice (makeCudaConfig job.options job.bitWidth job.values job.count
      job.options.seed job.words job.legality.idStep)

/-- The record that `bench` writes for the record of its input. -/
def TensorRecord.asBenched (record : TensorRecord) (backend : Backend) (count : ℕ) :
    TensorRecord :=
  if backend = .cuda ∧ count = 0 then ⟨zeroF, record.codes⟩ else record

theorem gpuOriginRun_isOk {world : World} {job : BenchJob} {run : ℕ}
    {samples : ℕ → BenchSample} :
    (∃ later, gpuOriginRun world job run samples = .ok later) ↔
      (world.clockNow run 0).isSome = true ∧
      (∃ landing d2hMs, world.stagingDownload (run + 1) = .ok (landing, d2hMs) ∧
        (world.clockNow run 1).isSome = true ∧
        ∃ record, world.cpuCompress (run + 1) (job.cpuArgs landing (job.runId run) 0) =
          .ok record) ∧
      (world.clockNow run 2).isSome = true := by
  rw [← readClock_isOk, ← readClock_isOk, ← readClock_isOk]
  constructor
  · intro finished
    obtain ⟨later, laterEq⟩ := finished
    obtain ⟨start, startEq, laterEq⟩ := bind_eq_ok.mp laterEq
    obtain ⟨⟨landing, d2hMs⟩, downloaded, laterEq⟩ := bind_eq_ok.mp laterEq
    obtain ⟨cpuStart, cpuStartEq, laterEq⟩ := bind_eq_ok.mp laterEq
    obtain ⟨record, recordEq, laterEq⟩ := bind_eq_ok.mp laterEq
    obtain ⟨stop, stopEq, laterEq⟩ := bind_eq_ok.mp laterEq
    exact ⟨⟨start, startEq⟩, ⟨landing, d2hMs, downloaded, ⟨cpuStart, cpuStartEq⟩,
      ⟨record, recordEq⟩⟩, ⟨stop, stopEq⟩⟩
  · intro each
    obtain ⟨⟨start, startEq⟩, ⟨landing, d2hMs, downloaded, ⟨cpuStart, cpuStartEq⟩,
      ⟨record, recordEq⟩⟩, ⟨stop, stopEq⟩⟩ := each
    exact ⟨_, bind_eq_ok.mpr ⟨start, startEq, bind_eq_ok.mpr ⟨_, downloaded,
      bind_eq_ok.mpr ⟨cpuStart, cpuStartEq, bind_eq_ok.mpr ⟨record, recordEq,
        bind_eq_ok.mpr ⟨stop, stopEq, rfl⟩⟩⟩⟩⟩⟩

section

variable {strtof : String → Option F32} {arguments : List String} {options : SqOptions}
  {world : World} {input : List Byte} {words : Option (List Byte)}

theorem FaultlessBench.legality_eq [Arith Format.binary32]
    (run : FaultlessBench world strtof arguments options input words) :
    ∃ row ∈ legalityTable, sqCliLegality options.backend options.boundary = some row ∧
      (options.transferPolicy = .none ↔ row.transfers = false) := by
  have checked : checkedOptions strtof .bench true arguments = .ok options := run.accepted
  obtain ⟨settings, -, legal⟩ := legal_of_accepted checked
  exact legal.row rfl

theorem FaultlessBench.reps_fit [Arith Format.binary32]
    (run : FaultlessBench world strtof arguments options input words) :
    1 ≤ options.reps ∧ options.reps ≤ uint64Max := by
  have checked : checkedOptions strtof .bench true arguments = .ok options := run.accepted
  obtain ⟨settings, -, legal⟩ := legal_of_accepted checked
  refine ⟨legal.reps rfl, ?_⟩
  have samples := run.samples
  unfold sizeMax sampleSize at samples
  unfold uint64Max
  omega

theorem FaultlessBench.runIds [Arith Format.binary32]
    (run : FaultlessBench world strtof arguments options input words) {row : SqLegality}
    (found : sqCliLegality options.backend options.boundary = some row) :
    options.IdsFit ∧ ∀ index < options.warmups + options.reps,
      sqRunInvocationId options.invocationId options.warmups options.reps index row.idStep ≤
        uint32Max := by
  have valid := run.range row found
  obtain ⟨-, repsFit⟩ := run.reps_fit
  obtain ⟨-, -, tensorId, base⟩ := (sqInvocationRangeValid_iff repsFit).mp valid
  refine ⟨⟨tensorId, (Nat.le_add_right _ _).trans base⟩, fun index inside => ?_⟩
  obtain ⟨same, narrow⟩ := sqRunInvocationId_eq valid repsFit inside
  rw [same]
  exact narrow

/-! ## The paths -/

/-- What `bench` has before its first compression of an input. -/
def benchJobOf (options : SqOptions) (threads : ℕ) (x : F32Array) (prescribedWords : Ptr Word)
    (legality : SqLegality) : BenchJob :=
  { options, threads, values := x.values, count := x.count, words := prescribedWords, legality }

/-- The outcome of the path of a bench for the record it is to write: the status of making it,
or the record at the output path. -/
structure PathWrites (world : World) (job : BenchJob) (made : Except SqStatus (List Byte)) :
    Prop where
  error : ∀ status, made = .error status →
    exec (benchPath world job) ⟨none, []⟩ = (.error status, ⟨none, []⟩)
  ok : ∀ bytes, made = .ok bytes →
    ∃ results, exec (benchPath world job) ⟨none, []⟩ = (.ok results, ⟨some bytes, []⟩)

/-- A compression for the record that it is to store: the status of making it, or a buffer that
holds the record. -/
structure Stores (job : BenchJob) (answer : Except SqStatus (ℕ → Byte))
    (made : Except SqStatus (List Byte)) : Prop where
  error : ∀ status, made = .error status → answer = .error status
  ok : ∀ bytes, made = .ok bytes →
    ∃ buffer, answer = .ok buffer ∧ recordIn job.bitWidth job.count buffer = bytes

section

variable {job : BenchJob} {made : Except SqStatus (List Byte)} (writes : world.Writes)
  (output : job.options.outputPath.isSome = true)

include writes output

theorem pathWrites_host (host : job.hostHost = true)
    (base : Stores job (world.cpuCompress 0
      (job.cpuArgs job.values job.options.invocationId job.threads)) made)
    (runs : ∀ bytes, made = .ok bytes → TimedRunsSucceed world job) :
    PathWrites world job made := by
  constructor
  · intro status refused
    rw [exec_benchPath_host host]
    unfold benchHost
    rw [base.error status refused]
    rfl
  · intro bytes found
    obtain ⟨buffer, answered, stored⟩ := base.ok bytes found
    obtain ⟨samples, finished⟩ := hostRuns_isOk.mpr (runs bytes found)
    have written := exec_benchHost writes answered ⟨none, []⟩
    rw [finished, if_pos output, stored] at written
    refine ⟨(samples, 0), ?_⟩
    rw [exec_benchPath_host host, exec_bind_ok written]
    rfl

theorem pathWrites_staged (staged : job.hostHost = false) (backend : job.options.backend = .cpu)
    (created : world.stagingCreate job.values job.count (job.options.transferPolicy = .pinned) =
      .ok) {landing : Ptr F32} {d2hMs : ℚ≥0}
    (downloaded : world.stagingDownload 0 = .ok (landing, d2hMs))
    (base : Stores job (world.cpuCompress 0
      (job.cpuArgs landing job.options.invocationId 0)) made)
    (runs : ∀ bytes, made = .ok bytes →
      ∃ samples, gpuOriginRuns world job = .ok samples) :
    PathWrites world job made := by
  have path : benchPath world job = benchCpuGpuOrigin world job >>= fun samples =>
      pure (samples, 0) := by
    rw [benchPath, if_neg (by simp [staged]), if_pos backend]
  have steps : benchCpuGpuOrigin world job = (do
      let record ← lift (world.cpuCompress 0 (job.cpuArgs landing job.options.invocationId 0))
      writeRecord world job record
      onError (lift (gpuOriginRuns world job)) fun effects =>
        if job.options.outputPath.isSome then { effects with output := none } else effects) := by
    unfold benchCpuGpuOrigin
    rw [created, downloaded]
    rfl
  constructor
  · intro status refused
    rw [path, steps, base.error status refused]
    rfl
  · intro bytes found
    obtain ⟨buffer, answered, stored⟩ := base.ok bytes found
    obtain ⟨samples, finished⟩ := runs bytes found
    have written := exec_writeRecord writes job buffer ⟨none, []⟩
    rw [if_pos output, stored] at written
    have whole : exec (benchCpuGpuOrigin world job) ⟨none, []⟩ =
        (.ok samples, ⟨some bytes, []⟩) := by
      rw [steps, answered, lift_ok_bind, exec_bind_ok written]
      apply exec_onError_ok
      rw [finished]
      rfl
    refine ⟨(samples, 0), ?_⟩
    rw [path, exec_bind_ok whole]
    rfl

theorem pathWrites_cuda (backend : job.options.backend = .cuda)
    (refuses : ∀ status, made = .error status →
      world.cudaBench (makeCudaConfig job.options job.bitWidth job.values job.count
        job.options.seed job.words job.legality.idStep) = .error status)
    (answers : ∀ bytes, made = .ok bytes → ∃ bench buffer,
      world.cudaBench (makeCudaConfig job.options job.bitWidth job.values job.count
        job.options.seed job.words job.legality.idStep) = .ok bench ∧
      cudaRecord job.bitWidth job.count bench.basePayload bench.baseScale = .ok buffer ∧
      recordIn job.bitWidth job.count buffer = bytes) :
    PathWrites world job made := by
  have host : job.hostHost = false := by
    unfold BenchJob.hostHost
    simp [backend]
  have path : benchPath world job = benchCuda world job := by
    rw [benchPath, if_neg (by simp [host]), if_neg (by simp [backend])]
  constructor
  · intro status refused
    rw [path]
    unfold benchCuda
    rw [refuses status refused]
    rfl
  · intro bytes found
    obtain ⟨bench, buffer, answered, encoded, stored⟩ := answers bytes found
    have written := exec_writeRecord writes job buffer ⟨none, []⟩
    rw [if_pos output, stored] at written
    refine ⟨(bench.samples, bench.captureMs), ?_⟩
    rw [path]
    unfold benchCuda
    rw [answered, lift_ok_bind, encoded, lift_ok_bind, exec_bind_ok written]
    rfl

end

theorem stores_process [RoundedArith Format.binary32] (job : BenchJob) {y : F32Array}
    {args : ℕ → CpuCompressArgs} {calls : ℕ} (process : CpuProcess world y args calls)
    (start : 0 < calls) {bitWidth : ℕ} (width : (args 0).bitWidth = bitWidth)
    (jobWidth : job.bitWidth = bitWidth) (count : y.count = job.count)
    {made : Except SqStatus TensorRecord}
    (same : tensorRecord (args 0).bitWidth y (args 0).ids (args 0).prescribedScale
      (args 0).prescribedWords = made) :
    Stores job (world.cpuCompress 0 (args 0)) do
      let record ← made
      return recordBytes bitWidth y.count record := by
  cases made with
  | error status =>
      refine ⟨fun other refused => ?_, fun bytes found => ?_⟩
      · rw [← Except.error.inj refused]
        exact process.refusal start same
      · cases found
  | ok record =>
      refine ⟨fun other refused => ?_, fun bytes found => ?_⟩
      · cases refused
      · obtain ⟨buffer, answered, stored⟩ := process.answer start same
        rw [width] at stored
        refine ⟨buffer, answered, ?_⟩
        rw [jobWidth, ← count]
        exact stored.trans (Except.ok.inj found)

theorem gpuOriginRuns_finish {job : BenchJob} (clock : world.clockInit = true)
    (readings : ∀ run reading, (world.clockNow run reading).isSome = true)
    {landing : Ptr F32}
    (downloads : ∀ run < job.totalRuns, ∃ d2hMs,
      world.stagingDownload (run + 1) = .ok (landing, d2hMs))
    (compresses : ∀ run < job.totalRuns, ∃ record,
      world.cpuCompress (run + 1) (job.cpuArgs landing (job.runId run) 0) = .ok record) :
    ∃ samples, gpuOriginRuns world job = .ok samples := by
  have loop := repeatRuns_isOk (gpuOriginRun world job) (fun run samples => gpuOriginRun_isOk)
    job.totalRuns fun _ => emptySample
  obtain ⟨samples, finished⟩ := loop.mpr fun run below => by
    obtain ⟨d2hMs, downloaded⟩ := downloads run below
    exact ⟨readings _ _, ⟨landing, d2hMs, downloaded, readings _ _, compresses run below⟩,
      readings _ _⟩
  refine ⟨samples, bind_eq_ok.mpr ⟨(), ?_, finished⟩⟩
  rw [clock]
  rfl

/-! ## The arguments of `sq_cuda_bench` -/

/-- The rows of the GPU transfer where `sq_cuda_bench` does, and a graph has one identifier. -/
theorem legalityTable_cuda {row : SqLegality} (member : row ∈ legalityTable)
    (cuda : row.backend = .cuda) :
    row.boundary ≠ .hostHost ∧
      (¬ (row.boundary = .hostOrigin ∨ row.boundary = .gpuOrigin) → row.transfers = false) ∧
      (row.boundary = .residentGraph → row.idStep = 0) := by
  revert row
  decide

theorem sqCliLegality_named {backend : Backend} {boundary : SqBoundary} {row : SqLegality}
    (found : sqCliLegality backend boundary = some row) :
    row.backend = backend ∧ row.boundary = boundary := by
  have named := List.find?_some found
  rw [decide_eq_true_eq] at named
  exact named

/-- What `sq_cuda_bench` returns for arguments that pass all its checks but the last. -/
theorem benchArguments_eq {config : CudaConfig} {payload : ℕ → Byte} {scale : F32}
    (width : Supported config.bitWidth)
    (pointers : ¬ ((config.count ≠ 0 ∧ (config.values = none ∨ some payload = none)) ∨
      some scale = none ∨ true = false ∨ config.reps = 0#64 ∨ config.count > sizeMax / 4))
    (variant : config.k1Variant ≠ none)
    (launch : ¬ (validLaunchGeometry config.blockSize config.gridSize = false ∨
      config.boundary = .hostHost ∨ config.transferPolicy = .none ∨
      (¬ (config.boundary = .hostOrigin ∨ config.boundary = .gpuOrigin) ∧
        config.transferPolicy ≠ .pageable) ∨
      (config.boundary = .residentGraph ∧ config.invocationIdStep ≠ 0#64)))
    (proper : ¬ config.prescribedScale.any fun scale => !isfinite scale || scale.lt zeroF)
    (range : invocationRangeValidWord config.ids.tensorId config.ids.invocationId config.warmups
      config.reps config.invocationIdStep = true) :
    benchArguments config (some payload) (some scale) true =
      if config.count = 0 ∧ config.prescribedScale.any (fun scale => !scale.eq zeroF) then
        .errScale
      else .ok := by
  unfold benchArguments
  dsimp only
  rw [if_neg width.ne, if_neg pointers, if_neg variant, if_neg launch, if_neg proper, range,
    if_neg Bool.noConfusion]

/-- The configuration that `bench` passes to `sq_cuda_bench`. -/
def benchConfig (options : SqOptions) (x : F32Array) (prescribedWords : Ptr Word)
    (legality : SqLegality) : SqCudaConfig :=
  makeCudaConfig options options.bits x.values x.count options.seed prescribedWords
    legality.idStep

section

variable [RoundedArith Format.binary32] {legality : SqLegality}
  (run : FaultlessBench world strtof arguments options input words)
  (row : sqCliLegality options.backend options.boundary = some legality)
  (x : F32Array) (prescribedWords : Ptr Word)

include run

theorem FaultlessBench.proper :
    ¬ (benchConfig options x prescribedWords legality).toCuda.prescribedScale.any
      fun scale => !isfinite scale || scale.lt zeroF := by
  rw [Bool.not_eq_true, Option.any_eq_false]
  intro scale prescribed
  obtain ⟨finite, nonneg⟩ := prescribedScale_valid run.accepted scale prescribed
  simp [finite, nonneg]

theorem FaultlessBench.pointers (payload : ℕ → Byte) (scale : F32) :
    let config := (benchConfig options x prescribedWords legality).toCuda
    ¬ ((config.count ≠ 0 ∧ (config.values = none ∨ some payload = none)) ∨
      some scale = none ∨ true = false ∨ config.reps = 0#64 ∨ config.count > sizeMax / 4) := by
  obtain ⟨positive, fits⟩ := run.reps_fit
  have xFits := x.fits
  intro config rejected
  rcases rejected with ⟨nonempty, absent | absent⟩ | absent | absent | none | large
  · have present := x.present nonempty
    rw [show x.values = none from absent] at present
    cases present
  · cases absent
  · cases absent
  · cases absent
  · have zero : (BitVec.ofNat 64 options.reps).toNat = 0 := congrArg BitVec.toNat none
    unfold uint64Max at fits
    rw [BitVec.toNat_ofNat, Nat.mod_eq_of_lt (by omega)] at zero
    omega
  · exact absurd large (not_lt.mpr xFits)

include row

theorem FaultlessBench.rangeWord :
    let config := (benchConfig options x prescribedWords legality).toCuda
    invocationRangeValidWord config.ids.tensorId config.ids.invocationId config.warmups
      config.reps config.invocationIdStep = true := by
  obtain ⟨-, fits⟩ := run.reps_fit
  obtain ⟨ids, -⟩ := run.runIds row
  obtain ⟨found, member, foundEq, -⟩ := run.legality_eq
  obtain rfl := Option.some.inj (foundEq.symm.trans row)
  have range := run.range _ row
  obtain ⟨-, total, -, -⟩ := (sqInvocationRangeValid_iff fits).mp range
  have tensorId := ids.tensorId
  have invocationId := ids.invocationId
  have step : found.idStep ≤ 1 := (by decide : ∀ row ∈ legalityTable, row.idStep ≤ 1) found member
  unfold uint32Max at tensorId invocationId
  unfold uint64Max at fits total
  dsimp only
  rw [invocationRangeValidWord_eq]
  show sqInvocationRangeValid (BitVec.ofNat 64 options.tensorId).toNat
    (BitVec.ofNat 64 options.invocationId).toNat (BitVec.ofNat 64 options.warmups).toNat
    (BitVec.ofNat 64 options.reps).toNat (BitVec.ofNat 64 found.idStep).toNat = true
  simp only [BitVec.toNat_ofNat]
  rw [Nat.mod_eq_of_lt (by omega), Nat.mod_eq_of_lt (by omega), Nat.mod_eq_of_lt (by omega),
    Nat.mod_eq_of_lt (by omega), Nat.mod_eq_of_lt (by omega)]
  exact range

theorem FaultlessBench.launch (cuda : options.backend = .cuda) :
    let config := (benchConfig options x prescribedWords legality).toCuda
    ¬ (validLaunchGeometry config.blockSize config.gridSize = false ∨
      config.boundary = .hostHost ∨ config.transferPolicy = .none ∨
      (¬ (config.boundary = .hostOrigin ∨ config.boundary = .gpuOrigin) ∧
        config.transferPolicy ≠ .pageable) ∨
      (config.boundary = .residentGraph ∧ config.invocationIdStep ≠ 0#64)) := by
  obtain ⟨ids, -⟩ := run.runIds row
  have fits := makeCudaConfig_fits run.accepted ids x prescribedWords legality.idStep
  obtain ⟨found, member, foundEq, policy⟩ := run.legality_eq
  obtain rfl := Option.some.inj (foundEq.symm.trans row)
  obtain ⟨backend, boundary⟩ := sqCliLegality_named row
  obtain ⟨notHost, transfers, graph⟩ := legalityTable_cuda member (backend.trans cuda)
  rw [boundary] at notHost transfers graph
  intro config rejected
  rcases rejected with geometry | host | none | ⟨resident, pinned⟩ | ⟨captured, steps⟩
  · cases fits.geometry.symm.trans geometry
  · exact notHost host
  · revert none
    show ¬ (if decide (options.transferPolicy = .pinned) = true then SqTransferPolicy.pinned
      else .pageable) = .none
    split
    · exact SqTransferPolicy.noConfusion
    · exact SqTransferPolicy.noConfusion
  · apply pinned
    have unused := policy.mpr (transfers resident)
    show (if decide (options.transferPolicy = .pinned) = true then SqTransferPolicy.pinned
      else .pageable) = .pageable
    rw [unused]
    rfl
  · apply steps
    show BitVec.ofNat 64 found.idStep = 0#64
    rw [graph captured]

/-- `sq_cuda_bench` accepts the arguments of the command, but for a nonzero scale of an empty
input, which has no record. -/
theorem FaultlessBench.accepts (cuda : options.backend = .cuda) (payload : ℕ → Byte)
    (scale : F32) :
    let config := benchConfig options x prescribedWords legality
    benchArguments config.toCuda (some payload) (some scale) true = .ok ∨
      config.made x =
        .error (benchArguments config.toCuda (some payload) (some scale) true) := by
  obtain ⟨ids, -⟩ := run.runIds row
  obtain ⟨supported, -⟩ := acceptedOptions_bits run.accepted
  have fits := makeCudaConfig_fits run.accepted ids x prescribedWords legality.idStep
  have arguments := benchArguments_eq supported (run.pointers x prescribedWords payload scale)
    (Option.some_ne_none _) (run.launch row x prescribedWords cuda)
    (run.proper x prescribedWords) (run.rangeWord row x prescribedWords)
  dsimp only
  rw [arguments]
  by_cases refused : (benchConfig options x prescribedWords legality).toCuda.count = 0 ∧
      (benchConfig options x prescribedWords legality).toCuda.prescribedScale.any
        (fun scale => !scale.eq zeroF)
  · rw [if_pos refused]
    -- the one fault that the command line lets through; there is no record then
    obtain ⟨stream, drawn⟩ : ∃ stream, sqRngStreamInit (BitVec.ofNat 64 options.seed)
        (BitVec.ofNat 64 options.tensorId) (BitVec.ofNat 64 options.invocationId) =
        some stream := by
      obtain ⟨tensorId, invocationId⟩ := fits.ids
      exact ⟨_, if_neg (not_or.mpr ⟨not_lt.mpr tensorId, not_lt.mpr invocationId⟩)⟩
    have none := @record_empty _ (benchConfig options x prescribedWords legality).toCuda x stream
      supported drawn (run.proper x prescribedWords) refused.1
    rw [if_pos refused.2] at none
    exact .inr none
  · rw [if_neg refused]
    exact .inl rfl

include run row

theorem FaultlessBench.calls_made {y : F32Array} {record : TensorRecord}
    (made : options.made y prescribedWords = .ok record) (threads : ℕ) (values : Ptr F32)
    (team : ℕ) {call : ℕ} (below : call < options.warmups + options.reps + 1) :
    let args := (benchJobOf options threads x prescribedWords legality).calls values team call
    ∃ other, tensorRecord args.bitWidth y args.ids args.prescribedScale args.prescribedWords =
      .ok other := by
  obtain ⟨ids, narrow⟩ := run.runIds row
  cases call with
  | zero => exact ⟨record, (cpuArgs_made run.accepted y _ _ _ _ _).trans made⟩
  | succ index =>
      have fits := narrow index (Nat.lt_of_succ_lt_succ below)
      obtain ⟨other, found⟩ := @tensorRecord_otherIds _ _ _ _ _ _ _ made
        ⟨BitVec.ofNat 64 options.seed, BitVec.ofNat 64 options.tensorId,
          BitVec.ofNat 64 (sqRunInvocationId options.invocationId options.warmups options.reps
            index legality.idStep)⟩
        ((Nat.mod_le _ _).trans ids.tensorId) ((Nat.mod_le _ _).trans fits)
      exact ⟨other, (cpuArgs_made run.accepted y _ _ _ _ _).trans found⟩

theorem FaultlessBench.pathWrites_onGpu {threads : ℕ}
    (loaded : benchJob world strtof arguments =
      .ok (benchJobOf options threads x prescribedWords legality))
    (cuda : options.backend = .cuda) :
    PathWrites world (benchJobOf options threads x prescribedWords legality) do
      let record ← options.made x prescribedWords
      return recordBytes options.bits x.count (record.asBenched options.backend x.count) := by
  obtain ⟨supported, bits⟩ := acceptedOptions_bits run.accepted
  obtain ⟨ids, -⟩ := run.runIds row
  have passed : makeCudaConfig options (options.bits % 2 ^ 8) x.values x.count options.seed
      prescribedWords legality.idStep = benchConfig options x prescribedWords legality := by
    rw [bits]
    rfl
  have onGpu : world.BenchesOnDevice (benchConfig options x prescribedWords legality) :=
    passed ▸ run.onGpu _ loaded cuda
  obtain ⟨refusal, answer⟩ := onGpu.answer
    (makeCudaConfig_fits run.accepted ids x prescribedWords legality.idStep)
    (run.accepts row x prescribedWords cuda)
  refine pathWrites_cuda run.given.writes run.output cuda (fun status refused => ?_)
    fun bytes found => ?_
  · refine (congrArg world.cudaBench passed).trans (refusal status ?_)
    cases made : options.made x prescribedWords with
    | error other =>
        rw [made] at refused
        obtain rfl := Except.error.inj refused
        exact made
    | ok record =>
        rw [made] at refused
        cases refused
  · obtain ⟨record, made, bytesEq⟩ := bind_eq_ok.mp found
    obtain ⟨payload, samples, captureMs, answered⟩ := answer record made
    obtain ⟨finite, nonneg, empty⟩ := tensorRecord_scale made
    have benched : record.asBenched options.backend x.count =
        ⟨if x.count = 0 then zeroF else record.scale, record.codes⟩ := by
      unfold TensorRecord.asBenched
      by_cases none : x.count = 0
      · rw [if_pos ⟨cuda, none⟩, if_pos none]
      · rw [if_neg fun both => none both.2, if_neg none]
    have proper : isfinite (if x.count = 0 then zeroF else record.scale) = true ∧
        (if x.count = 0 then zeroF else record.scale).lt zeroF = false ∧
        (x.count = 0 → (if x.count = 0 then zeroF else record.scale).eq zeroF = true) := by
      by_cases none : x.count = 0
      · rw [if_pos none]
        exact ⟨by decide, by decide, fun _ => by decide⟩
      · rw [if_neg none]
        exact ⟨finite, nonneg, fun empty => absurd empty none⟩
    obtain ⟨buffer, encoded, stored⟩ := cudaRecord_packCodes supported proper.1 proper.2.1
      proper.2.2 record.codes payload
    refine ⟨_, buffer, (congrArg world.cudaBench passed).trans answered, ?_, ?_⟩
    · show cudaRecord (options.bits % 2 ^ 8) x.count _ _ = .ok buffer
      rw [bits]
      exact encoded
    · show recordIn (options.bits % 2 ^ 8) x.count buffer = bytes
      rw [bits, stored, ← benched]
      exact Except.ok.inj bytesEq

/-- Every path of `bench` writes the record of its input. -/
theorem FaultlessBench.pathWrites {threads : ℕ}
    (loaded : benchJob world strtof arguments =
      .ok (benchJobOf options threads x prescribedWords legality)) :
    PathWrites world (benchJobOf options threads x prescribedWords legality) do
      let record ← options.made x prescribedWords
      return recordBytes options.bits x.count (record.asBenched options.backend x.count) := by
  obtain ⟨-, bits⟩ := acceptedOptions_bits run.accepted
  by_cases cuda : options.backend = .cuda
  · exact run.pathWrites_onGpu row x prescribedWords loaded cuda
  have asRecord : ∀ record : TensorRecord, record.asBenched options.backend x.count = record :=
    fun record => if_neg fun both => cuda both.1
  simp only [asRecord]
  have start : 0 < (benchJobOf options threads x prescribedWords legality).totalRuns + 1 :=
    Nat.succ_pos _
  cases host : (benchJobOf options threads x prescribedWords legality).hostHost with
  | true =>
      have process := run.onHost _ loaded host x rfl rfl
      have stores := stores_process (benchJobOf options threads x prescribedWords legality)
        process start bits bits rfl (cpuArgs_made run.accepted x _ _ _ _ _)
      refine pathWrites_host run.given.writes run.output host stores fun bytes found => ?_
      obtain ⟨record, made, -⟩ := bind_eq_ok.mp found
      refine ⟨run.clock, fun index below => ⟨run.readings _ _, ?_, run.readings _ _⟩⟩
      obtain ⟨other, remade⟩ := run.calls_made row x prescribedWords made threads x.values threads
        (Nat.succ_lt_succ below)
      obtain ⟨later, answered, -⟩ := process.answer (Nat.succ_lt_succ below) remade
      exact ⟨later, answered⟩
  | false =>
      have cpu : options.backend = .cpu := by
        by_contra other
        have both : (benchJobOf options threads x prescribedWords legality).hostHost = true :=
          decide_eq_true ⟨cuda, fun gpuOrigin => other gpuOrigin.1⟩
        cases both.symm.trans host
      obtain ⟨stages, processes⟩ := run.staged _ loaded host cpu
      obtain ⟨created, landed, count, same, downloads⟩ := stages.lands rfl rfl
      have process := processes landed count downloads
      -- the landed array holds the same elements at another place
      have remade : (do
          let record ← options.made landed prescribedWords
          return recordBytes options.bits landed.count record) = do
          let record ← options.made x prescribedWords
          return recordBytes options.bits x.count record :=
        tensorRecord_sameElements count same
      obtain ⟨d2hMs, downloaded⟩ := downloads 0 start
      have stores := stores_process (benchJobOf options threads x prescribedWords legality)
        process start bits bits count (cpuArgs_made run.accepted landed _ _ _ _ _)
      rw [← remade]
      refine pathWrites_staged run.given.writes run.output host cpu created downloaded stores
        fun bytes found => ?_
      obtain ⟨record, made, -⟩ := bind_eq_ok.mp found
      refine gpuOriginRuns_finish run.clock run.readings
        (fun index below => downloads (index + 1) (Nat.succ_lt_succ below)) fun index below => ?_
      obtain ⟨other, called⟩ := run.calls_made row x prescribedWords made threads landed.values 0
        (Nat.succ_lt_succ below)
      obtain ⟨later, answered, -⟩ := process.answer (Nat.succ_lt_succ below) called
      exact ⟨later, answered⟩

end

theorem sqValidateInput_array (x : F32Array) :
    sqValidateInput x.values x.count =
      if allFinite x.get x.count then .ok else .errNonfinite := by
  cases values : x.values with
  | none =>
      have empty : x.count = 0 := by
        by_contra nonempty
        have present := x.present nonempty
        rw [values] at present
        cases present
      rw [empty]
      rfl
  | some array =>
      unfold F32Array.get
      rw [values]
      rfl

theorem exec_benchFile {job : BenchJob} (loaded : benchJob world strtof arguments = .ok job)
    (reserved : HostReserved world job) (effects : Effects) :
    exec (benchFile world strtof arguments) effects =
      exec (benchPath world job >>= fun results =>
        printObject (sqBenchPrintJson (job.report world results.1 results.2))) effects := by
  unfold benchFile
  rw [loaded, lift_ok_bind]
  by_cases cuda : job.options.backend = .cuda
  · simp only [ne_eq, cuda, not_true_eq_false, if_false]
  · simp only [ne_eq, cuda, not_false_eq_true, if_true, reserved cuda, checked]
    rw [lift_ok_bind]

/-- The record that `bench` writes, or the status it ends with. -/
def benchedRecord [Arith Format.binary32] (world : World) (options : SqOptions)
    (input : List Byte) (words : Option (List Byte)) : Except SqStatus (List Byte) := do
  let _ ← world.threads options
  let (x, words) ← loadedInput input words
  let record ← options.made x words
  return recordBytes options.bits x.count (record.asBenched options.backend x.count)

theorem FaultlessBench.outcome_loaded [RoundedArith Format.binary32]
    (run : FaultlessBench world strtof arguments options input words) {legality : SqLegality}
    (row : sqCliLegality options.backend options.boundary = some legality) {threads : ℕ}
    (resolved : world.threads options = .ok threads) {x : F32Array} {prescribedWords : Ptr Word}
    (count : x.count = input.length / 4)
    (job : benchJob world strtof arguments = do
      checked (sqValidateInput x.values x.count)
      return benchJobOf options threads x prescribedWords legality) :
    let made := do
      let record ← options.made x prescribedWords
      return recordBytes options.bits x.count (record.asBenched options.backend x.count)
    (∀ status, made = .error status →
      (exec (benchFile world strtof arguments) ⟨none, []⟩).1 = .error status) ∧
    ∀ bytes, made = .ok bytes → ∃ printed,
      exec (benchFile world strtof arguments) ⟨none, []⟩ = (.ok (), ⟨some bytes, printed⟩) := by
  obtain ⟨ids, -⟩ := run.runIds row
  obtain ⟨supported, -⟩ := acceptedOptions_bits run.accepted
  obtain ⟨tensorId, invocationId⟩ := ids.streamIds options.seed
  dsimp only
  cases finite : allFinite x.get x.count with
  | false =>
      rw [sqValidateInput_array, finite] at job
      have unmade : options.made x prescribedWords = .error .errNonfinite :=
        tensorRecord_nonfinite supported tensorId invocationId
          (prescribedScale_valid run.accepted) finite
      rw [unmade]
      refine ⟨fun status refused => ?_, fun bytes found => ?_⟩
      · rw [← Except.error.inj refused]
        unfold benchFile
        rw [show benchJob world strtof arguments = .error .errNonfinite from job]
        rfl
      · cases found
  | true =>
      rw [sqValidateInput_array, finite] at job
      have loaded : benchJob world strtof arguments =
          .ok (benchJobOf options threads x prescribedWords legality) := job
      have reserved : HostReserved world
          (benchJobOf options threads x prescribedWords legality) := by
        intro notCuda
        show world.reserve options.backend threads x.count = .ok
        rw [count]
        exact run.given.reserves threads resolved
      have writes := run.pathWrites row x prescribedWords loaded
      rw [exec_benchFile loaded reserved]
      refine ⟨fun status refused => ?_, fun bytes found => ?_⟩
      · rw [exec_bind_error (writes.error status refused)]
      · obtain ⟨results, path⟩ := writes.ok bytes found
        rw [exec_bind_ok path]
        exact ⟨_, rfl⟩

/-- `bench` ends with the status of making the record, and writes the record. -/
theorem FaultlessBench.outcome [RoundedArith Format.binary32]
    (run : FaultlessBench world strtof arguments options input words) :
    (∀ status, benchedRecord world options input words = .error status →
      (exec (benchFile world strtof arguments) ⟨none, []⟩).1 = .error status) ∧
    ∀ bytes, benchedRecord world options input words = .ok bytes →
      ∃ printed, exec (benchFile world strtof arguments) ⟨none, []⟩ =
        (.ok (), ⟨some bytes, printed⟩) := by
  obtain ⟨row, -, rowEq, -⟩ := run.legality_eq
  have job := run.given.benchJob_eq run.accepted rowEq (run.range _ rowEq) run.samples
  have stops : ∀ status, benchJob world strtof arguments = .error status →
      (exec (benchFile world strtof arguments) ⟨none, []⟩).1 = .error status := by
    intro status stopped
    unfold benchFile
    rw [stopped]
    rfl
  unfold benchedRecord
  cases resolved : world.threads options with
  | error status =>
      rw [resolved] at job
      refine ⟨fun other refused => ?_, fun bytes found => ?_⟩
      · rw [← Except.error.inj refused]
        exact stops status job
      · cases found
  | ok threads =>
      cases loaded : loadedInput input words with
      | error status =>
          rw [resolved, loaded] at job
          refine ⟨fun other refused => ?_, fun bytes found => ?_⟩
          · rw [← Except.error.inj refused]
            exact stops status job
          · cases found
      | ok both =>
          obtain ⟨x, prescribedWords⟩ := both
          rw [resolved, loaded] at job
          exact run.outcome_loaded rowEq resolved (loadedInput_count loaded) job

end

end Stoquant

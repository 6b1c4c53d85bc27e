import Stoquant.Backends
import Stoquant.Effect.Abort
import Stoquant.Ieee.Convert
import Stoquant.Native.BenchReport

/-!
# The commands and their files

`main.c` of the CUDA build: what each command reads, computes, writes and prints.
The calls that the commands make are given by a world, so that every outcome of
a read, an allocation, a compression, a clock or a CUDA call is covered.
-/

namespace Stoquant

open Ieee Abort

/-- What a process prints on stdout: its usage text or a JSON object. -/
inductive Printed where
  | usage
  | object (fields : List (String × Json))

/-- What a run has left behind: the file at the output path, if this run wrote
one, and what it printed on stdout. -/
structure Effects where
  output : Option (List Byte)
  stdout : List Printed

/-- A step of a command. -/
abbrev Command := Run Effects SqStatus

/-- The buffers that a command allocates. -/
inductive Buffer where
  | values
  | words
  | record
  | samples
  | sums
  | squares
  | scalePartials
  | output
  deriving DecidableEq, Repr

/-- The arguments of `sq_cpu_compress` apart from its buffers. -/
structure CpuCompressArgs where
  backend : Backend
  bitWidth : ℕ
  values : Ptr F32
  count : ℕ
  seed : ℕ
  tensorId : ℕ
  invocationId : ℕ
  prescribedScale : Option F32
  prescribedWords : Ptr Word
  threads : ℕ

/-- `sq_cuda_config`. -/
structure SqCudaConfig where
  bitWidth : ℕ
  values : Ptr F32
  count : ℕ
  seed : ℕ
  tensorId : ℕ
  invocationId : ℕ
  prescribedScale : Option F32
  prescribedWords : Ptr Word
  blockSize : ℕ
  gridSize : ℕ
  k1Variant : K1Variant
  boundary : SqBoundary
  pinned : Bool
  warmups : ℕ
  reps : ℕ
  invocationIdStep : ℕ

/-- What `sq_cuda_bench` returns with `SQ_OK`. -/
structure CudaBenchOutput where
  basePayload : ℕ → Byte
  baseScale : F32
  samples : ℕ → BenchSample
  captureMs : ℚ≥0

/-- The outcome of every call of a run.  The first argument of a call made more
than once counts those calls. -/
structure World where
  avx2Supported : Bool
  defaultThreadCount : ℕ
  teamSize : ℕ → ℕ
  readInput : String → Option (List Byte)
  readWords : String → Option (List Byte)
  allocates : Buffer → ℕ → Bool
  reserve : Backend → ℕ → ℕ → SqStatus
  cpuCompress : ℕ → CpuCompressArgs → Except SqStatus (ℕ → Byte)
  cudaCompress : ℕ → SqCudaConfig → Except SqStatus ((ℕ → Byte) × F32)
  cudaBench : SqCudaConfig → Except SqStatus CudaBenchOutput
  stagingCreate : Ptr F32 → ℕ → Bool → SqStatus
  stagingDownload : ℕ → Except SqStatus (Ptr F32 × ℚ≥0)
  decodeMalloc : ℕ → ℕ → Bool
  clockInit : Bool
  /-- The reading of the clock in a run: at its start, between, at its end. -/
  clockNow : ℕ → ℕ → Option ℚ
  /-- Whether a write succeeds, and what a failed one leaves. -/
  writeFile : List Byte → Bool × Option (List Byte)

/-- Stop with a status unless it is `SQ_OK`. -/
def checked (status : SqStatus) : Except SqStatus Unit :=
  if status = .ok then .ok () else .error status

/-- Stop with a status where a condition holds. -/
def failWhen (condition : Bool) (status : SqStatus) : Except SqStatus Unit :=
  if condition then .error status else .ok ()

/-- `sq_load_u32_array_le`. -/
def sqLoadU32ArrayLe (bytes : List Byte) (i : ℕ) : Word :=
  (sqLoadU32Le bytes (4 * i)).getD 0

/-- `sq_load_f32_array_le`. -/
def sqLoadF32ArrayLe (bytes : List Byte) (i : ℕ) : F32 :=
  ofF32Bits (sqLoadU32ArrayLe bytes i)

/-- An array of a length that is null when it is empty. -/
def arrayOf {α : Type} (count : ℕ) (values : ℕ → α) : Ptr α :=
  if count = 0 then none else some values

section

variable (world : World)

/-- `sq_write_file` on the output path. -/
def sqWriteFile (bytes : List Byte) : Command Unit := do
  let (ok, left) := world.writeFile bytes
  change fun effects => { effects with output := if ok then some bytes else left }
  lift (failWhen (!ok) .errIo)

/-- `printf` of one JSON object. -/
def printObject (fields : List (String × Json)) : Command Unit :=
  change fun effects => { effects with stdout := effects.stdout ++ [.object fields] }

/-- `resolve_cpu_threads` on this host. -/
def World.threads (options : SqOptions) : Except SqStatus ℕ :=
  resolveCpuThreads world.avx2Supported world.defaultThreadCount options

/-- The values of an input file, after the checks on its size. -/
def loadValues (path : String) : Except SqStatus (List Byte × ℕ) :=
  match world.readInput path with
  | none => .error .errIo
  | some bytes => do
      failWhen (bytes.length % 4 ≠ 0) .errPayloadLength
      let count := bytes.length / 4
      failWhen (count > sizeMax / 4 ∨ count > sizeMax - sqHeaderSize) .errCount
      return (bytes, count)

/-- The bytes of a word file, after the checks on its size. -/
def loadWordBytes (path : String) (count : ℕ) : Except SqStatus (List Byte) :=
  match world.readWords path with
  | none => .error .errIo
  | some bytes =>
      if count > sizeMax / 4 ∨ bytes.length ≠ count * 4 then .error .errPayloadLength
      else .ok bytes

/-! ## `compress` -/

/-- `make_cuda_config`. -/
def makeCudaConfig (options : SqOptions) (bitWidth : ℕ) (values : Ptr F32) (count seed : ℕ)
    (prescribedWords : Ptr Word) (invocationIdStep : ℕ) : SqCudaConfig where
  bitWidth := bitWidth
  values := values
  count := count
  seed := seed
  tensorId := options.tensorId
  invocationId := options.invocationId
  prescribedScale := if options.seen.scale then some options.scale else none
  prescribedWords := prescribedWords
  blockSize := options.blockSize
  gridSize := options.gridSize
  k1Variant := options.k1
  boundary := options.boundary
  pinned := options.transferPolicy = .pinned
  warmups := options.warmups
  reps := options.reps
  invocationIdStep := invocationIdStep

/-- The arguments of `sq_cpu_compress` that the options give. -/
def cpuArgs (options : SqOptions) (values : Ptr F32) (count invocationId : ℕ)
    (prescribedWords : Ptr Word) (threads : ℕ) : CpuCompressArgs where
  backend := options.backend
  bitWidth := options.bits % 2 ^ 8
  values := values
  count := count
  seed := options.seed
  tensorId := options.tensorId
  invocationId := invocationId
  prescribedScale := if options.seen.scale then some options.scale else none
  prescribedWords := prescribedWords
  threads := threads

/-- What a command has before it compresses. -/
structure Job where
  options : SqOptions
  threads : ℕ
  values : Ptr F32
  count : ℕ
  words : Ptr Word

/-- The record of a CUDA compression: the header over the payload. -/
def cudaRecord (bitWidth count : ℕ) (payload : ℕ → Byte) (scale : F32) :
    Except SqStatus (ℕ → Byte) :=
  match sqHeaderEncode bitWidth count scale (some (withPayload (fun _ => 0#8) payload)) with
  | (.ok, some record) => .ok record
  | (status, _) => .error status

/-- `compress_file` up to the compression. -/
def compressJob (strtof : String → Option F32) (arguments : List String) :
    Except SqStatus Job := do
  let options ← sqCliParse strtof .compress arguments
  let options ← sqCliValidate .compress options true
  let threads ← world.threads options
  failWhen (!sqInvocationRangeValid options.tensorId options.invocationId 0 1 0) .errIdOverflow
  let (bytes, count) ← loadValues world (options.inputPath.getD "")
  failWhen (count ≠ 0 ∧ world.allocates .values (count * 4) = false) .errMemory
  let values := arrayOf count (sqLoadF32ArrayLe bytes)
  match options.wordsPath with
  | none => return ⟨options, threads, values, count, none⟩
  | some path =>
      let wordBytes ← loadWordBytes world path count
      failWhen (count ≠ 0 ∧ world.allocates .words (count * 4) = false) .errMemory
      return ⟨options, threads, values, count, arrayOf count (sqLoadU32ArrayLe wordBytes)⟩

/-- `compress_file` from the allocation of the record to its write. -/
def compressRecord (job : Job) : Except SqStatus (List Byte) := do
  let bitWidth := job.options.bits % 2 ^ 8
  let recordSize := sqHeaderSize + sqPayloadSize bitWidth job.count
  failWhen (!world.allocates .record recordSize) .errMemory
  if job.options.backend = .cuda then
    let (payload, scale) ← world.cudaCompress 0
      (makeCudaConfig job.options bitWidth job.values job.count job.options.seed job.words 1)
    let record ← cudaRecord bitWidth job.count payload scale
    return recordIn bitWidth job.count record
  else
    checked (world.reserve job.options.backend job.threads job.count)
    let record ← world.cpuCompress 0
      (cpuArgs job.options job.values job.count job.options.invocationId job.words job.threads)
    return recordIn bitWidth job.count record

/-- `compress_file`. -/
def compressFile (strtof : String → Option F32) (arguments : List String) : Command Unit := do
  let job ← lift (compressJob world strtof arguments)
  let record ← lift (compressRecord world job)
  sqWriteFile world record

/-! ## `bench` -/

/-- The entry of the zeroed sample array that `calloc` returns. -/
def emptySample : BenchSample := ⟨0, 0, 0, 0, 0, 0, 0⟩

/-- What `bench_file` has before its first compression. -/
structure BenchJob extends Job where
  legality : SqLegality

/-- `sizeof(sq_bench_sample)`. -/
def sampleSize : ℕ := 56

/-- `bench_file` up to its workspace. -/
def benchJob (strtof : String → Option F32) (arguments : List String) :
    Except SqStatus BenchJob := do
  let options ← sqCliParse strtof .bench arguments
  let options ← sqCliValidate .bench options true
  match sqCliLegality options.backend options.boundary with
  | none => throw .errArgument
  | some legality =>
      let threads ← world.threads options
      failWhen (!sqInvocationRangeValid options.tensorId options.invocationId options.warmups
        options.reps legality.idStep) .errIdOverflow
      failWhen (options.reps > sizeMax / sampleSize) .errMemory
      let (bytes, count) ← loadValues world (options.inputPath.getD "")
      let payloadBytes := sqPayloadSize (options.bits % 2 ^ 8) count
      failWhen (payloadBytes > sizeMax - sqHeaderSize) .errCount
      failWhen ((count ≠ 0 ∧ (world.allocates .values (count * 4) = false ∨
          world.allocates .words (count * 4) = false)) ∨
        world.allocates .record (sqHeaderSize + payloadBytes) = false ∨
        world.allocates .samples (options.reps * sampleSize) = false) .errMemory
      let values := arrayOf count (sqLoadF32ArrayLe bytes)
      let words ← (match options.wordsPath with
        | none => pure none
        | some path => do
            let wordBytes ← loadWordBytes world path count
            return arrayOf count (sqLoadU32ArrayLe wordBytes) : Except SqStatus (Ptr Word))
      checked (sqValidateInput values count)
      failWhen (options.seen.scale ∧ (isfinite options.scale = false ∨
        options.scale.lt zeroF = true)) .errScale
      return { options, threads, values, count, words, legality }

/-- Whether a bench compresses on the CPU from host memory. -/
def BenchJob.hostHost (job : BenchJob) : Bool :=
  job.options.backend ≠ .cuda ∧
    ¬ (job.options.backend = .cpu ∧ job.options.boundary = .gpuOrigin)

def BenchJob.bitWidth (job : BenchJob) : ℕ := job.options.bits % 2 ^ 8

/-- The identifier of a run. -/
def BenchJob.runId (job : BenchJob) (run : ℕ) : ℕ :=
  sqRunInvocationId job.options.invocationId job.options.warmups job.options.reps run
    job.legality.idStep

/-- `total_runs`. -/
def BenchJob.totalRuns (job : BenchJob) : ℕ := job.options.warmups + job.options.reps

/-- The arguments of a compression of a run; the untimed one has the base
identifier. -/
def BenchJob.cpuArgs (job : BenchJob) (values : Ptr F32) (invocationId threads : ℕ) :
    CpuCompressArgs :=
  Stoquant.cpuArgs job.options values job.count invocationId job.words threads

/-- A reading of the clock. -/
def readClock (run reading : ℕ) : Except SqStatus ℚ :=
  match world.clockNow run reading with
  | none => .error .errClock
  | some milliseconds => .ok milliseconds

/-- The runs below a number, in order, over the samples they fill. -/
def repeatRuns (step : ℕ → (ℕ → BenchSample) → Except SqStatus (ℕ → BenchSample)) :
    ℕ → (ℕ → BenchSample) → Except SqStatus (ℕ → BenchSample)
  | 0, samples => .ok samples
  | run + 1, samples => do
      let samples ← repeatRuns step run samples
      step run samples

/-- The sample of a run, kept if the run is measured. -/
def keepSample (job : BenchJob) (run : ℕ) (sample : BenchSample)
    (samples : ℕ → BenchSample) : ℕ → BenchSample :=
  if job.options.warmups ≤ run then
    Function.update samples (run - job.options.warmups) sample
  else samples

/-- A timed run of the host path. -/
def hostRun (job : BenchJob) (run : ℕ) (samples : ℕ → BenchSample) :
    Except SqStatus (ℕ → BenchSample) := do
  let start ← readClock world run 0
  let _ ← world.cpuCompress (run + 1) (job.cpuArgs job.values (job.runId run) job.threads)
  let stop ← readClock world run 2
  return keepSample job run { emptySample with wallMs := (stop - start).toNNRat } samples

/-- The clock and the timed runs of the host path. -/
def hostRuns (job : BenchJob) : Except SqStatus (ℕ → BenchSample) := do
  failWhen (!world.clockInit) .errClock
  repeatRuns (hostRun world job) job.totalRuns fun _ => emptySample

/-- A timed run of the GPU-origin CPU path. -/
def gpuOriginRun (job : BenchJob) (run : ℕ) (samples : ℕ → BenchSample) :
    Except SqStatus (ℕ → BenchSample) := do
  let start ← readClock world run 0
  let (landing, d2h) ← world.stagingDownload (run + 1)
  let cpuStart ← readClock world run 1
  let _ ← world.cpuCompress (run + 1) (job.cpuArgs landing (job.runId run) 0)
  let stop ← readClock world run 2
  return keepSample job run { emptySample with
    wallMs := (stop - start).toNNRat
    d2hMs := d2h
    cpuMs := (stop - cpuStart).toNNRat } samples

/-- The clock and the timed runs of the GPU-origin CPU path. -/
def gpuOriginRuns (job : BenchJob) : Except SqStatus (ℕ → BenchSample) := do
  failWhen (!world.clockInit) .errClock
  repeatRuns (gpuOriginRun world job) job.totalRuns fun _ => emptySample

/-- The record of the untimed run at the output path, if one is given. -/
def writeRecord (job : BenchJob) (record : ℕ → Byte) : Command Unit :=
  match job.options.outputPath with
  | none => pure ()
  | some _ => sqWriteFile world (recordIn job.bitWidth job.count record)

/-- `bench_cpu_gpu_origin`: a failure after the record is written removes it. -/
def benchCpuGpuOrigin (job : BenchJob) : Command (ℕ → BenchSample) := do
  lift (checked (world.stagingCreate job.values job.count
    (job.options.transferPolicy = .pinned)))
  let (landing, _) ← lift (world.stagingDownload 0)
  let record ← lift (world.cpuCompress 0 (job.cpuArgs landing job.options.invocationId 0))
  writeRecord world job record
  onError (lift (gpuOriginRuns world job)) fun effects =>
    if job.options.outputPath.isSome then { effects with output := none } else effects

/-- The CPU path from host memory of `bench_file`. -/
def benchHost (job : BenchJob) : Command (ℕ → BenchSample) := do
  let record ← lift (world.cpuCompress 0
    (job.cpuArgs job.values job.options.invocationId job.threads))
  writeRecord world job record
  lift (hostRuns world job)

/-- The CUDA path of `bench_file`. -/
def benchCuda (job : BenchJob) : Command ((ℕ → BenchSample) × ℚ≥0) := do
  let bench ← lift (world.cudaBench (makeCudaConfig job.options job.bitWidth job.values job.count
    job.options.seed job.words job.legality.idStep))
  let record ← lift (cudaRecord job.bitWidth job.count bench.basePayload bench.baseScale)
  writeRecord world job record
  return (bench.samples, bench.captureMs)

/-- The samples and the capture time of the path that the options select. -/
def benchPath (job : BenchJob) : Command ((ℕ → BenchSample) × ℚ≥0) :=
  if job.hostHost then do
    let samples ← benchHost world job
    return (samples, 0)
  else if job.options.backend = .cpu then do
    let samples ← benchCpuGpuOrigin world job
    return (samples, 0)
  else benchCuda world job

/-- The report of `bench_file`. -/
def BenchJob.report (job : BenchJob) (samples : ℕ → BenchSample) (captureMs : ℚ≥0) :
    BenchResult where
  backend := job.options.backend.text
  boundary := job.legality.name
  transferPolicy := sqTransferPolicyName job.options.transferPolicy
  k1 := if job.options.backend = .cuda then some (sqK1Name job.options.k1) else none
  columns := job.legality.columns
  invocationIdStep := job.legality.idStep
  bitWidth := job.bitWidth
  count := job.count
  seed := job.options.seed
  tensorId := job.options.tensorId
  invocationId := job.options.invocationId
  warmups := job.options.warmups
  reps := job.options.reps
  prescribedScale := if job.options.seen.scale then some job.options.scale.toRat else none
  blockSize := job.options.blockSize
  gridSize := job.options.gridSize
  teamSize :=
    if job.hostHost ∧ job.threads ≠ 0 then world.teamSize job.threads else 0
  payloadBytes := sqPayloadSize job.bitWidth job.count
  samples := samples
  captureMs := captureMs

/-- `bench_file`. -/
def benchFile (strtof : String → Option F32) (arguments : List String) : Command Unit := do
  let job ← lift (benchJob world strtof arguments)
  if job.options.backend ≠ .cuda then
    lift (checked (world.reserve job.options.backend job.threads job.count))
  let (samples, captureMs) ← benchPath world job
  printObject (sqBenchPrintJson (job.report world samples captureMs))

/-! ## `decompress` -/

section

variable [Arith Format.binary32]

/-- `sq_decode_record` on a whole record.  It never reads outside the record. -/
def decodeWhole (call : ℕ) (record : List Byte) : Except SqStatus (List F32 × ℕ) :=
  match sqDecodeRecord (world.decodeMalloc call) (some record) record.length
      (some ⟨none, 0⟩) with
  | some (.ok, some out) => .ok (out.values.getD [], out.count)
  | some (status, _) => .error status
  | none => .error .errArgument

/-- `sq_store_f32_array_le`. -/
def sqStoreF32ArrayLe (values : List F32) : List Byte :=
  values.flatMap fun value => sqStoreU32Le (f32Bits value)

/-- `decompress_file` up to its write. -/
def decompressOutput (strtof : String → Option F32) (arguments : List String) :
    Except SqStatus (List Byte) := do
  let options ← sqCliParse strtof .decompress arguments
  let options ← sqCliValidate .decompress options true
  match world.readInput (options.inputPath.getD "") with
  | none => throw .errIo
  | some record =>
      let (values, count) ← decodeWhole world 0 record
      failWhen (count > sizeMax / 4) .errCount
      failWhen (count ≠ 0 ∧ world.allocates .output (count * 4) = false) .errMemory
      return sqStoreF32ArrayLe values

/-- `decompress_file`. -/
def decompressFile (strtof : String → Option F32) (arguments : List String) :
    Command Unit := do
  let output ← lift (decompressOutput world strtof arguments)
  sqWriteFile world output

/-! ## `expect` -/

/-- `double`. -/
abbrev F64 := Fp Format.binary64

/-- `(double)x`. -/
def toF64 (x : F32) : F64 := convert Format.binary64 x

omit [Arith Format.binary32] in
theorem toF64_toRat {x : F32} (finite : isfinite x = true) : (toF64 x).toRat = x.toRat :=
  convert_toRat wider_binary32_binary64 finite

example : (toF64 (ofF32Bits 0x3F800000#32)).toBits = 0x3FF0000000000000 := by
  decide +kernel

variable [Arith Format.binary64]

/-- What `expect_file` has before its first seed. -/
structure ExpectJob extends Job where
  scale : F32

/-- `sq_compute_scale`. -/
def sqComputeScale (values : Ptr F32) (count : ℕ) : Except SqStatus F32 :=
  let elements := sqScaleWorkspaceElements count
  if elements = sizeMax ∨ elements > sizeMax / 4 then .error .errMemory
  else if elements ≠ 0 ∧ world.allocates .scalePartials (elements * 4) = false then
    .error .errMemory
  else
    match sqComputeScaleWithWorkspace values count (some zeroF)
        (arrayOf elements fun _ => zeroF) elements with
    | (.ok, some scale, _) => .ok scale
    | (status, _, _) => .error status

/-- `expect_file` up to its loop over the seeds. -/
def expectJob (strtof : String → Option F32) (arguments : List String) :
    Except SqStatus ExpectJob := do
  let options ← sqCliParse strtof .expect arguments
  let options ← sqCliValidate .expect options true
  failWhen (!sqInvocationRangeValid options.tensorId options.invocationId 0 1 0) .errIdOverflow
  match world.readInput (options.inputPath.getD "") with
  | none => throw .errIo
  | some bytes =>
      failWhen (bytes.length = 0 ∨ bytes.length % 4 ≠ 0) .errPayloadLength
      let count := bytes.length / 4
      failWhen (count > sizeMax / 16 ∨ count > sizeMax - sqHeaderSize) .errCount
      failWhen (world.allocates .values (count * 4) = false ∨
        world.allocates .record
          (sqHeaderSize + sqPayloadSize (options.bits % 2 ^ 8) count) = false ∨
        world.allocates .sums (count * 8) = false ∨
        world.allocates .squares (count * 8) = false) .errMemory
      let values := arrayOf count (sqLoadF32ArrayLe bytes)
      let scale ← sqComputeScale world values count
      if options.backend = .cpu then checked (world.reserve .cpu 0 count)
      return { options, threads := 0, values, count, words := none, scale }

/-- The record of iteration `t`. -/
def expectRecord (job : ExpectJob) (t seed : ℕ) : Except SqStatus (List Byte) := do
  let bitWidth := job.options.bits % 2 ^ 8
  if job.options.backend = .cuda then
    let (payload, scale) ← world.cudaCompress t
      (makeCudaConfig job.options bitWidth job.values job.count seed none 1)
    failWhen (f32Bits scale ≠ f32Bits job.scale) .errScale
    let record ← cudaRecord bitWidth job.count payload scale
    return recordIn bitWidth job.count record
  else
    let record ← world.cpuCompress t
      { cpuArgs job.options job.values job.count job.options.invocationId none 0 with
        backend := .cpu
        seed := seed
        prescribedScale := some job.scale }
    return recordIn bitWidth job.count record

/-- The sums and the sums of squares of a record's values, added in. -/
def addDecoded (sums : List (F64 × F64)) (decoded : List F32) : List (F64 × F64) :=
  List.zipWith (fun sum value =>
    (sum.1 + toF64 value, sum.2 + toF64 value * toF64 value)) sums decoded

/-- The loop of `expect_file` over the seeds below a number. -/
def expectSeeds (job : ExpectJob) : ℕ → Except SqStatus (List (F64 × F64))
  | 0 => .ok (List.replicate job.count (Fp.zero Format.binary64, Fp.zero Format.binary64))
  | t + 1 => do
      let sums ← expectSeeds job t
      let seed := (job.options.seedStart + t) % 2 ^ 64
      let record ← expectRecord world job t seed
      let (decoded, decodedCount) ← decodeWhole world t record
      failWhen (decodedCount ≠ job.count) .errCount
      return addDecoded sums decoded

/-- `store_f64_le`. -/
def storeF64Le (value : F64) : List Byte := sqStoreU64Le (BitVec.ofNat 64 value.toBits)

/-- `expect_file` up to its write: the job and the bytes it writes. -/
def expectOutput (strtof : String → Option F32) (arguments : List String) :
    Except SqStatus (ExpectJob × List Byte) := do
  let job ← expectJob world strtof arguments
  let sums ← expectSeeds world job job.options.seeds
  failWhen (!world.allocates .output (2 * job.count * 8)) .errMemory
  return (job, (sums.flatMap fun sum => storeF64Le sum.1) ++
    sums.flatMap fun sum => storeF64Le sum.2)

/-- The object that `expect_file` prints. -/
def expectReport (hex : Word → String) (job : ExpectJob) : List (String × Json) :=
  [("backend", .str job.options.backend.text), ("bits", .int job.options.bits),
    ("count", .int job.count), ("seeds", .int job.options.seeds),
    ("seed_start", .int job.options.seedStart), ("tensor_id", .int job.options.tensorId),
    ("invocation_id", .int job.options.invocationId),
    ("scale", .float (.finite job.scale.toRat)), ("scale_bits", .str (hex (f32Bits job.scale)))]

/-- `expect_file`. -/
def expectFile (hex : Word → String) (strtof : String → Option F32)
    (arguments : List String) : Command Unit := do
  let (job, output) ← lift (expectOutput world strtof arguments)
  sqWriteFile world output
  printObject (expectReport hex job)

/-! ## `main` -/

/-- The command that a word names. -/
def commandOf (word : String) : Option SqCommand :=
  if word = "compress" then some .compress
  else if word = "bench" then some .bench
  else if word = "decompress" then some .decompress
  else if word = "expect" then some .expect
  else none

/-- The function of a command. -/
def runCommand (hex : Word → String) (strtof : String → Option F32) (command : SqCommand)
    (arguments : List String) : Command Unit :=
  match command with
  | .compress => compressFile world strtof arguments
  | .bench => benchFile world strtof arguments
  | .decompress => decompressFile world strtof arguments
  | .expect => expectFile world hex strtof arguments

/-- How a process ends: its exit code and what it left behind. -/
structure Exit where
  code : ℕ
  effects : Effects

/-- `main`, on the arguments after the program name. -/
def runMain (hex : Word → String) (strtof : String → Option F32) (argv : List String) : Exit :=
  match argv with
  | [] => ⟨2, none, []⟩
  | word :: arguments =>
      if word = "--help" ∨ word = "-h" then ⟨0, none, [.usage]⟩
      else
        match commandOf word with
        | none => ⟨2, none, []⟩
        | some command =>
            match exec (runCommand world hex strtof command arguments) ⟨none, []⟩ with
            | (.ok _, effects) => ⟨0, effects⟩
            | (.error _, effects) => ⟨1, effects⟩

end

end

end Stoquant

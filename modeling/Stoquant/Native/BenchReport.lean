import Mathlib.Data.NNRat.Defs
import Stoquant.Json
import Stoquant.Native.Cli
import Stoquant.Text.General

/-!
# The bench report

`bench_report.c`: the JSON object that a bench run prints.  A printed number is
the decimal that `printf` rounds to.
-/

namespace Stoquant

/-- `sq_bench_sample`: finite nonnegative times. -/
structure BenchSample where
  wallMs : ℚ≥0
  k1Ms : ℚ≥0
  k2Ms : ℚ≥0
  k3Ms : ℚ≥0
  h2dMs : ℚ≥0
  d2hMs : ℚ≥0
  cpuMs : ℚ≥0

/-- `sq_bench_result`. -/
structure BenchResult where
  backend : String
  boundary : String
  transferPolicy : String
  k1 : Option String
  columns : List BenchColumn
  invocationIdStep : ℕ
  bitWidth : ℕ
  count : ℕ
  seed : ℕ
  tensorId : ℕ
  invocationId : ℕ
  warmups : ℕ
  reps : ℕ
  prescribedScale : Option ℚ
  blockSize : ℕ
  gridSize : ℕ
  teamSize : ℕ
  payloadBytes : ℕ
  samples : ℕ → BenchSample
  captureMs : ℚ≥0

/-- `sq_invocation_range_valid`, over `uint64_t` arguments. -/
def sqInvocationRangeValid (tensorId baseInvocationId warmups reps step : ℕ) : Bool :=
  if tensorId > uint32Max ∨ baseInvocationId > uint32Max ∨ warmups > uint64Max - reps then false
  else
    let totalRuns := warmups + reps
    if totalRuns = 0 then false
    else step = 0 ∨ totalRuns - 1 ≤ (uint32Max - baseInvocationId) / step

/-- `sq_run_invocation_id`, in `uint64_t` arithmetic. -/
def sqRunInvocationId (baseInvocationId warmups reps executionIndex step : ℕ) : ℕ :=
  let offset :=
    if executionIndex < warmups then (reps + executionIndex) % 2 ^ 64
    else executionIndex - warmups
  (baseInvocationId + offset * step) % 2 ^ 64

/-- The decimal with `places` places that `printf` rounds a value to. -/
def fixedDecimal (places : ℕ) (value : ℚ) : ℚ :=
  (Text.roundHalfEven (value * 10 ^ places) : ℚ) / 10 ^ places

/-- A number printed by `%.{digits}g`, which is an integer without a point and an exponent. -/
def printGeneral (digits : ℕ) (value : ℚ) : Json :=
  let text := (Text.general digits value).toList
  if '.' ∈ text ∨ 'e' ∈ text then .float (.finite (Text.generalValue digits value))
  else .int ⌊Text.generalValue digits value⌋

/-- `print_double_array`. -/
def printDoubleArray (samples : ℕ → BenchSample) (reps : ℕ) (field : BenchSample → ℚ≥0) : Json :=
  .arr ((List.range reps).map fun i =>
    .float (.finite (fixedDecimal 9 (field (samples i)))))

/-- `print_invocation_ids`. -/
def printInvocationIds (result : BenchResult) (count firstExecutionIndex : ℕ) : Json :=
  .arr ((List.range count).map fun i =>
    .int (sqRunInvocationId result.invocationId result.warmups result.reps
      ((firstExecutionIndex + i) % 2 ^ 64) result.invocationIdStep))

/-- `column_table`: the key and the field of each stage column. -/
def columnTable : List (BenchColumn × String × (BenchSample → ℚ≥0)) :=
  [(.k1, "k1_ms", BenchSample.k1Ms), (.k2, "k2_ms", BenchSample.k2Ms),
    (.k3, "k3_ms", BenchSample.k3Ms), (.h2d, "h2d_ms", BenchSample.h2dMs),
    (.d2h, "d2h_ms", BenchSample.d2hMs), (.cpu, "cpu_ms", BenchSample.cpuMs)]

/-- The object under `configuration`. -/
def benchConfiguration (result : BenchResult) : List (String × Json) :=
  [("backend", .str result.backend), ("bits", .int result.bitWidth),
    ("count", .int result.count), ("seed", .int result.seed),
    ("tensor_id", .int result.tensorId), ("invocation_id", .int result.invocationId),
    ("warmup", .int result.warmups), ("reps", .int result.reps),
    ("repetition_invocation_ids", printInvocationIds result result.reps result.warmups),
    ("warmup_invocation_ids", printInvocationIds result result.warmups 0),
    ("boundary", .str result.boundary), ("transfer_policy", .str result.transferPolicy),
    ("block_size", .int result.blockSize), ("grid_size", .int result.gridSize)] ++
  (match result.k1 with
    | some k1 => [("k1", .str k1)]
    | none => []) ++
  (if result.teamSize ≠ 0 then [("threads", .int result.teamSize)] else []) ++
  [("prescribed_scale",
    match result.prescribedScale with
    | some scale => printGeneral 9 scale
    | none => .null)]

/-- `sq_bench_print_json`: the fields of the printed object, in order. -/
def sqBenchPrintJson (result : BenchResult) : List (String × Json) :=
  [("configuration", .obj (benchConfiguration result)),
    ("samples_ms", printDoubleArray result.samples result.reps BenchSample.wallMs)] ++
  ((columnTable.filter fun row => row.1 ∈ result.columns).map fun row =>
    (row.2.1, printDoubleArray result.samples result.reps row.2.2)) ++
  (if .capture ∈ result.columns then
    [("capture_and_instantiate_ms", .float (.finite (fixedDecimal 6 result.captureMs)))]
  else []) ++
  [("header_bytes", .int 20), ("payload_bytes", .int result.payloadBytes)]

/-- `resolve_cpu_threads`: zero for the scalar comparator, else the team size to
request. -/
def resolveCpuThreads (avx2Supported : Bool) (defaultThreadCount : ℕ) (options : SqOptions) :
    Except SqStatus ℕ :=
  if options.backend ≠ .cpuAvx2 then
    if options.seen.threads then .error .errArgument else .ok 0
  else if ¬ avx2Supported then .error .errAvx2Unavailable
  else .ok (if options.seen.threads then options.threads else defaultThreadCount)

/-- What a bench run measures: its inputs apart from the command line. -/
structure BenchRun where
  count : ℕ
  payloadBytes : ℕ
  samples : ℕ → BenchSample
  captureMs : ℚ≥0
  avx2Supported : Bool
  defaultThreadCount : ℕ
  /-- `default_thread_count` is at least one. -/
  default_pos : 0 < defaultThreadCount

/-- The command line of `bench_file` as it resolves it before reading its input:
options, legality row and threads. -/
def benchCommandLine (strtof : String → Option F32) (run : BenchRun)
    (arguments : List String) : Except SqStatus (SqOptions × SqLegality × ℕ) := do
  let options ← sqCliParse strtof .bench arguments
  let options ← sqCliValidate .bench options true
  match sqCliLegality options.backend options.boundary with
  | none => throw .errArgument
  | some legality =>
      let threads ← resolveCpuThreads run.avx2Supported run.defaultThreadCount options
      if ¬ sqInvocationRangeValid options.tensorId options.invocationId options.warmups
          options.reps legality.idStep then
        throw .errIdOverflow
      return (options, legality, threads)

/-- The report that `bench_file` fills before it prints.  The OpenMP team has
the size requested; a bench without an AVX2 team reports none. -/
def benchResult (run : BenchRun) (options : SqOptions) (legality : SqLegality)
    (threads : ℕ) : BenchResult :=
  { backend := options.backend.text
    boundary := legality.name
    transferPolicy := sqTransferPolicyName options.transferPolicy
    k1 := if options.backend = .cuda then some (sqK1Name options.k1) else none
    columns := legality.columns
    invocationIdStep := legality.idStep
    bitWidth := options.bits % 2 ^ 8
    count := run.count
    seed := options.seed
    tensorId := options.tensorId
    invocationId := options.invocationId
    warmups := options.warmups
    reps := options.reps
    prescribedScale := if options.seen.scale then some options.scale.toRat else none
    blockSize := options.blockSize
    gridSize := options.gridSize
    teamSize := threads
    payloadBytes := run.payloadBytes
    samples := run.samples
    captureMs := run.captureMs }

end Stoquant

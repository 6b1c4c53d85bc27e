import Stoquant.Design
import Stoquant.Status

/-!
# The command line

`cli.c`: the tables of backends, boundaries, policies and options, parsing, and
the checks that resolve a bench line's boundary and transfer policy.  `strtof`
is a parameter.
-/

namespace Stoquant

/-- `sq_command`. -/
inductive SqCommand where
  | compress
  | bench
  | decompress
  | expect
  deriving DecidableEq, Repr

/-- `sq_boundary`. -/
inductive SqBoundary where
  | resident
  | hostOrigin
  | residentGraph
  | gpuOrigin
  | hostHost
  deriving DecidableEq, Repr

/-- `sq_transfer_policy`. -/
inductive SqTransferPolicy where
  | pageable
  | pinned
  | none
  deriving DecidableEq, Repr

/-- The stage columns of a bench report. -/
inductive BenchColumn where
  | k1
  | k2
  | k3
  | h2d
  | d2h
  | cpu
  | capture
  deriving DecidableEq, Repr

/-- `SQ_CUDA_K1_REFERENCE` and `SQ_CUDA_K1_OPTIMIZED`. -/
inductive K1Variant where
  | reference
  | optimized
  deriving DecidableEq, Repr

/-- `sq_legality`: one row per legal pair of a backend and a boundary. -/
structure SqLegality where
  backend : Backend
  boundary : SqBoundary
  name : String
  columns : List BenchColumn
  transfers : Bool
  needsCuda : Bool
  isDefault : Bool
  namedOnCli : Bool
  idStep : ℕ
  deriving DecidableEq, Repr

/-- `KERNEL_COLUMNS`. -/
def kernelColumns : List BenchColumn := [.k1, .k2, .k3]

/-- `legality_table`. -/
def legalityTable : List SqLegality :=
  [{ backend := .cpu, boundary := .hostHost, name := "host-host", columns := []
     transfers := false, needsCuda := false, isDefault := true, namedOnCli := false
     idStep := 1 },
   { backend := .cpu, boundary := .gpuOrigin, name := "gpu-origin", columns := [.d2h, .cpu]
     transfers := true, needsCuda := true, isDefault := false, namedOnCli := true
     idStep := 1 },
   { backend := .cpuAvx2, boundary := .hostHost, name := "host-host", columns := []
     transfers := false, needsCuda := false, isDefault := true, namedOnCli := false
     idStep := 1 },
   { backend := .cuda, boundary := .resident, name := "resident", columns := kernelColumns
     transfers := false, needsCuda := true, isDefault := false, namedOnCli := true
     idStep := 1 },
   { backend := .cuda, boundary := .hostOrigin, name := "host-origin"
     columns := kernelColumns ++ [.h2d, .d2h]
     transfers := true, needsCuda := true, isDefault := true, namedOnCli := true
     idStep := 1 },
   { backend := .cuda, boundary := .residentGraph, name := "resident-graph"
     columns := [.capture]
     transfers := false, needsCuda := true, isDefault := false, namedOnCli := true
     idStep := 0 },
   { backend := .cuda, boundary := .gpuOrigin, name := "gpu-origin"
     columns := kernelColumns ++ [.d2h]
     transfers := true, needsCuda := true, isDefault := false, namedOnCli := true
     idStep := 1 }]

/-- `backend_table`: the commands that take each backend. -/
def backendTable : List (Backend × List SqCommand) :=
  [(.cpu, [.compress, .bench, .decompress, .expect]), (.cpuAvx2, [.compress, .bench]),
    (.cuda, [.compress, .bench, .decompress, .expect])]

/-- `sq_transfer_policy_name`, the names of `policy_table`. -/
def sqTransferPolicyName : SqTransferPolicy → String
  | .pageable => "pageable"
  | .pinned => "pinned"
  | .none => "none"

/-- `sq_k1_name`. -/
def sqK1Name : K1Variant → String
  | .optimized => "optimized"
  | .reference => "reference"

/-- `option_id`. -/
inductive OptionId where
  | input
  | output
  | words
  | seed
  | seeds
  | seedStart
  | tensorId
  | invocationId
  | bits
  | scale
  | backend
  | threads
  | boundary
  | policy
  | warmup
  | reps
  | blockSize
  | gridSize
  | k1
  | timings
  deriving DecidableEq, Repr

/-- `option_table`. -/
def optionTable : List (String × OptionId × List SqCommand) :=
  [("--input", .input, [.compress, .bench, .decompress, .expect]),
    ("--output", .output, [.compress, .bench, .decompress, .expect]),
    ("--record-output", .output, [.bench]),
    ("--words", .words, [.compress, .bench]),
    ("--seed", .seed, [.compress, .bench]),
    ("--seeds", .seeds, [.expect]),
    ("--seed-start", .seedStart, [.expect]),
    ("--tensor-id", .tensorId, [.compress, .bench, .expect]),
    ("--invocation-id", .invocationId, [.compress, .bench, .expect]),
    ("--bits", .bits, [.compress, .bench, .expect]),
    ("--scale", .scale, [.compress, .bench]),
    ("--backend", .backend, [.compress, .bench, .expect]),
    ("--threads", .threads, [.compress, .bench]),
    ("--boundary", .boundary, [.bench]),
    ("--transfer-policy", .policy, [.bench]),
    ("--warmup", .warmup, [.bench]),
    ("--reps", .reps, [.bench]),
    ("--block-size", .blockSize, [.compress, .bench]),
    ("--grid-size", .gridSize, [.compress, .bench]),
    ("--k1", .k1, [.compress, .bench]),
    ("--timings", .timings, [.compress, .bench])]

/-- `SQ_MAX_CPU_THREADS`. -/
def sqMaxCpuThreads : ℕ := 256

/-- `SQ_CUDA_MAX_BLOCK_SIZE`. -/
def sqCudaMaxBlockSize : ℕ := 1024

/-- `SQ_CUDA_MAX_GRID_SIZE`. -/
def sqCudaMaxGridSize : ℕ := 65535

/-- `UINT64_MAX`. -/
def uint64Max : ℕ := 2 ^ 64 - 1

/-- The options a command line named explicitly. -/
structure Seen where
  seed : Bool
  seeds : Bool
  scale : Bool
  threads : Bool
  boundary : Bool
  policy : Bool
  blockSize : Bool
  gridSize : Bool
  k1 : Bool
  timings : Bool
  deriving DecidableEq, Repr

/-- `sq_options`. -/
structure SqOptions where
  inputPath : Option String
  outputPath : Option String
  wordsPath : Option String
  backend : Backend
  boundary : SqBoundary
  transferPolicy : SqTransferPolicy
  seed : ℕ
  seeds : ℕ
  seedStart : ℕ
  tensorId : ℕ
  invocationId : ℕ
  bits : ℕ
  blockSize : ℕ
  gridSize : ℕ
  threads : ℕ
  warmups : ℕ
  reps : ℕ
  scale : F32
  k1 : K1Variant
  seen : Seen

/-- `options_init`. -/
def optionsInit : SqOptions :=
  { inputPath := none
    outputPath := none
    wordsPath := none
    backend := .cpu
    boundary := .hostHost
    transferPolicy := .none
    seed := 0
    seeds := 0
    seedStart := 1
    tensorId := 0
    invocationId := 0
    bits := 8
    blockSize := 256
    gridSize := 0
    threads := 0
    warmups := 10
    reps := 30
    scale := zeroF
    k1 := .reference
    seen := ⟨false, false, false, false, false, false, false, false, false, false⟩ }

/-- The loop of `sq_parse_u64`. -/
def parseDigits : List Char → ℕ → Option ℕ
  | [], parsed => some parsed
  | cursor :: rest, parsed =>
      if cursor.isDigit = false then none
      else
        let digit := cursor.toNat - '0'.toNat
        if parsed > (uint64Max - digit) / 10 then none
        else parseDigits rest (parsed * 10 + digit)

/-- `sq_parse_u64`. -/
def sqParseU64 (text : String) : Option ℕ :=
  if text.toList = [] then none else parseDigits text.toList 0

/-- `parse_bounded`. -/
def parseBounded (text : String) (maximum : ℕ) : Option ℕ :=
  (sqParseU64 text).filter fun value => value ≠ 0 ∧ value ≤ maximum

/-- `parse_k1`. -/
def parseK1 (text : String) : Option K1Variant :=
  if text = "reference" then some .reference
  else if text = "optimized" then some .optimized
  else none

/-- `parse_scale`; `strtof` gives the value of a text it reads to the end
without a range error. -/
def parseScale (strtof : String → Option F32) (text : String) : Option F32 :=
  (strtof text).filter fun parsed => parsed.isFinite ∧ ¬ parsed.lt zeroF

/-- `parse_backend`. -/
def parseBackend (command : SqCommand) (text : String) : Option Backend :=
  (backendTable.find? fun row => command ∈ row.2 ∧ row.1.text = text).map Prod.fst

/-- `parse_boundary`. -/
def parseBoundary (text : String) : Option SqBoundary :=
  (legalityTable.find? fun row => row.namedOnCli ∧ row.name = text).map SqLegality.boundary

/-- `parse_policy`; the name `none` is not accepted on the command line. -/
def parsePolicy (text : String) : Option SqTransferPolicy :=
  [SqTransferPolicy.pageable, SqTransferPolicy.pinned].find? fun policy =>
    sqTransferPolicyName policy = text

/-- `sq_cli_legality`. -/
def sqCliLegality (backend : Backend) (boundary : SqBoundary) : Option SqLegality :=
  legalityTable.find? fun row => row.backend = backend ∧ row.boundary = boundary

/-- `default_legality`. -/
def defaultLegality (backend : Backend) : Option SqLegality :=
  legalityTable.find? fun row => row.backend = backend ∧ row.isDefault

/-- `find_option`. -/
def findOption (command : SqCommand) (name : String) : Option OptionId :=
  (optionTable.find? fun row => command ∈ row.2.2 ∧ row.1 = name).map fun row => row.2.1

/-- Stores a parsed value, or fails with a status. -/
def store {α : Type} (parsed : Option α) (failure : SqStatus)
    (assign : α → SqOptions) : Except SqStatus SqOptions :=
  match parsed with
  | some value => .ok (assign value)
  | none => .error failure

/-- `apply_option`. -/
def applyOption (strtof : String → Option F32) (command : SqCommand) (id : OptionId)
    (value : String) (options : SqOptions) : Except SqStatus SqOptions :=
  match id with
  | .input => .ok { options with inputPath := some value }
  | .output => .ok { options with outputPath := some value }
  | .words => .ok { options with wordsPath := some value }
  | .seed => store (sqParseU64 value) .errArgument fun seed =>
      { options with seed, seen := { options.seen with seed := true } }
  | .seeds => store ((sqParseU64 value).filter (· ≠ 0)) .errArgument fun seeds =>
      { options with seeds, seen := { options.seen with seeds := true } }
  | .seedStart => store (sqParseU64 value) .errArgument fun seedStart =>
      { options with seedStart }
  | .tensorId => store (sqParseU64 value) .errArgument fun tensorId =>
      { options with tensorId }
  | .invocationId => store (sqParseU64 value) .errArgument fun invocationId =>
      { options with invocationId }
  | .bits => store (sqParseU64 value) .errArgument fun bits => { options with bits }
  | .scale => store (parseScale strtof value) .errScale fun scale =>
      { options with scale, seen := { options.seen with scale := true } }
  | .backend => store (parseBackend command value) .errArgument fun backend =>
      { options with backend }
  | .threads => store (parseBounded value sqMaxCpuThreads) .errArgument fun threads =>
      { options with threads, seen := { options.seen with threads := true } }
  | .boundary => store (parseBoundary value) .errArgument fun boundary =>
      { options with boundary, seen := { options.seen with boundary := true } }
  | .policy => store (parsePolicy value) .errArgument fun transferPolicy =>
      { options with transferPolicy, seen := { options.seen with policy := true } }
  | .warmup => store (sqParseU64 value) .errArgument fun warmups => { options with warmups }
  | .reps => store (sqParseU64 value) .errArgument fun reps => { options with reps }
  | .blockSize => store (parseBounded value sqCudaMaxBlockSize) .errArgument fun blockSize =>
      { options with blockSize, seen := { options.seen with blockSize := true } }
  | .gridSize => store (parseBounded value sqCudaMaxGridSize) .errArgument fun gridSize =>
      { options with gridSize, seen := { options.seen with gridSize := true } }
  | .k1 => store (parseK1 value) .errArgument fun k1 =>
      { options with k1, seen := { options.seen with k1 := true } }
  | .timings => .error .errArgument

/-- The loop of `sq_cli_parse` over the arguments after the command. -/
def parseArguments (strtof : String → Option F32) (command : SqCommand) :
    List String → SqOptions → Except SqStatus SqOptions
  | [], options => .ok options
  | name :: rest, options =>
      match findOption command name with
      | some .timings =>
          parseArguments strtof command rest
            { options with seen := { options.seen with timings := true } }
      | none => .error .errArgument
      | some id =>
          match rest with
          | [] => .error .errArgument
          | value :: rest =>
              match applyOption strtof command id value options with
              | .ok options => parseArguments strtof command rest options
              | .error status => .error status

/-- `sq_cli_parse`, after the program name and the command. -/
def sqCliParse (strtof : String → Option F32) (command : SqCommand)
    (arguments : List String) : Except SqStatus SqOptions :=
  parseArguments strtof command arguments optionsInit

/-- `resolve_bench`: boundary and transfer policy, decided by the legality table. -/
def resolveBench (options : SqOptions) : Except SqStatus (SqOptions × SqLegality) :=
  let row :=
    if options.seen.boundary then sqCliLegality options.backend options.boundary
    else defaultLegality options.backend
  match row with
  | none => .error .errArgument
  | some row =>
      if options.seen.policy ∧ ¬ row.transfers then .error .errArgument
      else
        let transferPolicy :=
          if ¬ row.transfers then .none
          else if ¬ options.seen.policy then .pageable
          else options.transferPolicy
        .ok ({ options with boundary := row.boundary, transferPolicy }, row)

/-- `check_required`. -/
def checkRequired (command : SqCommand) (options : SqOptions) : SqStatus :=
  let missing :=
    match command with
    | .decompress => false
    | .compress => ¬ options.seen.seed
    | .bench => ¬ options.seen.seed ∨ options.reps = 0
    | .expect =>
        ¬ options.seen.seeds ∨ options.seedStart > uint64Max - (options.seeds - 1)
  if missing then .errArgument
  else if options.inputPath = none then .errArgument
  else if command ≠ .bench ∧ options.outputPath = none then .errArgument
  else .ok

/-- `sq_cli_validate`: the options with boundary and policy resolved. -/
def sqCliValidate (command : SqCommand) (options : SqOptions) (cudaAvailable : Bool) :
    Except SqStatus SqOptions :=
  let status := checkRequired command options
  let isCuda := options.backend = .cuda
  let cudaOnly := options.seen.blockSize ∨ options.seen.gridSize ∨ options.seen.k1
  if status ≠ .ok then .error status
  else if command = .decompress then .ok options
  else if options.bits ≠ 4 ∧ options.bits ≠ 8 then .error .errBitWidth
  else if ¬ isCuda ∧ cudaOnly then .error .errArgument
  else do
    let (options, needsCuda) ←
      if command = .bench then do
        let (options, row) ← resolveBench options
        pure (options, decide isCuda || row.needsCuda)
      else pure (options, decide isCuda)
    if options.seen.timings ∧ ¬ isCuda then throw .errTimingsBackend
    if needsCuda ∧ ¬ cudaAvailable then throw .errCudaUnavailable
    return options

end Stoquant

import Stoquant.Design
import Stoquant.Json
import Stoquant.Text.Decimal

/-!
# Validating a bench response

`validate_bench_response` of `runner.py`: the configuration a request expects,
the echoed configuration, the required stage arrays, and the errors they raise.
Python's `repr` is a parameter, since only error texts depend on it.
-/

namespace Stoquant

open Text

/-- The arguments of `run_bench_process` that a response must match. -/
structure BenchRequest where
  count : ℤ
  bits : ℤ
  backend : String
  extraArgs : List String
  seed : ℤ
  warmups : ℤ
  reps : ℤ
  k1 : String
  deriving DecidableEq, Repr

/-- Why a response is not accepted: a `BenchResponseError`, or an exception that
is not one. -/
inductive ResponseFailure where
  | rejected (message : String)
  | raised (error : PyError)
  deriving DecidableEq, Repr

/-- The `repr` of a JSON value. -/
abbrev PyRepr := Json → String

/-- The loop of `_option_value`. -/
def optionLoop (option : String) : Option String → List String →
    Except ResponseFailure (Option String)
  | value, [] => .ok value
  | value, arg :: rest =>
      if arg = option then
        match rest with
        | [] => .error (.rejected ("requested " ++ option ++ " has no value"))
        | given :: rest => optionLoop option (some given) rest
      else if (option ++ "=").toList.isPrefixOf arg.toList then
        optionLoop option (some (String.ofList (arg.toList.drop (option ++ "=").length))) rest
      else optionLoop option value rest

/-- `_option_value`. -/
def optionValue (extraArgs : List String) (option : String) (default : Option String) :
    Except ResponseFailure (Option String) :=
  optionLoop option default extraArgs

/-- `sys.int_info.default_max_str_digits`. -/
def maxStrDigits : ℕ := 4300

/-- The digits of an `int` literal, single underscores between them dropped. -/
def literalDigits : List Char → Option (List Char)
  | [] => none
  | [digit] => if digit.isDigit then some [digit] else none
  | digit :: '_' :: rest =>
      if digit.isDigit then (literalDigits rest).map (digit :: ·) else none
  | digit :: next :: rest =>
      if digit.isDigit then (literalDigits (next :: rest)).map (digit :: ·) else none

/-- The ASCII spaces that `int` skips: the blank, and from the tab to the carriage return. -/
def isSpace (c : Char) : Bool := c = ' ' ∨ (9 ≤ c.toNat ∧ c.toNat ≤ 13)

/-- An ASCII text without the spaces around it. -/
def stripSpaces (text : List Char) : List Char :=
  ((text.dropWhile isSpace).reverse.dropWhile isSpace).reverse

/-- The sign of an `int` literal, true for minus, and what follows it. -/
def splitSign : List Char → Bool × List Char
  | [] => (false, [])
  | first :: rest =>
      if first = '-' then (true, rest)
      else if first = '+' then (false, rest)
      else (false, first :: rest)

/-- `int(text)` of an ASCII text. -/
def pyInt (text : String) : Except ResponseFailure ℤ :=
  let (negative, digits) := splitSign (stripSpaces text.toList)
  match literalDigits digits with
  | none => .error (.raised (.valueError "invalid literal for int() with base 10"))
  | some digits =>
      if maxStrDigits < digits.length then
        .error (.raised (.valueError "Exceeds the limit for integer string conversion"))
      else
        let value : ℤ := Nat.ofDigitChars 10 digits 0
        .ok (if negative then -value else value)

/-- `int(_option_value(extra_args, option, default) or default)`. -/
def intOption (extraArgs : List String) (option default : String) :
    Except ResponseFailure ℤ := do
  match ← optionValue extraArgs option (some default) with
  | some text => pyInt (if text = "" then default else text)
  | none => pyInt default

/-- A value of the expected configuration; `anyThreads` is the `None` that
stands for any positive thread count. -/
inductive Expected where
  | text (text : String)
  | number (value : ℤ)
  | ids (values : List ℤ)
  | null
  | anyThreads
  deriving DecidableEq, Repr

def Expected.toJson : Expected → Json
  | .text given => .str given
  | .number value => .int value
  | .ids values => .arr (values.map .int)
  | .null => .null
  | .anyThreads => .null

/-- `repetition_invocation_ids` and `warmup_invocation_ids`. -/
def expectedIds (first count step : ℤ) : List ℤ :=
  (List.range count.toNat).map fun i : ℕ => (first + i) * step

/-- The default boundary of each backend. -/
def expectedBoundary (backend : String) : Option String :=
  if backend = "cpu" then some "host-host"
  else if backend = "cpu-avx2" then some "host-host"
  else if backend = "cuda" then some "resident"
  else none

/-- The transfer policy that `_expected_configuration` expects for a boundary. -/
def expectedPolicy (repr : PyRepr) (boundary : String) (given : Option String) :
    Except ResponseFailure String :=
  let transfers := boundary = "host-origin" ∨ boundary = "gpu-origin"
  let policy :=
    if given.getD "" = "" then (if transfers then "pageable" else "none") else given.getD ""
  if policy ∉ ["none", "pageable", "pinned"] then
    .error (.rejected ("requested transfer policy " ++ repr (.str policy) ++
      " is unsupported"))
  else if (¬ transfers ∧ policy ≠ "none") ∨ (transfers ∧ policy = "none") then
    .error (.rejected ("requested transfer policy " ++ repr (.str policy) ++
      " has no transfer boundary"))
  else .ok policy

/-- The entry `threads`, expected of the AVX2 backend only. -/
def expectedThreads (request : BenchRequest) :
    Except ResponseFailure (List (String × Expected)) :=
  if request.backend = "cpu-avx2" then do
    match ← optionValue request.extraArgs "--threads" none with
    | some text => return [("threads", .number (← pyInt text))]
    | none => return [("threads", .anyThreads)]
  else .ok []

/-- The expected configuration of a boundary, in the order of its entries. -/
def expectedEntries (request : BenchRequest) (boundary policy : String)
    (blockSize gridSize : ℤ) (threads : List (String × Expected)) :
    List (String × Expected) :=
  let step : ℤ := if boundary = "resident-graph" then 0 else 1
  let k1 : List (String × Expected) :=
    if request.backend = "cuda" then [("k1", .text request.k1)] else []
  [("backend", .text request.backend), ("bits", .number request.bits),
    ("count", .number request.count), ("seed", .number request.seed),
    ("tensor_id", .number 0), ("invocation_id", .number 0),
    ("warmup", .number request.warmups), ("reps", .number request.reps),
    ("repetition_invocation_ids", .ids (expectedIds 0 request.reps step)),
    ("warmup_invocation_ids", .ids (expectedIds request.reps request.warmups step)),
    ("boundary", .text boundary), ("transfer_policy", .text policy),
    ("block_size", .number blockSize), ("grid_size", .number gridSize),
    ("prescribed_scale", .null)] ++ k1 ++ threads

/-- `_expected_configuration`, with the expected boundary. -/
def expectedConfiguration (repr : PyRepr) (request : BenchRequest) :
    Except ResponseFailure (String × List (String × Expected)) :=
  match expectedBoundary request.backend with
  | none =>
      .error (.rejected ("requested backend " ++ repr (.str request.backend) ++
        " is unsupported"))
  | some default => do
      let boundary ← optionValue request.extraArgs "--boundary" (some default)
      let boundary := boundary.getD default
      let given ← optionValue request.extraArgs "--transfer-policy" none
      let policy ← expectedPolicy repr boundary given
      let blockSize ← intOption request.extraArgs "--block-size" "256"
      let gridSize ← intOption request.extraArgs "--grid-size" "0"
      let threads ← expectedThreads request
      return (boundary, expectedEntries request boundary policy blockSize gridSize threads)

/-- Whether an echoed value has the type of its field and the expected value. -/
def echoes (actual : Json) : Expected → Bool
  | .text expected =>
      match actual with
      | .str text => text = expected
      | _ => false
  | .number expected =>
      match actual with
      | .int value => value = expected
      | _ => false
  | .ids expected =>
      match actual with
      | .arr items => intItems items = some expected
      | _ => false
  | .null =>
      match actual with
      | .null => true
      | _ => false
  | .anyThreads =>
      match actual with
      | .int value => 0 < value
      | _ => false

/-- One pass of the loop over the expected configuration: `_validate_echoed_value`,
or the check of a thread count the request leaves open. -/
def validateEchoedValue (repr : PyRepr) (configuration : List (String × Json))
    (entry : String × Expected) : Except ResponseFailure Unit :=
  match entry.2, Dict.get? configuration entry.1 with
  | .anyThreads, actual =>
      if (actual.map fun value => echoes value .anyThreads) = some true then .ok ()
      else .error (.rejected
        "stoquant bench response configuration threads must be a positive integer")
  | _, none =>
      .error (.rejected ("stoquant bench response configuration is missing " ++ entry.1))
  | expected, some actual =>
      if echoes actual expected then .ok ()
      else .error (.rejected ("stoquant bench response configuration " ++ entry.1 ++
        " is " ++ repr actual ++ "; expected " ++ repr expected.toJson))

/-- The loop over the samples of `_finite_nonnegative_samples`. -/
def sampleTimings (field : String) : ℕ → List Json → Except ResponseFailure (List Timing)
  | _, [] => .ok []
  | i, sample :: samples =>
      if isNumber sample = false then
        .error (.rejected ("stoquant bench response " ++ field ++ "[" ++ decimal i ++
          "] must be a number"))
      else match validTiming sample with
        | none =>
            .error (.rejected ("stoquant bench response " ++ field ++ "[" ++ decimal i ++
              "] must be finite and nonnegative"))
        | some timing => do
            let rest ← sampleTimings field (i + 1) samples
            return timing :: rest

/-- `_finite_nonnegative_samples`. -/
def finiteNonnegativeSamples (payload : List (String × Json)) (field : String) (count : ℤ) :
    Except ResponseFailure (List Timing) :=
  match Dict.get? payload field with
  | none => .error (.rejected ("stoquant bench response is missing " ++ field))
  | some (.arr samples) =>
      if (samples.length : ℤ) ≠ count then
        .error (.rejected ("stoquant bench response " ++ field ++ " has " ++
          decimal samples.length ++ " samples; expected " ++ decimal count))
      else sampleTimings field 0 samples
  | some _ =>
      .error (.rejected ("stoquant bench response " ++ field ++ " must be an array"))

/-- `_STAGE_KEYS`. -/
def stageKeys : List String := ["k1_ms", "k2_ms", "k3_ms", "h2d_ms", "d2h_ms", "cpu_ms"]

/-- `_required_stages`. -/
def requiredStages (repr : PyRepr) (backend boundary : String) :
    Except ResponseFailure (List String) :=
  if backend = "cuda" ∧ boundary = "resident-graph" then .ok []
  else if backend = "cuda" ∧ boundary = "host-origin" then
    .ok ["k1_ms", "k2_ms", "k3_ms", "h2d_ms", "d2h_ms"]
  else if backend = "cuda" ∧ boundary = "gpu-origin" then
    .ok ["k1_ms", "k2_ms", "k3_ms", "d2h_ms"]
  else if backend = "cuda" ∧ boundary = "resident" then .ok ["k1_ms", "k2_ms", "k3_ms"]
  else if backend = "cpu" ∧ boundary = "gpu-origin" then .ok ["d2h_ms", "cpu_ms"]
  else if backend = "cpu" ∧ boundary = "host-host" then .ok []
  else if backend = "cpu-avx2" ∧ boundary = "host-host" then .ok []
  else .error (.rejected ("stoquant bench response has unsupported backend/boundary " ++
    repr (.str backend) ++ "/" ++ repr (.str boundary)))

/-- The checks on `capture_and_instantiate_ms`. -/
def validateCapture (payload : List (String × Json)) (boundary : String) :
    Except ResponseFailure (Option Timing) :=
  let capture := Dict.get? payload "capture_and_instantiate_ms"
  if boundary = "resident-graph" then
    match capture with
    | none => .error (.rejected
        "stoquant bench response is missing capture_and_instantiate_ms for resident-graph")
    | some value =>
        if isNumber value = false then .error (.rejected
          "stoquant bench response capture_and_instantiate_ms must be a number")
        else match validTiming value with
          | none => .error (.rejected
              "stoquant bench response capture_and_instantiate_ms must be finite and nonnegative")
          | some timing => .ok (some timing)
  else if capture.isSome then .error (.rejected
    "stoquant bench response has capture_and_instantiate_ms outside resident-graph")
  else .ok none

/-- `ValidatedBenchResponse`.  The stage arrays are the ones of the payload. -/
structure ValidatedBenchResponse where
  payload : List (String × Json)
  configuration : List (String × Json)
  samplesMs : List Timing
  stageSamplesMs : List (String × List Timing)
  captureAndInstantiateMs : Option Timing

/-- The checks on the keys of a configuration that only some backends echo. -/
def checkForeignKeys (backend : String) (configuration : List (String × Json)) :
    Except ResponseFailure Unit :=
  if backend ≠ "cuda" ∧ (Dict.get? configuration "k1").isSome then
    .error (.rejected "stoquant bench response configuration has k1 for a non-CUDA backend")
  else if backend ≠ "cpu-avx2" ∧ (Dict.get? configuration "threads").isSome then
    .error (.rejected
      "stoquant bench response configuration has threads for a non-AVX2 backend")
  else .ok ()

/-- The stage arrays of a payload: the required ones, and no others. -/
def stageTimings (payload : List (String × Json)) (stages : List String) (reps : ℤ) :
    Except ResponseFailure (List (String × List Timing)) := do
  let samples ← stages.mapM fun field => do
    return (field, ← finiteNonnegativeSamples payload field reps)
  let unexpected := stageKeys.filter fun field =>
    (Dict.get? payload field).isSome ∧ field ∉ stages
  if unexpected ≠ [] then
    .error (.rejected ("stoquant bench response has unexpected stage arrays: " ++
      ", ".intercalate unexpected))
  else .ok samples

/-- `validate_bench_response`. -/
def validateBenchResponse (repr : PyRepr) (request : BenchRequest)
    (payload : List (String × Json)) : Except ResponseFailure ValidatedBenchResponse := do
  let (boundary, expected) ← expectedConfiguration repr request
  match Dict.get? payload "configuration" with
  | some (.obj configuration) =>
      checkForeignKeys request.backend configuration
      expected.forM (validateEchoedValue repr configuration)
      let samples ← finiteNonnegativeSamples payload "samples_ms" request.reps
      let stages ← requiredStages repr request.backend boundary
      let stageSamples ← stageTimings payload stages request.reps
      let capture ← validateCapture payload boundary
      return ⟨payload, configuration, samples, stageSamples, capture⟩
  | _ => .error (.rejected "stoquant bench response configuration must be an object")

end Stoquant

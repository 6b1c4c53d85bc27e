import Stoquant.Native.Resolved

/-!
# Accepted command lines

The arguments of an accepted command line are settings, each of the fields of one
option.  Settings of different options commute, every setting keeps the bounds of the
options, and validation checks what depends on the backend and the boundary.
-/

namespace Stoquant

/-! ## Settings -/

/-- What the value of an option denotes. -/
abbrev OptionId.Value : OptionId → Type
  | .input | .output | .words => String
  | .scale => F32
  | .backend => Backend
  | .boundary => SqBoundary
  | .policy => SqTransferPolicy
  | .k1 => K1Variant
  | .timings => Unit
  | .seed | .seeds | .seedStart | .tensorId | .invocationId | .bits | .threads | .warmup
  | .reps | .blockSize | .gridSize => ℕ

/-- The value that a text denotes; the flag has none. -/
def OptionId.parse (strtof : String → Option F32) (command : SqCommand) :
    (id : OptionId) → String → Option id.Value
  | .input | .output | .words => some
  | .seed | .seedStart | .tensorId | .invocationId | .bits | .warmup | .reps => sqParseU64
  | .seeds => fun text => (sqParseU64 text).filter (· ≠ 0)
  | .scale => parseScale strtof
  | .backend => parseBackend command
  | .threads => (parseBounded · sqMaxCpuThreads)
  | .boundary => parseBoundary
  | .policy => parsePolicy
  | .blockSize => (parseBounded · sqCudaMaxBlockSize)
  | .gridSize => (parseBounded · sqCudaMaxGridSize)
  | .k1 => parseK1
  | .timings => fun _ => some ()

/-- The options with the fields of one option set. -/
def OptionId.assign : (id : OptionId) → id.Value → SqOptions → SqOptions
  | .input, value, options => { options with inputPath := some value }
  | .output, value, options => { options with outputPath := some value }
  | .words, value, options => { options with wordsPath := some value }
  | .seed, value, options =>
      { options with seed := value, seen := { options.seen with seed := true } }
  | .seeds, value, options =>
      { options with seeds := value, seen := { options.seen with seeds := true } }
  | .seedStart, value, options => { options with seedStart := value }
  | .tensorId, value, options => { options with tensorId := value }
  | .invocationId, value, options => { options with invocationId := value }
  | .bits, value, options => { options with bits := value }
  | .scale, value, options =>
      { options with scale := value, seen := { options.seen with scale := true } }
  | .backend, value, options => { options with backend := value }
  | .threads, value, options =>
      { options with threads := value, seen := { options.seen with threads := true } }
  | .boundary, value, options =>
      { options with boundary := value, seen := { options.seen with boundary := true } }
  | .policy, value, options =>
      { options with transferPolicy := value, seen := { options.seen with policy := true } }
  | .warmup, value, options => { options with warmups := value }
  | .reps, value, options => { options with reps := value }
  | .blockSize, value, options =>
      { options with blockSize := value, seen := { options.seen with blockSize := true } }
  | .gridSize, value, options =>
      { options with gridSize := value, seen := { options.seen with gridSize := true } }
  | .k1, value, options =>
      { options with k1 := value, seen := { options.seen with k1 := true } }
  | .timings, _, options => { options with seen := { options.seen with timings := true } }

/-- An option and its value. -/
abbrev Setting := Σ id : OptionId, id.Value

/-- One setting after another. -/
def applySettings (settings : List Setting) (options : SqOptions) : SqOptions :=
  settings.foldl (fun options setting => setting.1.assign setting.2 options) options

theorem OptionId.assign_comm {id id' : OptionId} (different : id ≠ id') (value : id.Value)
    (value' : id'.Value) (options : SqOptions) :
    id.assign value (id'.assign value' options) =
      id'.assign value' (id.assign value options) := by
  cases id <;> cases id' <;> first | rfl | exact absurd rfl different

theorem store_eq_ok_iff {α : Type} {parsed : Option α} {failure : SqStatus}
    {assign : α → SqOptions} {result : SqOptions} :
    store parsed failure assign = .ok result ↔
      ∃ value, parsed = some value ∧ result = assign value := by
  constructor
  · exact store_eq_ok
  · rintro ⟨value, rfl, rfl⟩
    rfl

/-- An option sets what its text denotes, whatever the options before. -/
theorem applyOption_eq_ok_iff {strtof : String → Option F32} {command : SqCommand}
    {id : OptionId} (named : id ≠ .timings) {text : String} {options result : SqOptions} :
    applyOption strtof command id text options = .ok result ↔
      ∃ value, id.parse strtof command text = some value ∧ result = id.assign value options := by
  cases id with
  | input | output | words =>
      simp [applyOption, OptionId.parse, OptionId.assign, eq_comm]
  | timings => exact absurd rfl named
  | _ => exact store_eq_ok_iff

/-! ## Arguments as settings -/

section

variable {strtof : String → Option F32} {command : SqCommand}

/-- The command takes the option. -/
def OptionId.TakenBy (id : OptionId) (command : SqCommand) : Prop :=
  ∃ row ∈ optionTable, row.2.1 = id ∧ command ∈ row.2.2

instance (id : OptionId) (command : SqCommand) : Decidable (id.TakenBy command) :=
  inferInstanceAs (Decidable (∃ row ∈ optionTable, _))

theorem findOption_takenBy {name : String} {id : OptionId}
    (found : findOption command name = some id) : id.TakenBy command := by
  obtain ⟨row, rowFound, rfl⟩ := Option.map_eq_some_iff.mp found
  have matching := List.find?_some rowFound
  rw [decide_eq_true_eq] at matching
  exact ⟨row, List.mem_of_find?_eq_some rowFound, rfl, matching.1⟩

variable (strtof command) in
/-- Arguments that are read as whole options: the flag, and pairs of an option and its
value. -/
inductive ReadsAs : List String → List Setting → Prop
  | nil : ReadsAs [] []
  | flag {name : String} {rest : List String} {settings : List Setting}
      (found : findOption command name = some .timings) (reads : ReadsAs rest settings) :
      ReadsAs (name :: rest) (⟨.timings, ()⟩ :: settings)
  | pair {name text : String} {id : OptionId} {value : id.Value} {rest : List String}
      {settings : List Setting} (found : findOption command name = some id)
      (named : id ≠ .timings) (denotes : id.parse strtof command text = some value)
      (reads : ReadsAs rest settings) :
      ReadsAs (name :: text :: rest) (⟨id, value⟩ :: settings)

theorem parseArguments_flag {name : String} {rest : List String} {options : SqOptions}
    (found : findOption command name = some .timings) :
    parseArguments strtof command (name :: rest) options =
      parseArguments strtof command rest (OptionId.timings.assign () options) := by
  rw [parseArguments, found]
  rfl

theorem parseArguments_pair {name text : String} {id : OptionId} {rest : List String}
    {options result : SqOptions} (found : findOption command name = some id)
    (named : id ≠ .timings) :
    parseArguments strtof command (name :: text :: rest) options = .ok result ↔
      ∃ value, id.parse strtof command text = some value ∧
        parseArguments strtof command rest (id.assign value options) = .ok result := by
  constructor
  · intro parsed
    obtain ⟨applied, step, parsed⟩ := parseArguments_value id found named parsed
    obtain ⟨value, denotes, rfl⟩ := (applyOption_eq_ok_iff named).mp step
    exact ⟨value, denotes, parsed⟩
  · rintro ⟨value, denotes, parsed⟩
    have applied : applyOption strtof command id text options = .ok (id.assign value options) :=
      (applyOption_eq_ok_iff named).mpr ⟨value, denotes, rfl⟩
    rw [parseArguments, found]
    cases id with
    | timings => exact absurd rfl named
    | _ =>
        dsimp only
        rw [applied]
        exact parsed

theorem parseArguments_eq_ok_iff {arguments : List String} {options result : SqOptions} :
    parseArguments strtof command arguments options = .ok result ↔
      ∃ settings, ReadsAs strtof command arguments settings ∧
        result = applySettings settings options := by
  constructor
  · intro parsed
    fun_induction parseArguments strtof command arguments options with
    | case1 options =>
        cases parsed
        exact ⟨[], .nil, rfl⟩
    | case2 name rest options found ih =>
        obtain ⟨settings, reads, rfl⟩ := ih parsed
        exact ⟨_, .flag found reads, rfl⟩
    | case3 => cases parsed
    | case4 => cases parsed
    | case5 name options id named found text rest applied step ih =>
        obtain ⟨settings, reads, rfl⟩ := ih parsed
        obtain ⟨value, denotes, rfl⟩ := (applyOption_eq_ok_iff named).mp step
        exact ⟨_, .pair found named denotes reads, rfl⟩
    | case6 => cases parsed
  · rintro ⟨settings, reads, rfl⟩
    induction reads generalizing options with
    | nil => rfl
    | flag found _ ih =>
        rw [parseArguments_flag found]
        exact ih
    | pair found named denotes _ ih =>
        rw [parseArguments_pair found named]
        exact ⟨_, denotes, ih⟩

theorem ReadsAs.parse_append {before after : List String} {settings : List Setting}
    (reads : ReadsAs strtof command before settings) {options result : SqOptions} :
    parseArguments strtof command (before ++ after) options = .ok result ↔
      parseArguments strtof command after (applySettings settings options) = .ok result := by
  induction reads generalizing options with
  | nil => rfl
  | flag found _ ih =>
      rw [List.cons_append, parseArguments_flag found, ih]
      rfl
  | @pair name text id value rest settings found named denotes _ ih =>
      rw [List.cons_append, List.cons_append, parseArguments_pair found named]
      constructor
      · rintro ⟨other, denotes', parsed⟩
        obtain rfl : value = other := Option.some.inj (denotes.symm.trans denotes')
        exact ih.mp parsed
      · intro parsed
        exact ⟨value, denotes, ih.mpr parsed⟩

theorem parseArguments_swap {name text name' text' : String} {after : List String}
    {options result : SqOptions}
    (different : findOption command name ≠ findOption command name')
    (named : findOption command name ≠ some .timings)
    (named' : findOption command name' ≠ some .timings)
    (parsed : parseArguments strtof command (name :: text :: name' :: text' :: after) options =
      .ok result) :
    parseArguments strtof command (name' :: text' :: name :: text :: after) options =
      .ok result := by
  obtain ⟨settings, reads, rfl⟩ := parseArguments_eq_ok_iff.mp parsed
  cases reads with
  | flag found _ => exact absurd found named
  | @pair _ _ id value _ _ found notFlag denotes reads =>
      cases reads with
      | flag found' _ => exact absurd found' named'
      | @pair _ _ id' value' _ settings found' notFlag' denotes' reads =>
          have apart : id ≠ id' := by
            rintro rfl
            exact different (found.trans found'.symm)
          refine parseArguments_eq_ok_iff.mpr
            ⟨_, .pair found' notFlag' denotes' (.pair found notFlag denotes reads), ?_⟩
          exact congrArg (applySettings settings)
            (OptionId.assign_comm apart value value' options).symm

/-- What every setting that a command takes preserves holds after all of them. -/
theorem ReadsAs.run {P : SqOptions → Prop} {arguments : List String}
    {settings : List Setting} (reads : ReadsAs strtof command arguments settings)
    (step : ∀ (id : OptionId) (text : String) (value : id.Value), id.TakenBy command →
      id.parse strtof command text = some value →
      ∀ options, P options → P (id.assign value options))
    {options : SqOptions} (start : P options) : P (applySettings settings options) := by
  induction reads generalizing options with
  | nil => exact start
  | @flag name _ _ found _ ih =>
      exact ih (step .timings name () (findOption_takenBy found) rfl options start)
  | pair found _ denotes _ ih =>
      exact ih (step _ _ _ (findOption_takenBy found) denotes options start)

theorem ReadsAs.takenBy {arguments : List String} {settings : List Setting}
    (reads : ReadsAs strtof command arguments settings) :
    ∀ setting ∈ settings, setting.1.TakenBy command := by
  induction reads with
  | nil => simp
  | flag found _ ih => exact List.forall_mem_cons.mpr ⟨findOption_takenBy found, ih⟩
  | pair found _ _ _ ih => exact List.forall_mem_cons.mpr ⟨findOption_takenBy found, ih⟩

end

/-! ## Validation -/

/-- The options that need the CUDA backend. -/
def cudaOnlyOptions : List OptionId := [.blockSize, .gridSize, .k1, .timings]

theorem checkRequired_ok {command : SqCommand} {options : SqOptions}
    (required : checkRequired command options = .ok) :
    (command = .bench → options.reps ≠ 0) ∧
      (command = .expect → options.seen.seeds = true ∧
        options.seedStart ≤ uint64Max - (options.seeds - 1)) := by
  constructor
  · rintro rfl none
    simp [checkRequired, none] at required
  · rintro rfl
    by_contra missing
    have : options.seen.seeds = false ∨ uint64Max - (options.seeds - 1) < options.seedStart := by
      by_contra both
      push Not at both
      exact missing ⟨by simpa using both.1, both.2⟩
    rcases this with unseen | late
    · simp [checkRequired, unseen] at required
    · simp [checkRequired, late] at required

/-! ## Legality -/

/-- A row of `backend_table` allows the command. -/
def Backend.AllowedBy (backend : Backend) (command : SqCommand) : Prop :=
  ∃ row ∈ backendTable, row.1 = backend ∧ command ∈ row.2

/-- What the settings of a command preserve. -/
structure Settled (command : SqCommand) (options : SqOptions) : Prop where
  bits : command = .decompress → options.bits = 8
  blockSize : 1 ≤ options.blockSize ∧ options.blockSize ≤ sqCudaMaxBlockSize
  gridSize : options.gridSize ≤ sqCudaMaxGridSize
  threads : options.threads ≤ sqMaxCpuThreads
  backend : options.backend.AllowedBy command
  seeds : options.seeds ≤ uint64Max ∧ (options.seen.seeds = true → 1 ≤ options.seeds)
  policy : options.seen.policy = true → options.transferPolicy ≠ .none

theorem optionsInit_settled (command : SqCommand) : Settled command optionsInit where
  bits := fun _ => rfl
  blockSize := by decide
  gridSize := by decide
  threads := by decide
  backend := by cases command <;> exact ⟨_, List.mem_cons_self, rfl, by decide⟩
  seeds := ⟨Nat.zero_le _, nofun⟩
  policy := nofun

theorem parseBounded_bounds {text : String} {maximum value : ℕ}
    (parsed : parseBounded text maximum = some value) : 1 ≤ value ∧ value ≤ maximum := by
  obtain ⟨-, nonzero, bounded⟩ := parseBounded_eq parsed
  exact ⟨Nat.pos_of_ne_zero nonzero, bounded⟩

theorem parseBackend_allowed {command : SqCommand} {text : String} {backend : Backend}
    (parsed : parseBackend command text = some backend) : backend.AllowedBy command := by
  obtain ⟨row, rowFound, rfl⟩ := Option.map_eq_some_iff.mp parsed
  have matching := List.find?_some rowFound
  rw [decide_eq_true_eq] at matching
  exact ⟨row, List.mem_of_find?_eq_some rowFound, rfl, matching.1⟩

theorem parsePolicy_ne_none {text : String} {policy : SqTransferPolicy}
    (parsed : parsePolicy text = some policy) : policy ≠ .none := by
  rintro rfl
  have member := List.mem_of_find?_eq_some parsed
  revert member
  decide

theorem Settled.assign {strtof : String → Option F32} {command : SqCommand} (id : OptionId)
    (text : String) (value : id.Value) (taken : id.TakenBy command)
    (denotes : id.parse strtof command text = some value) (options : SqOptions)
    (settled : Settled command options) : Settled command (id.assign value options) := by
  obtain ⟨bits, blockSize, gridSize, threads, backend, seeds, policy⟩ := settled
  cases id with
  | bits =>
      refine ⟨?_, blockSize, gridSize, threads, backend, seeds, policy⟩
      rintro rfl
      exact absurd taken (by decide)
  | blockSize =>
      exact ⟨bits, parseBounded_bounds denotes, gridSize, threads, backend, seeds, policy⟩
  | gridSize =>
      exact ⟨bits, blockSize, (parseBounded_bounds denotes).2, threads, backend, seeds, policy⟩
  | threads =>
      exact ⟨bits, blockSize, gridSize, (parseBounded_bounds denotes).2, backend, seeds, policy⟩
  | backend =>
      exact ⟨bits, blockSize, gridSize, threads, parseBackend_allowed denotes, seeds, policy⟩
  | seeds =>
      obtain ⟨parsed, nonzero⟩ := Option.filter_eq_some_iff.mp denotes
      refine ⟨bits, blockSize, gridSize, threads, backend, ?_, policy⟩
      exact ⟨(sqParseU64_eq parsed).2.2.2, fun _ => Nat.pos_of_ne_zero (of_decide_eq_true nonzero)⟩
  | policy =>
      exact ⟨bits, blockSize, gridSize, threads, backend, seeds,
        fun _ => parsePolicy_ne_none denotes⟩
  | _ => exact ⟨bits, blockSize, gridSize, threads, backend, seeds, policy⟩

theorem OptionId.assign_cudaSeen {id : OptionId} (value : id.Value) (options : SqOptions) :
    (id.assign value options).CudaSeen ↔ id ∈ cudaOnlyOptions ∨ options.CudaSeen := by
  cases id <;> simp [OptionId.assign, SqOptions.CudaSeen, cudaOnlyOptions]

theorem applySettings_cudaSeen (settings : List Setting) (options : SqOptions) :
    (applySettings settings options).CudaSeen ↔
      (∃ setting ∈ settings, setting.1 ∈ cudaOnlyOptions) ∨ options.CudaSeen := by
  induction settings generalizing options with
  | nil => simp [applySettings]
  | cons setting settings ih =>
      have unfolded : applySettings (setting :: settings) options =
          applySettings settings (setting.1.assign setting.2 options) := rfl
      rw [unfolded, ih, OptionId.assign_cudaSeen, List.exists_mem_cons_iff, ← or_assoc,
        or_comm (b := setting.1 ∈ cudaOnlyOptions)]

/-- The options of a legal command line, given its settings. -/
structure Legal (command : SqCommand) (settings : List Setting) (options : SqOptions) :
    Prop where
  bits : options.bits = 4 ∨ options.bits = 8
  blockSize : 1 ≤ options.blockSize ∧ options.blockSize ≤ sqCudaMaxBlockSize
  gridSize : options.gridSize ≤ sqCudaMaxGridSize
  threads : options.threads ≤ sqMaxCpuThreads
  backend : options.backend.AllowedBy command
  seeds : command = .expect →
    1 ≤ options.seeds ∧ options.seedStart + options.seeds - 1 ≤ uint64Max
  reps : command = .bench → 1 ≤ options.reps
  row : command = .bench → ∃ row ∈ legalityTable,
    sqCliLegality options.backend options.boundary = some row ∧
      (options.transferPolicy = .none ↔ row.transfers = false)
  cudaOnly : (∃ setting ∈ settings, setting.1 ∈ cudaOnlyOptions) → options.backend = .cuda

theorem sqCliLegality_row {row : SqLegality} (member : row ∈ legalityTable) :
    sqCliLegality row.backend row.boundary = some row := by
  revert row
  decide

theorem resolveBench_policy {command : SqCommand} {options resolved : SqOptions}
    (settled : Settled command options) {row : SqLegality}
    (rowEq : resolveBench options = .ok (resolved, row)) :
    ∃ row ∈ legalityTable, sqCliLegality resolved.backend resolved.boundary = some row ∧
      (resolved.transferPolicy = .none ↔ row.transfers = false) := by
  obtain ⟨member, backend, -, -, -, rfl⟩ := resolveBench_eq rowEq
  refine ⟨row, member, ?_, ?_⟩
  · have found := sqCliLegality_row member
    rw [backend] at found
    exact found
  · dsimp only
    by_cases transfers : row.transfers = true
    · rw [if_neg (not_not.mpr transfers), transfers]
      split
      · simp
      · rename_i seen
        simp [settled.policy (not_not.mp seen)]
    · rw [if_pos transfers]
      simpa using transfers

/-- Parsing and validation, one after the other. -/
def checkedOptions (strtof : String → Option F32) (command : SqCommand) (cudaAvailable : Bool)
    (arguments : List String) : Except SqStatus SqOptions := do
  let options ← sqCliParse strtof command arguments
  sqCliValidate command options cudaAvailable

section

variable {strtof : String → Option F32} {command : SqCommand} {cudaAvailable : Bool}

/-- Settled options that validation accepts are legal. -/
theorem Settled.legal {settings : List Setting} {options result : SqOptions}
    (settled : Settled command options)
    (seen : (∃ setting ∈ settings, setting.1 ∈ cudaOnlyOptions) → options.CudaSeen)
    (taken : ∀ setting ∈ settings, setting.1.TakenBy command)
    (valid : sqCliValidate command options cudaAvailable = .ok result) :
    Legal command settings result := by
  obtain ⟨required, checks⟩ := sqCliValidate_spec valid
  obtain ⟨reps, seeds⟩ := checkRequired_ok required
  have seedRange : command = .expect →
      1 ≤ options.seeds ∧ options.seedStart + options.seeds - 1 ≤ uint64Max := by
    intro expect
    obtain ⟨given, start⟩ := seeds expect
    have positive := settled.seeds.2 given
    have bounded := settled.seeds.1
    omega
  have repetitions : command = .bench → 1 ≤ options.reps := fun bench =>
    Nat.pos_of_ne_zero (reps bench)
  split at checks
  · rename_i decompress
    subst checks decompress
    refine ⟨.inr (settled.bits rfl), settled.blockSize, settled.gridSize, settled.threads,
      settled.backend, seedRange, repetitions, nofun, ?_⟩
    rintro ⟨setting, member, cudaOnly⟩
    have notTaken : ∀ id ∈ cudaOnlyOptions, ¬ id.TakenBy .decompress := by decide
    exact absurd (taken setting member) (notTaken _ cudaOnly)
  obtain ⟨bits, cuda, checks⟩ := checks
  split at checks
  · rename_i bench
    obtain ⟨row, resolved⟩ := checks
    have policy := resolveBench_policy settled resolved
    obtain ⟨-, -, -, -, -, rfl⟩ := resolveBench_eq resolved
    exact ⟨bits, settled.blockSize, settled.gridSize, settled.threads, settled.backend,
      seedRange, repetitions, fun _ => policy, fun given => cuda (seen given)⟩
  · rename_i notBench
    subst checks
    exact ⟨bits, settled.blockSize, settled.gridSize, settled.threads, settled.backend,
      seedRange, repetitions, fun bench => absurd bench notBench, fun given => cuda (seen given)⟩

/-- The settings of an accepted command line make legal options. -/
theorem legal_of_accepted {arguments : List String} {options : SqOptions}
    (accepted : checkedOptions strtof command cudaAvailable arguments = .ok options) :
    ∃ settings, ReadsAs strtof command arguments settings ∧ Legal command settings options := by
  obtain ⟨parsed, parse, valid⟩ := bind_eq_ok.mp accepted
  obtain ⟨settings, reads, rfl⟩ := parseArguments_eq_ok_iff.mp parse
  refine ⟨settings, reads, ?_⟩
  have settled := reads.run Settled.assign (optionsInit_settled command)
  apply settled.legal _ reads.takenBy valid
  exact fun given => (applySettings_cudaSeen settings optionsInit).mpr (.inl given)

/-- An accepted command line is legal, and neighbouring pairs of different options can be
exchanged. -/
theorem checkedOptions_legal {arguments : List String} {options : SqOptions}
    (accepted : checkedOptions strtof command cudaAvailable arguments = .ok options) :
    (∃ settings, ReadsAs strtof command arguments settings ∧ Legal command settings options) ∧
    ∀ before settings name text name' text' after,
      arguments = before ++ name :: text :: name' :: text' :: after →
      ReadsAs strtof command before settings →
      findOption command name ≠ findOption command name' →
      findOption command name ≠ some .timings → findOption command name' ≠ some .timings →
      checkedOptions strtof command cudaAvailable
        (before ++ name' :: text' :: name :: text :: after) = .ok options := by
  refine ⟨legal_of_accepted accepted, ?_⟩
  rintro before settings name text name' text' after rfl reads different named named'
  obtain ⟨parsed, parse, valid⟩ := bind_eq_ok.mp accepted
  have exchanged := parseArguments_swap different named named' (reads.parse_append.mp parse)
  exact bind_eq_ok.mpr ⟨parsed, reads.parse_append.mpr exchanged, valid⟩

end

theorem checkedOptions_legal_ofCuda :
    ∃ options,
      checkedOptions (fun _ => none) .bench true
        ["--input", "in.f32", "--seed", "7", "--backend", "cuda"] = .ok options ∧
      (∃ settings,
        ReadsAs (fun _ => none) .bench
          ["--input", "in.f32", "--seed", "7", "--backend", "cuda"] settings ∧
        Legal .bench settings options) ∧
      checkedOptions (fun _ => none) .bench true
        ["--input", "in.f32", "--backend", "cuda", "--seed", "7"] = .ok options := by
  have accepted : checkedOptions (fun _ => none) .bench true
      ["--input", "in.f32", "--seed", "7", "--backend", "cuda"] =
        .ok { optionsInit with
          inputPath := some "in.f32"
          seed := 7
          backend := .cuda
          boundary := .hostOrigin
          transferPolicy := .pageable
          seen := { optionsInit.seen with seed := true } } := rfl
  obtain ⟨legal, exchange⟩ := checkedOptions_legal accepted
  have input : ReadsAs (fun _ => none) .bench ["--input", "in.f32"] [⟨.input, "in.f32"⟩] :=
    .pair rfl (by decide) rfl .nil
  refine ⟨_, accepted, legal, ?_⟩
  exact exchange ["--input", "in.f32"] _ "--seed" "7" "--backend" "cuda" [] rfl input
    (by decide) (by decide) (by decide)

end Stoquant

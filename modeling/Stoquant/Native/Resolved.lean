import Stoquant.Native.Extra

/-!
# A bench command that the command line accepts

What an accepted command of the driver sets, which legality row it resolves to,
and what the driver expects of it.
-/

namespace Stoquant

open Text

/-- The options after the fixed part of a command. -/
structure FixedParsed (request : BenchRequest) (options : SqOptions) : Prop where
  seed : (options.seed : ℤ) = request.seed
  bits : (options.bits : ℤ) = request.bits
  tensorId : options.tensorId = 0
  invocationId : options.invocationId = 0
  backend : options.backend.text = request.backend
  warmups : (options.warmups : ℤ) = request.warmups
  reps : (options.reps : ℤ) = request.reps
  k1 : request.backend = "cuda" → sqK1Name options.k1 = request.k1
  blockSize : options.blockSize = 256
  gridSize : options.gridSize = 0
  scaleSeen : options.seen.scale = false
  boundarySeen : options.seen.boundary = false
  policySeen : options.seen.policy = false
  threadsSeen : options.seen.threads = false

theorem parseBackend_eq {command : SqCommand} {text : String} {backend : Backend}
    (accepted : parseBackend command text = some backend) : backend.text = text := by
  obtain ⟨row, found, rfl⟩ := Option.map_eq_some_iff.mp accepted
  have named := List.find?_some found
  rw [decide_eq_true_eq] at named
  exact named.2

theorem parseK1_eq {text : String} {variant : K1Variant}
    (accepted : parseK1 text = some variant) : sqK1Name variant = text := by
  unfold parseK1 at accepted
  split at accepted
  · rename_i same
    cases accepted
    exact same.symm
  · split at accepted
    · rename_i same
      cases accepted
      exact same.symm
    · cases accepted

theorem parse_fixedStart {strtof : String → Option F32} {inputPath : String}
    {request : BenchRequest} {rest : List String} {options : SqOptions}
    (accepted : parseArguments strtof .bench
      (["--input", inputPath, "--seed", decimal request.seed, "--bits", decimal request.bits,
        "--tensor-id", "0", "--invocation-id", "0", "--backend", request.backend] ++ rest)
      optionsInit = .ok options) :
    ∃ seed bits : ℕ, ∃ backend : Backend,
      (seed : ℤ) = request.seed ∧ (bits : ℤ) = request.bits ∧
      backend.text = request.backend ∧
      parseArguments strtof .bench rest { optionsInit with
        inputPath := some inputPath
        seed
        bits
        backend
        seen := { optionsInit.seen with seed := true } } = .ok options := by
  simp only [List.cons_append, List.nil_append] at accepted
  obtain ⟨first, input, accepted⟩ :=
    parseArguments_value .input rfl (by decide) accepted
  obtain ⟨second, step, accepted⟩ :=
    parseArguments_value .seed rfl (by decide) accepted
  obtain ⟨seed, seedEq, secondEq⟩ := store_eq_ok step
  obtain ⟨third, step, accepted⟩ :=
    parseArguments_value .bits rfl (by decide) accepted
  obtain ⟨bits, bitsEq, thirdEq⟩ := store_eq_ok step
  obtain ⟨fourth, tensorId, accepted⟩ :=
    parseArguments_value .tensorId rfl (by decide) accepted
  obtain ⟨fifth, invocationId, accepted⟩ :=
    parseArguments_value .invocationId rfl (by decide) accepted
  obtain ⟨sixth, step, accepted⟩ :=
    parseArguments_value .backend rfl (by decide) accepted
  obtain ⟨backend, backendEq, sixthEq⟩ := store_eq_ok step
  have zero : sqParseU64 "0" = some 0 := rfl
  simp only [applyOption, zero, store, Except.ok.injEq] at tensorId invocationId input
  refine ⟨seed, bits, backend, sqParseU64_decimal seedEq, sqParseU64_decimal bitsEq,
    parseBackend_eq backendEq, ?_⟩
  subst input
  subst secondEq
  subst thirdEq
  subst tensorId
  subst invocationId
  subst sixthEq
  exact accepted

theorem parse_fixedEnd {strtof : String → Option F32} {request : BenchRequest}
    {rest : List String} {before options : SqOptions}
    (accepted : parseArguments strtof .bench
      (["--warmup", decimal request.warmups, "--reps", decimal request.reps] ++ rest) before =
      .ok options) :
    ∃ warmups reps : ℕ, (warmups : ℤ) = request.warmups ∧ (reps : ℤ) = request.reps ∧
      parseArguments strtof .bench rest { before with warmups, reps } = .ok options := by
  simp only [List.cons_append, List.nil_append] at accepted
  obtain ⟨first, step, accepted⟩ :=
    parseArguments_value .warmup rfl (by decide) accepted
  obtain ⟨warmups, warmupsEq, firstEq⟩ := store_eq_ok step
  obtain ⟨second, step, accepted⟩ :=
    parseArguments_value .reps rfl (by decide) accepted
  obtain ⟨reps, repsEq, secondEq⟩ := store_eq_ok step
  refine ⟨warmups, reps, sqParseU64_decimal warmupsEq, sqParseU64_decimal repsEq, ?_⟩
  subst firstEq
  subst secondEq
  exact accepted

theorem parse_k1Args {strtof : String → Option F32} {request : BenchRequest}
    {rest : List String} {before options : SqOptions}
    (accepted : parseArguments strtof .bench
      (k1Args request.backend request.k1 ++ rest) before = .ok options) :
    ∃ (k1 : K1Variant) (k1Seen : Bool),
      (request.backend = "cuda" → sqK1Name k1 = request.k1) ∧
      parseArguments strtof .bench rest
        { before with k1, seen := { before.seen with k1 := k1Seen } } = .ok options := by
  by_cases cuda : request.backend = "cuda"
  · simp only [k1Args, if_pos cuda, List.cons_append, List.nil_append] at accepted
    obtain ⟨first, step, accepted⟩ := parseArguments_value .k1 rfl (by decide) accepted
    obtain ⟨k1, k1Eq, rfl⟩ := store_eq_ok step
    exact ⟨k1, true, fun _ => parseK1_eq k1Eq, accepted⟩
  · simp only [k1Args, if_neg cuda, List.nil_append] at accepted
    exact ⟨before.k1, before.seen.k1, fun same => absurd same cuda, accepted⟩

/-- Parsing the command of the driver. -/
theorem parse_benchCommand {strtof : String → Option F32} {inputPath : String}
    {request : BenchRequest} {extra : List (ExtraOption × String)}
    (arguments : request.extraArgs = extraArguments extra) {options : SqOptions}
    (accepted : sqCliParse strtof .bench (benchCommand inputPath request) = .ok options) :
    ∃ fixed, FixedParsed request fixed ∧ ExtraParsed extra fixed options := by
  rw [sqCliParse, benchCommand, List.append_assoc, List.append_assoc, arguments] at accepted
  obtain ⟨seed, bits, backend, seedEq, bitsEq, backendEq, accepted⟩ := parse_fixedStart accepted
  obtain ⟨k1, k1Seen, k1Eq, accepted⟩ := parse_k1Args accepted
  obtain ⟨warmups, reps, warmupsEq, repsEq, accepted⟩ := parse_fixedEnd accepted
  refine ⟨_, ?_, parseArguments_extra accepted⟩
  exact
    { seed := seedEq
      bits := bitsEq
      tensorId := rfl
      invocationId := rfl
      backend := backendEq
      warmups := warmupsEq
      reps := repsEq
      k1 := k1Eq
      blockSize := rfl
      gridSize := rfl
      scaleSeen := rfl
      boundarySeen := rfl
      policySeen := rfl
      threadsSeen := rfl }

/-- Resolving a bench line picks a row of the legality table. -/
theorem resolveBench_eq {options resolved : SqOptions} {row : SqLegality}
    (accepted : resolveBench options = .ok (resolved, row)) :
    row ∈ legalityTable ∧ row.backend = options.backend ∧
      (options.seen.boundary = true → row.boundary = options.boundary) ∧
      (options.seen.boundary = false → row.isDefault = true) ∧
      (options.seen.policy = true → row.transfers = true) ∧
      resolved = { options with
        boundary := row.boundary
        transferPolicy :=
          if ¬ row.transfers then .none
          else if ¬ options.seen.policy then .pageable
          else options.transferPolicy } := by
  simp only [resolveBench] at accepted
  split at accepted
  · cases accepted
  · rename_i found rowFound
    split at accepted
    · cases accepted
    · rename_i policy
      cases accepted
      have chosen : row ∈ legalityTable ∧ row.backend = options.backend ∧
          (options.seen.boundary = true → row.boundary = options.boundary) ∧
          (options.seen.boundary = false → row.isDefault = true) := by
        by_cases seen : options.seen.boundary = true
        · rw [if_pos seen] at rowFound
          have named := List.find?_some rowFound
          rw [decide_eq_true_eq] at named
          exact ⟨List.mem_of_find?_eq_some rowFound, named.1, fun _ => named.2,
            fun unseen => absurd (seen.symm.trans unseen) (by decide)⟩
        · rw [if_neg seen] at rowFound
          have named := List.find?_some rowFound
          rw [decide_eq_true_eq] at named
          exact ⟨List.mem_of_find?_eq_some rowFound, named.1, fun given => absurd given seen,
            fun _ => named.2⟩
      obtain ⟨member, backend, boundary, default⟩ := chosen
      refine ⟨member, backend, boundary, default, ?_, rfl⟩
      intro seen
      by_contra noTransfer
      exact policy ⟨seen, noTransfer⟩

/-- An option that needs the CUDA backend was given. -/
def SqOptions.CudaSeen (options : SqOptions) : Prop :=
  options.seen.blockSize = true ∨ options.seen.gridSize = true ∨ options.seen.k1 = true ∨
    options.seen.timings = true

theorem checks_eq_ok {first second : Prop} [Decidable first] [Decidable second]
    {failure failure' : SqStatus} {options result : SqOptions}
    (passed : (do
        if first then throw failure
        if second then throw failure'
        return options : Except SqStatus SqOptions) = .ok result) :
    ¬ first ∧ options = result := by
  by_cases one : first
  · rw [if_pos one] at passed
    cases passed
  · rw [if_neg one] at passed
    by_cases two : second
    · rw [if_pos two] at passed
      cases passed
    · rw [if_neg two] at passed
      exact ⟨one, Except.ok.inj passed⟩

/-- What validation checks for every command, with and without a CUDA device. -/
theorem sqCliValidate_spec {command : SqCommand} {options result : SqOptions}
    {cudaAvailable : Bool}
    (valid : sqCliValidate command options cudaAvailable = .ok result) :
    checkRequired command options = .ok ∧
      if command = .decompress then result = options
      else
        (options.bits = 4 ∨ options.bits = 8) ∧
          (options.CudaSeen → options.backend = .cuda) ∧
          if command = .bench then ∃ row, resolveBench options = .ok (result, row)
          else result = options := by
  simp only [sqCliValidate] at valid
  split at valid
  · cases valid
  rename_i required
  refine ⟨not_not.mp required, ?_⟩
  split at valid
  · rename_i decompress
    rw [if_pos decompress]
    exact (Except.ok.inj valid).symm
  rename_i other
  rw [if_neg other]
  split at valid
  · cases valid
  rename_i width
  split at valid
  · cases valid
  rename_i geometry
  have bits : options.bits = 4 ∨ options.bits = 8 := by
    by_contra neither
    exact width (not_or.mp neither)
  have cuda : (options.seen.timings = true → options.backend = .cuda) →
      options.CudaSeen → options.backend = .cuda := by
    intro timings given
    by_contra notCuda
    rcases given with blockSize | gridSize | k1 | seen
    · exact geometry ⟨notCuda, .inl blockSize⟩
    · exact geometry ⟨notCuda, .inr (.inl gridSize)⟩
    · exact geometry ⟨notCuda, .inr (.inr k1)⟩
    · exact notCuda (timings seen)
  refine ⟨bits, ?_⟩
  split at valid
  · obtain ⟨⟨next, row⟩, resolved, valid⟩ := bind_eq_ok.mp valid
    obtain ⟨noTimings, rfl⟩ := checks_eq_ok valid
    rw [if_pos ‹_›]
    refine ⟨cuda ?_, row, resolved⟩
    obtain ⟨-, -, -, -, -, rfl⟩ := resolveBench_eq resolved
    exact fun seen => by_contra fun notCuda => noTimings ⟨seen, notCuda⟩
  · obtain ⟨noTimings, rfl⟩ := checks_eq_ok valid
    rw [if_neg ‹_›]
    exact ⟨cuda fun seen => by_contra fun notCuda => noTimings ⟨seen, notCuda⟩, rfl⟩

/-- What validation of a bench line says besides. -/
theorem sqCliValidate_bench {options resolved : SqOptions}
    (accepted : sqCliValidate .bench options true = .ok resolved) :
    (options.bits = 4 ∨ options.bits = 8) ∧
      (options.backend ≠ .cuda →
        options.seen.blockSize = false ∧ options.seen.gridSize = false) ∧
      ∃ row, resolveBench options = .ok (resolved, row) := by
  obtain ⟨-, bits, cuda, row⟩ := sqCliValidate_spec accepted
  refine ⟨bits, ?_, row⟩
  intro notCuda
  have unseen := mt cuda notCuda
  unfold SqOptions.CudaSeen at unseen
  push Not at unseen
  exact ⟨by simpa using unseen.1, by simpa using unseen.2.1⟩

end Stoquant

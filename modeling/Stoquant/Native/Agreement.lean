import Stoquant.Native.Resolved

/-!
# The driver accepts what the bench prints

The driver and the command line resolve defaults on their own.  They agree on
every accepted command that names the boundary of a CUDA run and whose numerals
are not longer than Python reads; elsewhere the driver refuses the report.
-/

namespace Stoquant

/-- A bench command that gets as far as printing, in terms of the request. -/
structure Printing (run : BenchRun) (request : BenchRequest)
    (extra : List (ExtraOption × String)) (options : SqOptions) (legality : SqLegality)
    (threads : ℕ) : Prop where
  row : legality ∈ legalityTable
  backend : options.backend = legality.backend
  requested : legality.backend.text = request.backend
  seed : (options.seed : ℤ) = request.seed
  bits : (options.bits : ℤ) = request.bits
  width : options.bits = 4 ∨ options.bits = 8
  tensorId : options.tensorId = 0
  invocationId : options.invocationId = 0
  warmups : (options.warmups : ℤ) = request.warmups
  reps : (options.reps : ℤ) = request.reps
  k1 : request.backend = "cuda" → sqK1Name options.k1 = request.k1
  scale : options.seen.scale = false
  boundaryGiven : ∀ text, lastValue extra .boundary = some text →
    parseBoundary text = some legality.boundary
  boundaryDefault : lastValue extra .boundary = none → legality.isDefault = true
  policyGiven : ∀ text, lastValue extra .transferPolicy = some text →
    legality.transfers = true ∧ parsePolicy text = some options.transferPolicy
  policyDefault : lastValue extra .transferPolicy = none →
    options.transferPolicy = if legality.transfers then .pageable else .none
  blockSizeGiven : ∀ text, lastValue extra .blockSize = some text →
    sqParseU64 text = some options.blockSize
  blockSizeDefault : lastValue extra .blockSize = none → options.blockSize = 256
  gridSizeGiven : ∀ text, lastValue extra .gridSize = some text →
    sqParseU64 text = some options.gridSize
  gridSizeDefault : lastValue extra .gridSize = none → options.gridSize = 0
  threadsGiven : ∀ text, lastValue extra .threads = some text →
    legality.backend = .cpuAvx2 ∧ sqParseU64 text = some threads ∧ 0 < threads
  threadsDefault : lastValue extra .threads = none → legality.backend = .cpuAvx2 → 0 < threads
  noThreads : legality.backend ≠ .cpuAvx2 → threads = 0
  range : sqInvocationRangeValid 0 0 options.warmups options.reps legality.idStep = true
  plain : ∀ given ∈ extra, given.2.toList.head? ≠ some '-'

theorem Sets.given {α : Type} {text : Option String} {parse : String → Option α}
    {before after : α} {seenBefore seenAfter : Bool}
    (sets : Sets text parse before after seenBefore seenAfter) :
    ∀ value, text = some value → parse value = some after ∧ seenAfter = true := by
  intro value textEq
  rw [textEq] at sets
  exact sets

theorem Sets.absent {α : Type} {text : Option String} {parse : String → Option α}
    {before after : α} {seenBefore seenAfter : Bool}
    (sets : Sets text parse before after seenBefore seenAfter) :
    text = none → after = before ∧ seenAfter = seenBefore := by
  intro textEq
  rw [textEq] at sets
  exact sets

theorem resolveCpuThreads_eq {supported : Bool} {default threads : ℕ} {options : SqOptions}
    (accepted : resolveCpuThreads supported default options = .ok threads) :
    (options.backend ≠ .cpuAvx2 → options.seen.threads = false ∧ threads = 0) ∧
      (options.backend = .cpuAvx2 →
        threads = if options.seen.threads then options.threads else default) := by
  unfold resolveCpuThreads at accepted
  split at accepted
  · rename_i other
    split at accepted
    · cases accepted
    · rename_i unseen
      cases accepted
      exact ⟨fun _ => ⟨by simpa using unseen, rfl⟩, fun same => absurd same other⟩
  · rename_i avx2
    split at accepted
    · cases accepted
    · cases accepted
      exact ⟨fun other => absurd (not_not.mp avx2) other, fun _ => rfl⟩

theorem legality_of_row {row : SqLegality} (member : row ∈ legalityTable) :
    sqCliLegality row.backend row.boundary = some row := by
  have rows : ∀ row ∈ legalityTable, sqCliLegality row.backend row.boundary = some row := by
    decide
  exact rows row member

/-- An accepted command of the driver. -/
theorem printing_of_accepted {strtof : String → Option F32} {run : BenchRun}
    {inputPath : String} {request : BenchRequest} {extra : List (ExtraOption × String)}
    (arguments : request.extraArgs = extraArguments extra) {options : SqOptions}
    {legality : SqLegality} {threads : ℕ}
    (accepted : benchCommandLine strtof run (benchCommand inputPath request) =
      .ok (options, legality, threads)) :
    Printing run request extra options legality threads := by
  obtain ⟨parsed, parsedEq, accepted⟩ := bind_eq_ok.mp accepted
  obtain ⟨resolved, resolvedEq, accepted⟩ := bind_eq_ok.mp accepted
  obtain ⟨fixed, fixedParsed, extraParsed⟩ := parse_benchCommand arguments parsedEq
  obtain ⟨width, geometry, row, rowEq⟩ := sqCliValidate_bench resolvedEq
  obtain ⟨member, backend, boundary, default, policy, resolvedIs⟩ := resolveBench_eq rowEq
  have found : sqCliLegality resolved.backend resolved.boundary = some row := by
    rw [resolvedIs]
    exact backend ▸ legality_of_row member
  rw [found] at accepted
  obtain ⟨team, teamEq, accepted⟩ := bind_eq_ok.mp accepted
  have final : resolved = options ∧ row = legality ∧ team = threads ∧
      sqInvocationRangeValid resolved.tensorId resolved.invocationId resolved.warmups
        resolved.reps row.idStep = true := by
    by_cases valid : sqInvocationRangeValid resolved.tensorId resolved.invocationId
        resolved.warmups resolved.reps row.idStep = true
    · simp only [valid, not_true_eq_false, if_false, pure, Except.pure, bind, Except.bind,
        Except.ok.injEq, Prod.mk.injEq] at accepted
      exact ⟨accepted.1, accepted.2.1, accepted.2.2, valid⟩
    · simp [valid, throw, throwThe, MonadExceptOf.throw, bind, Except.bind] at accepted
  obtain ⟨rfl, rfl, rfl, range⟩ := final
  -- The fixed part is untouched by the extra options and by validation.
  have untouched := extraParsed.rest
  have same : resolved.backend = fixed.backend ∧ resolved.seed = fixed.seed ∧
      resolved.bits = fixed.bits ∧ resolved.tensorId = fixed.tensorId ∧
      resolved.invocationId = fixed.invocationId ∧ resolved.warmups = fixed.warmups ∧
      resolved.reps = fixed.reps ∧ resolved.k1 = fixed.k1 ∧
      resolved.seen.scale = fixed.seen.scale ∧ resolved.bits = parsed.bits ∧
      resolved.backend = parsed.backend ∧ resolved.blockSize = parsed.blockSize ∧
      resolved.gridSize = parsed.gridSize ∧ resolved.threads = parsed.threads ∧
      resolved.seen = parsed.seen := by
    rw [resolvedIs]
    rw [untouched]
    exact ⟨rfl, rfl, rfl, rfl, rfl, rfl, rfl, rfl, rfl, rfl, rfl, rfl, rfl, rfl, rfl⟩
  obtain ⟨backendEq, seedEq, bitsEq, tensorEq, invocationEq, warmupsEq, repsEq, k1Eq, scaleEq,
    bitsParsed, backendParsed, blockEq, gridEq, threadsEq, seenEq⟩ := same
  have backendRow : row.backend = fixed.backend := by rw [backend, ← backendParsed, backendEq]
  obtain ⟨otherTeam, avx2Team⟩ := resolveCpuThreads_eq teamEq
  have policyIs : resolved.transferPolicy =
      if ¬ row.transfers then .none
      else if ¬ parsed.seen.policy then .pageable
      else parsed.transferPolicy := congrArg SqOptions.transferPolicy resolvedIs
  exact
    { row := member
      backend := by rw [backendParsed, backend]
      requested := by rw [backendRow, fixedParsed.backend]
      seed := by rw [seedEq, fixedParsed.seed]
      bits := by rw [bitsEq, fixedParsed.bits]
      width := by rw [bitsParsed]; exact width
      tensorId := by rw [tensorEq, fixedParsed.tensorId]
      invocationId := by rw [invocationEq, fixedParsed.invocationId]
      warmups := by rw [warmupsEq, fixedParsed.warmups]
      reps := by rw [repsEq, fixedParsed.reps]
      k1 := by rw [k1Eq]; exact fixedParsed.k1
      scale := by rw [scaleEq, fixedParsed.scaleSeen]
      boundaryGiven := by
        intro text given
        obtain ⟨parse, seen⟩ := extraParsed.boundary.given text given
        rw [boundary seen]
        exact parse
      boundaryDefault := by
        intro absent
        obtain ⟨-, seen⟩ := extraParsed.boundary.absent absent
        exact default (seen.trans fixedParsed.boundarySeen)
      policyGiven := by
        intro text given
        obtain ⟨parse, seen⟩ := extraParsed.policy.given text given
        refine ⟨policy seen, ?_⟩
        rw [policyIs]
        simpa [policy seen, seen] using parse
      policyDefault := by
        intro absent
        obtain ⟨-, seen⟩ := extraParsed.policy.absent absent
        rw [policyIs, seen, fixedParsed.policySeen]
        by_cases transfers : row.transfers = true
        · simp [transfers]
        · simp [transfers]
      blockSizeGiven := by
        intro text given
        rw [blockEq]
        exact (parseBounded_eq (extraParsed.blockSize.given text given).1).1
      blockSizeDefault := by
        intro absent
        rw [blockEq, (extraParsed.blockSize.absent absent).1, fixedParsed.blockSize]
      gridSizeGiven := by
        intro text given
        rw [gridEq]
        exact (parseBounded_eq (extraParsed.gridSize.given text given).1).1
      gridSizeDefault := by
        intro absent
        rw [gridEq, (extraParsed.gridSize.absent absent).1, fixedParsed.gridSize]
      threadsGiven := by
        intro text given
        obtain ⟨parse, seen⟩ := extraParsed.threads.given text given
        have avx2 : resolved.backend = .cpuAvx2 := by
          by_contra other
          have unseen := (otherTeam other).1
          rw [seenEq, seen] at unseen
          cases unseen
        have teamIs := avx2Team avx2
        rw [seenEq, seen, if_pos rfl, threadsEq] at teamIs
        obtain ⟨parse, nonzero, -⟩ := parseBounded_eq parse
        rw [teamIs]
        exact ⟨by rw [backend, ← backendParsed, avx2], parse, Nat.pos_of_ne_zero nonzero⟩
      threadsDefault := by
        intro absent avx2
        obtain ⟨-, seen⟩ := extraParsed.threads.absent absent
        have teamIs := avx2Team (by rw [backendParsed, ← backend, avx2])
        rw [seenEq, seen, fixedParsed.threadsSeen] at teamIs
        rw [teamIs]
        exact run.default_pos
      noThreads := by
        intro other
        exact (otherTeam (by rw [backendParsed, ← backend]; exact other)).2
      range := by
        rw [tensorEq, fixedParsed.tensorId, invocationEq, fixedParsed.invocationId] at range
        exact range
      plain := extraParsed.plain }

/-! ## The expected configuration -/

/-- Where the two sides agree: the boundary of a CUDA run is named, and every
numeral that counts is short enough for `int`. -/
structure Agreeing (request : BenchRequest) (extra : List (ExtraOption × String)) : Prop where
  boundary : request.backend = "cuda" → lastValue extra .boundary ≠ none
  numerals : ∀ option ∈ [ExtraOption.blockSize, .gridSize, .threads], ∀ text,
    lastValue extra option = some text → text.toList.length ≤ maxStrDigits

theorem expectedBoundary_text (backend : Backend) :
    expectedBoundary backend.text = some (if backend = .cuda then "resident" else "host-host") := by
  cases backend <;> rfl

theorem row_facts {row : SqLegality} (member : row ∈ legalityTable) :
    (row.transfers = true ↔ row.name = "host-origin" ∨ row.name = "gpu-origin") ∧
    (row.isDefault = true → row.backend ≠ .cuda → row.name = "host-host") ∧
    (row.isDefault = true → row.backend = .cuda → row.name = "host-origin") ∧
    (row.idStep = if row.name = "resident-graph" then 0 else 1) ∧
    (row.boundary = .gpuOrigin → row.name = "gpu-origin") ∧
    (row.boundary = .resident → row.name = "resident") ∧
    (row.boundary = .hostOrigin → row.name = "host-origin") ∧
    (row.boundary = .residentGraph → row.name = "resident-graph") := by
  revert row
  decide

theorem name_of_boundary {row : SqLegality} (member : row ∈ legalityTable) {text : String}
    (parsed : parseBoundary text = some row.boundary) : text = row.name := by
  obtain ⟨-, -, -, -, gpuOrigin, resident, hostOrigin, residentGraph⟩ := row_facts member
  rcases parseBoundary_eq parsed with ⟨rfl, same⟩ | ⟨rfl, same⟩ | ⟨rfl, same⟩ | ⟨rfl, same⟩
  · exact (gpuOrigin same).symm
  · exact (resident same).symm
  · exact (hostOrigin same).symm
  · exact (residentGraph same).symm

theorem sqTransferPolicyName_cases (policy : SqTransferPolicy) :
    sqTransferPolicyName policy ∈ ["none", "pageable", "pinned"] ∧
      sqTransferPolicyName policy ≠ "" ∧
      (sqTransferPolicyName policy = "none" ↔ policy = .none) := by
  cases policy <;> decide

section Expected

variable {run : BenchRun} {request : BenchRequest} {extra : List (ExtraOption × String)}
  {options : SqOptions} {legality : SqLegality} {threads : ℕ}

theorem intOption_extra (arguments : request.extraArgs = extraArguments extra)
    (plain : ∀ given ∈ extra, given.2.toList.head? ≠ some '-') (option : ExtraOption)
    (default : String) {value : ℕ}
    (given : ∀ text, lastValue extra option = some text → sqParseU64 text = some value)
    (absent : lastValue extra option = none → sqParseU64 default = some value)
    (short : default.toList.length ≤ maxStrDigits) :
    ((∀ text, lastValue extra option = some text → text.toList.length ≤ maxStrDigits) →
      intOption request.extraArgs option.name default = .ok (value : ℤ)) ∧
    ∀ result, intOption request.extraArgs option.name default = .ok result →
      ∀ text, lastValue extra option = some text → text.toList.length ≤ maxStrDigits := by
  have found : intOption request.extraArgs option.name default =
      pyInt ((lastValue extra option).getD default) := by
    rw [intOption, arguments, optionValue_extra option (some default) plain]
    cases last : lastValue extra option with
    | none =>
        have nonempty : default ≠ "" := by
          rintro rfl
          exact absurd (absent last) (by simp [sqParseU64])
        simp [bind, Except.bind]
    | some text =>
        have nonempty : text ≠ "" := by
          rintro rfl
          exact absurd (given "" last) (by simp [sqParseU64])
        simp [bind, Except.bind, nonempty]
  rw [found]
  cases last : lastValue extra option with
  | none =>
      constructor
      · intro _
        exact (pyInt_of_sqParseU64 (absent last)).1 short
      · intro result _ text impossible
        cases impossible
  | some text =>
      obtain ⟨shortRead, longFails⟩ := pyInt_of_sqParseU64 (given text last)
      constructor
      · intro shortText
        exact shortRead (shortText text rfl)
      · intro result read other same
        cases same
        by_contra long
        obtain ⟨failure, failed⟩ := longFails (Nat.lt_of_not_le long)
        rw [Option.getD_some, failed] at read
        cases read

theorem expectedPolicy_printing (repr : PyRepr)
    (printing : Printing run request extra options legality threads) :
    expectedPolicy repr legality.name (lastValue extra .transferPolicy) =
      .ok (sqTransferPolicyName options.transferPolicy) := by
  obtain ⟨transfersIff, -⟩ := row_facts printing.row
  obtain ⟨known, nonempty, noneIff⟩ := sqTransferPolicyName_cases options.transferPolicy
  have policyEq : (if (lastValue extra .transferPolicy).getD "" = "" then
        (if legality.name = "host-origin" ∨ legality.name = "gpu-origin" then "pageable"
          else "none")
      else (lastValue extra .transferPolicy).getD "") =
      sqTransferPolicyName options.transferPolicy := by
    cases last : lastValue extra .transferPolicy with
    | none =>
        rw [printing.policyDefault last]
        by_cases transfers : legality.transfers = true
        · simp [transfersIff.mp transfers, transfers, sqTransferPolicyName]
        · have noTransfer := fun named => transfers (transfersIff.mpr named)
          simp [if_neg noTransfer, transfers, sqTransferPolicyName]
    | some text =>
        obtain ⟨textEq, -⟩ := parsePolicy_eq (printing.policyGiven text last).2
        simp [textEq, nonempty]
  have consistent : (sqTransferPolicyName options.transferPolicy = "none" ↔
      ¬ (legality.name = "host-origin" ∨ legality.name = "gpu-origin")) := by
    rw [noneIff, ← transfersIff]
    cases last : lastValue extra .transferPolicy with
    | none =>
        rw [printing.policyDefault last]
        by_cases transfers : legality.transfers = true
        · simp [transfers]
        · simp [transfers]
    | some text =>
        obtain ⟨transfers, parsed⟩ := printing.policyGiven text last
        have named := (parsePolicy_eq parsed).2
        simp [transfers, named]
  simp only [expectedPolicy, policyEq]
  rw [if_neg (not_not.mpr known), if_neg]
  intro clash
  rcases clash with ⟨noTransfer, named⟩ | ⟨transfer, unnamed⟩
  · exact named (consistent.mpr noTransfer)
  · exact consistent.mp unnamed transfer

/-- The thread entry that the driver expects. -/
def threadEntry (extra : List (ExtraOption × String)) (threads : ℕ) : Expected :=
  if lastValue extra .threads = none then .anyThreads else .number threads

theorem expectedThreads_printing (arguments : request.extraArgs = extraArguments extra)
    (printing : Printing run request extra options legality threads) :
    ((∀ text, lastValue extra .threads = some text → text.toList.length ≤ maxStrDigits) →
      expectedThreads request = .ok (if request.backend = "cpu-avx2" then
        [("threads", threadEntry extra threads)] else [])) ∧
    ∀ result, expectedThreads request = .ok result →
      ∀ text, lastValue extra .threads = some text → text.toList.length ≤ maxStrDigits := by
  have avx2Iff : request.backend = "cpu-avx2" ↔ legality.backend = .cpuAvx2 := by
    rw [← printing.requested]
    cases legality.backend <;> decide
  by_cases avx2 : request.backend = "cpu-avx2"
  · have found : optionValue request.extraArgs "--threads" none =
        .ok (lastValue extra .threads) := by
      rw [arguments]
      have last := optionValue_extra .threads none printing.plain
      rwa [Option.or_none] at last
    simp only [expectedThreads, if_pos avx2, found, bind, Except.bind]
    cases last : lastValue extra .threads with
    | none =>
        constructor
        · intro _
          simp [threadEntry, last, pure, Except.pure]
        · intro result _ text impossible
          cases impossible
    | some text =>
        obtain ⟨shortRead, longFails⟩ := pyInt_of_sqParseU64 (printing.threadsGiven text last).2.1
        constructor
        · intro short
          simp [threadEntry, last, shortRead (short text rfl), pure, Except.pure]
        · intro result read other same
          cases same
          by_contra long
          obtain ⟨failure, failed⟩ := longFails (Nat.lt_of_not_le long)
          simp [failed] at read
  · have noText : lastValue extra .threads = none := by
      cases last : lastValue extra .threads with
      | none => rfl
      | some text => exact absurd (avx2Iff.mpr (printing.threadsGiven text last).1) avx2
    rw [noText]
    simp [expectedThreads, avx2]

/-- The configuration that the driver expects is the one the command line
resolved, and it is computed exactly when both sides agree. -/
theorem expectedConfiguration_printing (repr : PyRepr)
    (arguments : request.extraArgs = extraArguments extra)
    (printing : Printing run request extra options legality threads)
    (agreeing : Agreeing request extra) :
    expectedConfiguration repr request =
      .ok (legality.name, expectedEntries request legality.name
        (sqTransferPolicyName options.transferPolicy) options.blockSize options.gridSize
        (if request.backend = "cpu-avx2" then [("threads", threadEntry extra threads)]
        else [])) := by
  have boundary := optionValue_extra .boundary
    (some (if legality.backend = .cuda then "resident" else "host-host")) printing.plain
  have policy := optionValue_extra .transferPolicy none printing.plain
  have block := (intOption_extra arguments printing.plain .blockSize "256"
    printing.blockSizeGiven (fun absent => by rw [printing.blockSizeDefault absent]; rfl)
    (by decide)).1 (agreeing.numerals _ (by simp))
  have grid := (intOption_extra arguments printing.plain .gridSize "0"
    printing.gridSizeGiven (fun absent => by rw [printing.gridSizeDefault absent]; rfl)
    (by decide)).1 (agreeing.numerals _ (by simp))
  have team := (expectedThreads_printing arguments printing).1
    (agreeing.numerals _ (by simp))
  have named : ((lastValue extra .boundary).or
      (some (if legality.backend = .cuda then "resident" else "host-host"))).getD
      (if legality.backend = .cuda then "resident" else "host-host") = legality.name := by
    cases last : lastValue extra .boundary with
    | some text => exact name_of_boundary printing.row (printing.boundaryGiven text last)
    | none =>
        have notCuda : legality.backend ≠ .cuda := by
          intro cuda
          apply agreeing.boundary _ last
          rw [← printing.requested, cuda]
          rfl
        obtain ⟨-, hostHost, -⟩ := row_facts printing.row
        simp [if_neg notCuda, hostHost (printing.boundaryDefault last) notCuda]
  rw [Option.or_none] at policy
  rw [← arguments] at boundary policy
  have defaultEq : expectedBoundary request.backend =
      some (if legality.backend = .cuda then "resident" else "host-host") := by
    rw [← printing.requested]
    exact expectedBoundary_text legality.backend
  simp only [ExtraOption.name] at boundary policy block grid
  simp only [expectedConfiguration, defaultEq, boundary, policy, named, block, grid, team,
    expectedPolicy_printing repr printing, bind, Except.bind, pure, Except.pure]

/-- A configuration that the driver computes for a printed report has the
boundary of the report only where both sides agree. -/
theorem agreeing_of_expectedConfiguration {repr : PyRepr}
    (arguments : request.extraArgs = extraArguments extra)
    (printing : Printing run request extra options legality threads)
    {expected : List (String × Expected)}
    (computed : expectedConfiguration repr request = .ok (legality.name, expected)) :
    Agreeing request extra := by
  have defaultEq : expectedBoundary request.backend =
      some (if legality.backend = .cuda then "resident" else "host-host") := by
    rw [← printing.requested]
    exact expectedBoundary_text legality.backend
  simp only [expectedConfiguration, defaultEq] at computed
  obtain ⟨boundary, boundaryEq, computed⟩ := bind_eq_ok.mp computed
  obtain ⟨given, givenEq, computed⟩ := bind_eq_ok.mp computed
  obtain ⟨policy, policyEq, computed⟩ := bind_eq_ok.mp computed
  obtain ⟨blockSize, blockEq, computed⟩ := bind_eq_ok.mp computed
  obtain ⟨gridSize, gridEq, computed⟩ := bind_eq_ok.mp computed
  obtain ⟨team, teamEq, computed⟩ := bind_eq_ok.mp computed
  have pair := Prod.mk.inj (Except.ok.inj computed)
  have block := (intOption_extra arguments printing.plain .blockSize "256"
    printing.blockSizeGiven (fun absent => by rw [printing.blockSizeDefault absent]; rfl)
    (by decide)).2 _ blockEq
  have grid := (intOption_extra arguments printing.plain .gridSize "0"
    printing.gridSizeGiven (fun absent => by rw [printing.gridSizeDefault absent]; rfl)
    (by decide)).2 _ gridEq
  have threadText := (expectedThreads_printing arguments printing).2 _ teamEq
  refine ⟨?_, ?_⟩
  · intro cuda absent
    have backend : legality.backend = .cuda := by
      have text := printing.requested.trans cuda
      revert text
      cases legality.backend <;> decide
    have found := optionValue_extra .boundary
      (some (if legality.backend = .cuda then "resident" else "host-host")) printing.plain
    rw [← arguments] at found
    have boundaryIs := Except.ok.inj (boundaryEq.symm.trans found)
    rw [absent, if_pos backend] at boundaryIs
    obtain ⟨-, -, hostOrigin, -⟩ := row_facts printing.row
    have named := pair.1
    rw [boundaryIs, hostOrigin (printing.boundaryDefault absent) backend] at named
    simp [backend] at named
  · intro option member
    simp only [List.mem_cons, List.not_mem_nil, or_false] at member
    rcases member with rfl | rfl | rfl
    · exact block
    · exact grid
    · exact threadText

end Expected

end Stoquant

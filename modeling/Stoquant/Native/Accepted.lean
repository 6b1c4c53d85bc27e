import Stoquant.Native.Agreement

/-!
# The validator against the report

Every printed field passes the check of its entry, so a report is accepted
exactly where the driver and the command line resolve the same configuration.
-/

namespace Stoquant

section Report

variable {run : BenchRun} {request : BenchRequest} {extra : List (ExtraOption × String)}
  {options : SqOptions} {legality : SqLegality} {threads : ℕ}

theorem forM_eq_ok {α : Type} {items : List α} {check : α → Except ResponseFailure Unit} :
    items.forM check = .ok () ↔ ∀ item ∈ items, check item = .ok () := by
  induction items with
  | nil => simp [pure, Except.pure]
  | cons item items induction =>
      have unfolded : (item :: items).forM check =
          (check item >>= fun _ => items.forM check) := rfl
      rw [unfolded, bind_eq_ok]
      constructor
      · intro accepted
        obtain ⟨⟨⟩, first, rest⟩ := accepted
        intro other member
        rcases List.mem_cons.mp member with rfl | later
        · exact first
        · exact induction.mp rest other later
      · intro each
        exact ⟨(), each item List.mem_cons_self,
          induction.mpr fun other member => each other (List.mem_cons_of_mem _ member)⟩

theorem validateEchoedValue_of_echoes {repr : PyRepr} {configuration : List (String × Json)}
    {field : String} {expected : Expected} {actual : Json}
    (found : Dict.get? configuration field = some actual)
    (same : echoes actual expected = true) :
    validateEchoedValue repr configuration (field, expected) = .ok () := by
  cases expected <;> simp [validateEchoedValue, found, same]

theorem echoes_of_validateEchoedValue {repr : PyRepr} {configuration : List (String × Json)}
    {field text : String} {actual : Json}
    (found : Dict.get? configuration field = some actual)
    (accepted : validateEchoedValue repr configuration (field, .text text) = .ok ()) :
    echoes actual (.text text) = true := by
  by_contra different
  simp [validateEchoedValue, found, different] at accepted

theorem printInvocationIds_echoes (printing : Printing run request extra options legality threads) :
    echoes (printInvocationIds (benchResult run options legality threads) options.reps
        options.warmups)
      (.ids (expectedIds 0 request.reps (if legality.name = "resident-graph" then 0 else 1))) =
        true ∧
    echoes (printInvocationIds (benchResult run options legality threads) options.warmups 0)
      (.ids (expectedIds request.reps request.warmups
        (if legality.name = "resident-graph" then 0 else 1))) = true := by
  obtain ⟨-, -, -, stepEq, -⟩ := row_facts printing.row
  have range := printing.range
  have limit : uint64Max = 18446744073709551615 := by norm_num [uint64Max]
  have narrow : uint32Max = 4294967295 := by norm_num [uint32Max]
  have wide : (2 : ℕ) ^ 64 = 18446744073709551616 := by norm_num
  have step : legality.idStep = 0 ∨ legality.idStep = 1 := by
    rw [stepEq]
    by_cases graph : legality.name = "resident-graph"
    · simp [graph]
    · simp [graph]
  have total : legality.idStep = 1 → options.warmups + options.reps ≤ uint32Max + 1 := by
    intro one
    rw [one] at range
    by_contra large
    have big : ¬ options.warmups + options.reps - 1 ≤ uint32Max := by omega
    simp [sqInvocationRangeValid, big] at range
  have stepValue : ((legality.idStep : ℕ) : ℤ) =
      if legality.name = "resident-graph" then 0 else 1 := by
    rw [stepEq]
    by_cases graph : legality.name = "resident-graph"
    · simp [graph]
    · simp [graph]
  have repsNat : request.reps.toNat = options.reps := by
    rw [← printing.reps]
    exact Int.toNat_natCast _
  have warmupsNat : request.warmups.toNat = options.warmups := by
    rw [← printing.warmups]
    exact Int.toNat_natCast _
  have printed : ∀ (count : ℕ) (index : ℕ → ℕ) (expected : List ℤ),
      (List.range count).map (fun i => ((sqRunInvocationId 0 options.warmups options.reps
        (index i) legality.idStep : ℕ) : ℤ)) = expected →
      echoes (.arr ((List.range count).map fun i =>
        .int (sqRunInvocationId 0 options.warmups options.reps (index i) legality.idStep)))
        (.ids expected) = true := by
    intro count index expected same
    have items := intItems_map_int ((List.range count).map fun i =>
      ((sqRunInvocationId 0 options.warmups options.reps (index i) legality.idStep : ℕ) : ℤ))
    rw [List.map_map, same] at items
    simp only [echoes, decide_eq_true_eq]
    exact items
  simp only [printInvocationIds, benchResult, printing.invocationId]
  constructor
  · apply printed
    rw [expectedIds, repsNat]
    apply List.map_congr_left
    intro i member
    have inside := List.mem_range.mp member
    have id : sqRunInvocationId 0 options.warmups options.reps
        ((options.warmups + i) % 2 ^ 64) legality.idStep = i * legality.idStep := by
      rcases step with none | one
      · simp [sqRunInvocationId, none]
      · have bound := total one
        have later : ¬ options.warmups + i < options.warmups := by omega
        rw [Nat.mod_eq_of_lt (by omega), sqRunInvocationId, if_neg later,
          Nat.add_sub_cancel_left, Nat.zero_add, one, Nat.mod_eq_of_lt (by omega)]
    rw [id, ← stepValue]
    push_cast
    ring
  · apply printed
    rw [expectedIds, warmupsNat]
    apply List.map_congr_left
    intro i member
    have inside := List.mem_range.mp member
    have id : sqRunInvocationId 0 options.warmups options.reps ((0 + i) % 2 ^ 64)
        legality.idStep = (options.reps + i) * legality.idStep := by
      rcases step with none | one
      · simp [sqRunInvocationId, none]
      · have bound := total one
        rw [Nat.zero_add, Nat.mod_eq_of_lt (show i < 2 ^ 64 by omega), sqRunInvocationId,
          if_pos inside, Nat.zero_add, one, Nat.mul_one, Nat.mod_mod,
          Nat.mod_eq_of_lt (by omega), Nat.mul_one]
    rw [id, ← stepValue, ← printing.reps]
    push_cast
    ring

/-! ## The configuration that is printed -/

theorem benchConfiguration_nodup (result : BenchResult) :
    (Dict.keys (benchConfiguration result)).Nodup := by
  unfold benchConfiguration
  cases result.k1 with
  | none => by_cases team : result.teamSize ≠ 0 <;> simp [team, Dict.keys]
  | some k1 => by_cases team : result.teamSize ≠ 0 <;> simp [team, Dict.keys]

theorem benchConfiguration_get? {result : BenchResult} {field : String} {value : Json}
    (member : (field, value) ∈ benchConfiguration result) :
    Dict.get? (benchConfiguration result) field = some value :=
  (Dict.get?_eq_some_iff (benchConfiguration_nodup result)).mpr member

theorem validateEchoedValue_printing (repr : PyRepr) (counted : request.count = run.count)
    (printing : Printing run request extra options legality threads)
    {entry : String × Expected}
    (member : entry ∈ expectedEntries request legality.name
      (sqTransferPolicyName options.transferPolicy) options.blockSize options.gridSize
      (if request.backend = "cpu-avx2" then [("threads", threadEntry extra threads)] else [])) :
    validateEchoedValue repr
      (benchConfiguration (benchResult run options legality threads)) entry = .ok () := by
  have printed : ∀ {field : String} {expected : Expected} (value : Json),
      (field, value) ∈ benchConfiguration (benchResult run options legality threads) →
      echoes value expected = true →
      validateEchoedValue repr
        (benchConfiguration (benchResult run options legality threads))
        (field, expected) = .ok () := by
    intro field expected value inside same
    exact validateEchoedValue_of_echoes (benchConfiguration_get? inside) same
  have backendText : options.backend.text = request.backend := by
    rw [printing.backend]
    exact printing.requested
  have bits : (options.bits % 2 ^ 8 : ℕ) = options.bits := by
    rcases printing.width with four | eight
    · norm_num [four]
    · norm_num [eight]
  obtain ⟨repetitions, warmups⟩ := printInvocationIds_echoes printing
  rw [expectedEntries] at member
  simp only [List.mem_append, List.mem_cons, List.not_mem_nil, or_false] at member
  rcases member with (fixed | k1) | team
  · rcases fixed with rfl | rfl | rfl | rfl | rfl | rfl | rfl | rfl | rfl | rfl | rfl | rfl |
      rfl | rfl | rfl
    · apply printed (.str options.backend.text)
      · simp [benchConfiguration, benchResult]
      · simp [echoes, backendText]
    · apply printed (.int (options.bits % 2 ^ 8 : ℕ))
      · simp [benchConfiguration, benchResult]
      · simp only [echoes, bits, printing.bits, decide_true]
    · apply printed (.int run.count)
      · simp [benchConfiguration, benchResult]
      · simp [echoes, counted]
    · apply printed (.int options.seed)
      · simp [benchConfiguration, benchResult]
      · simp [echoes, printing.seed]
    · apply printed (.int options.tensorId)
      · simp [benchConfiguration, benchResult]
      · simp [echoes, printing.tensorId]
    · apply printed (.int options.invocationId)
      · simp [benchConfiguration, benchResult]
      · simp [echoes, printing.invocationId]
    · apply printed (.int options.warmups)
      · simp [benchConfiguration, benchResult]
      · simp [echoes, printing.warmups]
    · apply printed (.int options.reps)
      · simp [benchConfiguration, benchResult]
      · simp [echoes, printing.reps]
    · exact printed _ (by simp [benchConfiguration, benchResult]) repetitions
    · exact printed _ (by simp [benchConfiguration, benchResult]) warmups
    · apply printed (.str legality.name)
      · simp [benchConfiguration, benchResult]
      · simp [echoes]
    · apply printed (.str (sqTransferPolicyName options.transferPolicy))
      · simp [benchConfiguration, benchResult]
      · simp [echoes]
    · apply printed (.int options.blockSize)
      · simp [benchConfiguration, benchResult]
      · simp [echoes]
    · apply printed (.int options.gridSize)
      · simp [benchConfiguration, benchResult]
      · simp [echoes]
    · apply printed .null
      · simp [benchConfiguration, benchResult, printing.scale]
      · rfl
  · split at k1
    · rename_i cuda
      obtain rfl := List.mem_singleton.mp k1
      have backend : options.backend = .cuda := by
        rw [cuda] at backendText
        revert backendText
        cases options.backend <;> decide
      apply printed (.str (sqK1Name options.k1))
      · simp [benchConfiguration, benchResult, backend]
      · simp [echoes, printing.k1 cuda]
    · exact absurd k1 List.not_mem_nil
  · split at team
    · rename_i avx2
      obtain rfl := List.mem_singleton.mp team
      have backend : legality.backend = .cpuAvx2 := by
        rw [← printing.requested] at avx2
        revert avx2
        cases legality.backend <;> decide
      have positive : 0 < threads := by
        cases last : lastValue extra .threads with
        | none => exact printing.threadsDefault last backend
        | some text => exact (printing.threadsGiven text last).2.2
      apply printed (.int threads)
      · simp [benchConfiguration, benchResult, Nat.pos_iff_ne_zero.mp positive]
      · by_cases absent : lastValue extra .threads = none
        · simp [threadEntry, absent, echoes, positive]
        · simp [threadEntry, absent, echoes]
    · exact absurd team List.not_mem_nil

/-! ## The arrays that are printed -/

theorem fixedDecimal_nonneg (places : ℕ) {value : ℚ} (nonneg : 0 ≤ value) :
    0 ≤ fixedDecimal places value := by
  have scaled : (0 : ℚ) ≤ value * 10 ^ places := by positivity
  have rounded : (0 : ℚ) ≤ Text.roundHalfEven (value * 10 ^ places) := by
    exact_mod_cast Text.roundHalfEven_nonneg scaled
  rw [fixedDecimal]
  positivity

theorem validTiming_fixedDecimal (places : ℕ) (time : ℚ≥0) :
    validTiming (.float (.finite (fixedDecimal places time))) =
      some (.float (fixedDecimal places time)) := by
  have nonneg : 0 ≤ fixedDecimal places time :=
    fixedDecimal_nonneg places (NNRat.cast_nonneg time)
  rw [validTiming, if_neg (not_lt.mpr nonneg)]

theorem sampleTimings_printed (field : String) (times : List ℚ≥0) (first : ℕ) :
    sampleTimings field first (times.map fun time : ℚ≥0 => .float (.finite (fixedDecimal 9 time))) =
      .ok (times.map fun time : ℚ≥0 => .float (fixedDecimal 9 time)) := by
  induction times generalizing first with
  | nil => rfl
  | cons time times induction =>
      simp [sampleTimings, isNumber, validTiming_fixedDecimal, induction, pure, Except.pure,
        bind, Except.bind]

theorem finiteNonnegativeSamples_printed {payload : List (String × Json)} {key : String}
    {samples : ℕ → BenchSample} {reps : ℕ} {field : BenchSample → ℚ≥0}
    (found : Dict.get? payload key = some (printDoubleArray samples reps field)) :
    ∃ timings, finiteNonnegativeSamples payload key reps = .ok timings := by
  have printed := sampleTimings_printed key
    ((List.range reps).map fun i => field (samples i)) 0
  rw [List.map_map] at printed
  refine ⟨((List.range reps).map fun i => field (samples i)).map fun time : ℚ≥0 =>
    .float (fixedDecimal 9 time), ?_⟩
  rw [finiteNonnegativeSamples, found, printDoubleArray]
  simp only [List.length_map, List.length_range, ne_eq, not_true_eq_false, if_false]
  exact printed

theorem mapM_isOk {α β : Type} {f : α → Except ResponseFailure β} {items : List α}
    (each : ∀ item ∈ items, ∃ value, f item = .ok value) :
    ∃ values, items.mapM f = .ok values := by
  induction items with
  | nil => exact ⟨[], rfl⟩
  | cons item items induction =>
      obtain ⟨value, valueEq⟩ := each item List.mem_cons_self
      obtain ⟨values, valuesEq⟩ := induction fun other member =>
        each other (List.mem_cons_of_mem _ member)
      refine ⟨value :: values, ?_⟩
      rw [List.mapM_cons, valueEq]
      simp only [bind, Except.bind, valuesEq, pure, Except.pure]

/-- The keys of the stage columns of a boundary. -/
def stageColumns (columns : List BenchColumn) :
    List (BenchColumn × String × (BenchSample → ℚ≥0)) :=
  columnTable.filter fun row => row.1 ∈ columns

theorem row_stages (repr : PyRepr) {row : SqLegality} (member : row ∈ legalityTable) :
    requiredStages repr row.backend.text row.name =
      .ok ((stageColumns row.columns).map fun column => column.2.1) := by
  simp only [legalityTable, List.mem_cons, List.not_mem_nil, or_false] at member
  rcases member with rfl | rfl | rfl | rfl | rfl | rfl | rfl <;> rfl

theorem row_capture {row : SqLegality} (member : row ∈ legalityTable) :
    .capture ∈ row.columns ↔ row.name = "resident-graph" := by
  revert row
  decide

theorem sqBenchPrintJson_keys (result : BenchResult) :
    Dict.keys (sqBenchPrintJson result) =
      ["configuration", "samples_ms"] ++
        ((stageColumns result.columns).map fun column => column.2.1) ++
        (if .capture ∈ result.columns then ["capture_and_instantiate_ms"] else []) ++
        ["header_bytes", "payload_bytes"] := by
  by_cases capture : BenchColumn.capture ∈ result.columns
  · simp [sqBenchPrintJson, Dict.keys, stageColumns, capture]
  · simp [sqBenchPrintJson, Dict.keys, stageColumns, capture]

theorem sqBenchPrintJson_nodup (result : BenchResult) :
    (Dict.keys (sqBenchPrintJson result)).Nodup := by
  have stages : ((stageColumns result.columns).map fun column => column.2.1).Sublist
      stageKeys := by
    have whole : columnTable.map (fun column => column.2.1) = stageKeys := rfl
    rw [← whole]
    exact List.filter_sublist.map _
  have distinct : (["configuration", "samples_ms"] ++ stageKeys ++
      ["capture_and_instantiate_ms"] ++ ["header_bytes", "payload_bytes"]).Nodup := by decide
  rw [sqBenchPrintJson_keys]
  apply List.Nodup.sublist _ distinct
  apply List.Sublist.append _ (List.Sublist.refl _)
  apply List.Sublist.append
  · exact (List.Sublist.refl _).append stages
  · split
    · exact List.Sublist.refl _
    · exact List.nil_sublist _

theorem sqBenchPrintJson_get? {result : BenchResult} {key : String} {value : Json}
    (member : (key, value) ∈ sqBenchPrintJson result) :
    Dict.get? (sqBenchPrintJson result) key = some value :=
  (Dict.get?_eq_some_iff (sqBenchPrintJson_nodup result)).mpr member

/-! ## Acceptance -/

theorem stageTimings_printed (result : BenchResult) :
    ∃ samples, stageTimings (sqBenchPrintJson result)
      ((stageColumns result.columns).map fun column => column.2.1) result.reps =
        .ok samples := by
  have each : ∀ field ∈ (stageColumns result.columns).map fun column => column.2.1,
      ∃ value, (do return (field, ← finiteNonnegativeSamples (sqBenchPrintJson result) field
        result.reps) : Except ResponseFailure (String × List Timing)) = .ok value := by
    intro field member
    obtain ⟨column, columnMember, rfl⟩ := List.mem_map.mp member
    have printed : (column.2.1, printDoubleArray result.samples result.reps column.2.2) ∈
        sqBenchPrintJson result := by
      rw [sqBenchPrintJson]
      simp only [List.mem_append]
      exact .inl (.inl (.inr (List.mem_map.mpr ⟨column, columnMember, rfl⟩)))
    obtain ⟨timings, timingsEq⟩ :=
      finiteNonnegativeSamples_printed (sqBenchPrintJson_get? printed)
    exact ⟨(column.2.1, timings), by rw [timingsEq]; rfl⟩
  obtain ⟨samples, samplesEq⟩ := mapM_isOk each
  have noOther : (stageKeys.filter fun field =>
      (Dict.get? (sqBenchPrintJson result) field).isSome ∧
        field ∉ (stageColumns result.columns).map fun column => column.2.1) = [] := by
    rw [List.filter_eq_nil_iff]
    intro field stage present
    rw [decide_eq_true_eq] at present
    obtain ⟨found, foreign⟩ := present
    obtain ⟨value, valueEq⟩ := Option.isSome_iff_exists.mp found
    have inside : field ∈ Dict.keys (sqBenchPrintJson result) :=
      List.mem_map.mpr ⟨(field, value),
        (Dict.get?_eq_some_iff (sqBenchPrintJson_nodup result)).mp valueEq, rfl⟩
    rw [sqBenchPrintJson_keys] at inside
    have others : ∀ field ∈ stageKeys, field ∉ ["configuration", "samples_ms"] ∧
        field ≠ "capture_and_instantiate_ms" ∧ field ∉ ["header_bytes", "payload_bytes"] := by
      decide
    obtain ⟨notFirst, notCapture, notLast⟩ := others field stage
    simp only [List.mem_append] at inside
    rcases inside with ((first | own) | capture) | last
    · exact notFirst first
    · exact foreign own
    · split at capture
      · exact notCapture (List.mem_singleton.mp capture)
      · exact List.not_mem_nil capture
    · exact notLast last
  refine ⟨samples, ?_⟩
  rw [stageTimings, samplesEq]
  simp only [bind, Except.bind, noOther, ne_eq, not_true_eq_false, if_false]

theorem validateCapture_printed {row : SqLegality} (member : row ∈ legalityTable)
    (result : BenchResult) (columns : result.columns = row.columns) :
    ∃ capture, validateCapture (sqBenchPrintJson result) row.name = .ok capture := by
  have captureIff := row_capture member
  rw [← columns] at captureIff
  by_cases graph : row.name = "resident-graph"
  · have printed : ("capture_and_instantiate_ms",
        Json.float (.finite (fixedDecimal 6 result.captureMs))) ∈ sqBenchPrintJson result := by
      simp [sqBenchPrintJson, captureIff.mpr graph]
    rw [validateCapture, sqBenchPrintJson_get? printed, if_pos graph]
    simp [isNumber, validTiming_fixedDecimal]
  · have absent : Dict.get? (sqBenchPrintJson result) "capture_and_instantiate_ms" = none := by
      apply Option.eq_none_iff_forall_ne_some.mpr
      intro value found
      have inside : "capture_and_instantiate_ms" ∈ Dict.keys (sqBenchPrintJson result) :=
        List.mem_map.mpr ⟨_, (Dict.get?_eq_some_iff (sqBenchPrintJson_nodup result)).mp found,
          rfl⟩
      rw [sqBenchPrintJson_keys, if_neg (mt captureIff.mp graph)] at inside
      have stages : ∀ columns : List BenchColumn, "capture_and_instantiate_ms" ∉
          (stageColumns columns).map fun column => column.2.1 := by
        intro columns member
        obtain ⟨column, columnMember, named⟩ := List.mem_map.mp member
        have inTable := List.mem_of_mem_filter columnMember
        have other : ∀ column ∈ columnTable.map (fun column => column.2.1),
            column ≠ "capture_and_instantiate_ms" := by
          decide
        exact other _ (List.mem_map_of_mem inTable) named
      simp [stages] at inside
    rw [validateCapture, absent, if_neg graph]
    simp

theorem checkForeignKeys_printed
    (printing : Printing run request extra options legality threads) :
    checkForeignKeys request.backend
      (benchConfiguration (benchResult run options legality threads)) = .ok () := by
  have backendText : options.backend.text = request.backend := by
    rw [printing.backend]
    exact printing.requested
  have noK1 : request.backend ≠ "cuda" → Dict.get?
      (benchConfiguration (benchResult run options legality threads)) "k1" = none := by
    intro other
    have notCuda : options.backend ≠ .cuda := by
      intro cuda
      rw [cuda] at backendText
      exact other backendText.symm
    by_cases team : threads ≠ 0
    · simp [benchConfiguration, benchResult, notCuda, Dict.get?, team]
    · simp [benchConfiguration, benchResult, notCuda, Dict.get?, team]
  have noTeam : request.backend ≠ "cpu-avx2" → Dict.get?
      (benchConfiguration (benchResult run options legality threads)) "threads" = none := by
    intro other
    have notAvx2 : legality.backend ≠ .cpuAvx2 := by
      intro avx2
      have text := printing.requested
      rw [avx2] at text
      exact other text.symm
    by_cases cuda : options.backend = .cuda
    · simp [benchConfiguration, benchResult, cuda, Dict.get?, printing.noThreads notAvx2]
    · simp [benchConfiguration, benchResult, cuda, Dict.get?, printing.noThreads notAvx2]
  rw [checkForeignKeys, if_neg, if_neg]
  · rintro ⟨other, present⟩
    simp [noTeam other] at present
  · rintro ⟨other, present⟩
    simp [noK1 other] at present

theorem boundary_expected {repr : PyRepr} {boundary : String}
    {expected : List (String × Expected)}
    (computed : expectedConfiguration repr request = .ok (boundary, expected)) :
    ("boundary", Expected.text boundary) ∈ expected := by
  unfold expectedConfiguration at computed
  split at computed
  · cases computed
  · obtain ⟨given, -, computed⟩ := bind_eq_ok.mp computed
    obtain ⟨transfer, -, computed⟩ := bind_eq_ok.mp computed
    obtain ⟨policy, -, computed⟩ := bind_eq_ok.mp computed
    obtain ⟨blockSize, -, computed⟩ := bind_eq_ok.mp computed
    obtain ⟨gridSize, -, computed⟩ := bind_eq_ok.mp computed
    obtain ⟨team, -, computed⟩ := bind_eq_ok.mp computed
    obtain ⟨rfl, rfl⟩ := Prod.mk.inj (Except.ok.inj computed)
    simp [expectedEntries]

theorem validateBenchResponse_of_agreeing (repr : PyRepr)
    (arguments : request.extraArgs = extraArguments extra) (counted : request.count = run.count)
    (printing : Printing run request extra options legality threads)
    (agreeing : Agreeing request extra) :
    ∃ response, validateBenchResponse repr request
      (sqBenchPrintJson (benchResult run options legality threads)) = .ok response := by
  have configured : Dict.get? (sqBenchPrintJson (benchResult run options legality threads))
      "configuration" =
        some (.obj (benchConfiguration (benchResult run options legality threads))) := by
    apply sqBenchPrintJson_get?
    simp [sqBenchPrintJson]
  have sampled : Dict.get? (sqBenchPrintJson (benchResult run options legality threads))
      "samples_ms" = some (printDoubleArray run.samples options.reps BenchSample.wallMs) := by
    apply sqBenchPrintJson_get?
    simp [sqBenchPrintJson, benchResult]
  have echoed := forM_eq_ok.mpr fun (entry : String × Expected) member =>
    validateEchoedValue_printing repr counted printing member
  obtain ⟨samples, samplesEq⟩ := finiteNonnegativeSamples_printed sampled
  rw [printing.reps] at samplesEq
  have stages := row_stages repr printing.row
  rw [printing.requested] at stages
  obtain ⟨stageSamples, stageSamplesEq⟩ :=
    stageTimings_printed (benchResult run options legality threads)
  have stagesEq : stageTimings (sqBenchPrintJson (benchResult run options legality threads))
      ((stageColumns legality.columns).map fun column => column.2.1) request.reps =
        .ok stageSamples := by
    rw [← printing.reps]
    exact stageSamplesEq
  obtain ⟨capture, captureEq⟩ := validateCapture_printed printing.row
    (benchResult run options legality threads) rfl
  refine ⟨⟨sqBenchPrintJson (benchResult run options legality threads),
    benchConfiguration (benchResult run options legality threads), samples, stageSamples,
    capture⟩, ?_⟩
  rw [validateBenchResponse, expectedConfiguration_printing repr arguments printing agreeing]
  simp only [bind, Except.bind, configured, checkForeignKeys_printed printing, echoed, samplesEq,
    stages, stagesEq, captureEq, pure, Except.pure]

theorem agreeing_of_validateBenchResponse {repr : PyRepr}
    (arguments : request.extraArgs = extraArguments extra)
    (printing : Printing run request extra options legality threads)
    {response : ValidatedBenchResponse}
    (accepted : validateBenchResponse repr request
      (sqBenchPrintJson (benchResult run options legality threads)) = .ok response) :
    Agreeing request extra := by
  have configured : Dict.get? (sqBenchPrintJson (benchResult run options legality threads))
      "configuration" =
        some (.obj (benchConfiguration (benchResult run options legality threads))) := by
    apply sqBenchPrintJson_get?
    simp [sqBenchPrintJson]
  obtain ⟨⟨boundary, expected⟩, expectedEq, accepted⟩ := bind_eq_ok.mp accepted
  simp only [configured] at accepted
  obtain ⟨⟨⟩, -, accepted⟩ := bind_eq_ok.mp accepted
  obtain ⟨⟨⟩, echoed, -⟩ := bind_eq_ok.mp accepted
  have named : ("boundary", Expected.text boundary) ∈ expected :=
    boundary_expected expectedEq
  have printed : Dict.get? (benchConfiguration (benchResult run options legality threads))
      "boundary" = some (.str legality.name) := by
    apply benchConfiguration_get?
    simp [benchConfiguration, benchResult]
  have same := echoes_of_validateEchoedValue printed (forM_eq_ok.mp echoed _ named)
  have boundaryEq : legality.name = boundary := by simpa [echoes] using same
  subst boundaryEq
  exact agreeing_of_expectedConfiguration arguments printing expectedEq

/-- A printed report passes validation exactly where a CUDA request names its
boundary and no numeral that counts is longer than `int` reads. -/
theorem validateBenchResponse_accepts_iff {strtof : String → Option F32} (repr : PyRepr)
    {inputPath : String} (arguments : request.extraArgs = extraArguments extra)
    (counted : request.count = run.count)
    (printed : benchCommandLine strtof run (benchCommand inputPath request) =
      .ok (options, legality, threads)) :
    (∃ response, validateBenchResponse repr request
      (sqBenchPrintJson (benchResult run options legality threads)) = .ok response) ↔
      Agreeing request extra := by
  have printing := printing_of_accepted arguments printed
  constructor
  · intro accepted
    obtain ⟨response, responseEq⟩ := accepted
    exact agreeing_of_validateBenchResponse arguments printing responseEq
  · intro agreeing
    exact validateBenchResponse_of_agreeing repr arguments counted printing agreeing

end Report

/-- Three measured values of one repetition, on a host without AVX2. -/
def threeValueRun : BenchRun where
  count := 3
  payloadBytes := 3
  samples := fun _ => ⟨1, 0, 0, 0, 0, 0, 0⟩
  captureMs := 0
  avx2Supported := false
  defaultThreadCount := 1
  default_pos := Nat.one_pos

/-- A request of one repetition without further options. -/
def plainRequest (backend : Backend) : BenchRequest where
  count := 3
  bits := 8
  backend := backend.text
  extraArgs := []
  seed := 1
  warmups := 0
  reps := 1
  k1 := "optimized"

/-- What the command line resolves a plain request to. -/
def plainOptions (row : SqLegality) : SqOptions :=
  { optionsInit with
    inputPath := some "in.f32"
    backend := row.backend
    boundary := row.boundary
    transferPolicy := if row.transfers then .pageable else .none
    seed := 1
    warmups := 0
    reps := 1
    k1 := if row.backend = .cuda then .optimized else .reference
    seen := { optionsInit.seen with seed := true, k1 := row.backend = .cuda } }

/-- The rows of `legality_table` that are defaults. -/
def defaultRow (backend : Backend) : SqLegality :=
  (defaultLegality backend).getD (legalityTable.head (by decide))

theorem validateBenchResponse_accepts_iff_plainCpu :
    (∃ response, validateBenchResponse (fun _ => "") (plainRequest .cpu)
      (sqBenchPrintJson (benchResult threeValueRun (plainOptions (defaultRow .cpu))
        (defaultRow .cpu) 0)) = .ok response) ↔
      Agreeing (plainRequest .cpu) [] :=
  have printed : benchCommandLine (fun _ => none) threeValueRun
      (benchCommand "in.f32" (plainRequest .cpu)) =
        .ok (plainOptions (defaultRow .cpu), defaultRow .cpu, 0) := by
    rfl
  validateBenchResponse_accepts_iff (fun _ => "") rfl rfl printed

/-- A CUDA bench without `--boundary` runs at `host-origin`, while the driver
expects `resident`. -/
theorem validateBenchResponse_rejects_defaultBoundary :
    benchCommandLine (fun _ => none) threeValueRun
      (benchCommand "in.f32" (plainRequest .cuda)) =
        .ok (plainOptions (defaultRow .cuda), defaultRow .cuda, 0) ∧
    ¬ ∃ response, validateBenchResponse (fun _ => "") (plainRequest .cuda)
      (sqBenchPrintJson (benchResult threeValueRun (plainOptions (defaultRow .cuda))
        (defaultRow .cuda) 0)) = .ok response := by
  constructor
  · rfl
  · intro accepted
    obtain ⟨response, responseEq⟩ := accepted
    have failed : validateBenchResponse (fun _ => "") (plainRequest .cuda)
        (sqBenchPrintJson (benchResult threeValueRun (plainOptions (defaultRow .cuda))
          (defaultRow .cuda) 0)) =
        .error (.rejected ("stoquant bench response configuration boundary is ; expected ")) := by
      rfl
    rw [failed] at responseEq
    cases responseEq

end Stoquant

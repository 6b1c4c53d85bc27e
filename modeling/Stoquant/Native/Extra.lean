import Stoquant.Native.Command

/-!
# The options after the fixed part

What a list of extra options makes of the parsed options, and what the driver
reads from the same list: on both sides the last value of an option counts.
-/

namespace Stoquant

theorem lastValue_cons (given : ExtraOption × String) (extra : List (ExtraOption × String))
    (option : ExtraOption) :
    lastValue (given :: extra) option =
      (lastValue extra option).or (if given.1 = option then some given.2 else none) := by
  by_cases same : given.1 = option
  · simp only [lastValue, same, decide_true, List.filter_cons_of_pos, List.map_cons,
      List.getLast?_cons, if_true]
    cases (List.map Prod.snd (List.filter (fun given => decide (given.1 = option)) extra)).getLast?
    · rfl
    · rfl
  · simp [lastValue, same]

theorem extraArguments_cons (given : ExtraOption × String)
    (extra : List (ExtraOption × String)) :
    extraArguments (given :: extra) = given.1.name :: given.2 :: extraArguments extra := rfl

/-! ## The driver -/

theorem ExtraOption.names_apart (option other : ExtraOption) :
    (option.name = other.name ↔ option = other) ∧
      (other.name ++ "=").toList.isPrefixOf option.name.toList = false := by
  cases option <;> cases other <;> decide

theorem ExtraOption.name_dash (option : ExtraOption) : option.name.toList.head? = some '-' := by
  cases option <;> rfl

theorem optionLoop_skip {option arg : String} (different : arg ≠ option)
    (noPrefix : (option ++ "=").toList.isPrefixOf arg.toList = false)
    (found : Option String) (rest : List String) :
    optionLoop option found (arg :: rest) = optionLoop option found rest := by
  cases rest with
  | nil => simp only [optionLoop, if_neg different, noPrefix, Bool.false_eq_true, if_false]
  | cons next rest =>
      simp only [optionLoop, if_neg different, noPrefix, Bool.false_eq_true, if_false]

/-- A value that does not start like an option is skipped by `_option_value`. -/
theorem optionLoop_value (option : ExtraOption) (found : Option String) {text : String}
    (plain : text.toList.head? ≠ some '-') (rest : List String) :
    optionLoop option.name found (text :: rest) = optionLoop option.name found rest := by
  have different : text ≠ option.name := by
    intro same
    exact plain (same ▸ option.name_dash)
  have noPrefix : (option.name ++ "=").toList.isPrefixOf text.toList = false := by
    obtain ⟨nameRest, nameEq⟩ : ∃ nameRest, (option.name ++ "=").toList = '-' :: nameRest := by
      cases option <;> exact ⟨_, rfl⟩
    cases textEq : text.toList with
    | nil => rw [nameEq]; rfl
    | cons first others =>
        have firstPlain : first ≠ '-' := by
          intro dash
          exact plain (by rw [textEq, dash]; rfl)
        rw [nameEq, List.isPrefixOf]
        simp [firstPlain.symm]
  exact optionLoop_skip different noPrefix found rest

/-- `_option_value` finds the last value of an extra option. -/
theorem optionValue_extra (option : ExtraOption) (default : Option String)
    {extra : List (ExtraOption × String)}
    (plain : ∀ given ∈ extra, given.2.toList.head? ≠ some '-') :
    optionValue (extraArguments extra) option.name default =
      .ok ((lastValue extra option).or default) := by
  have loop : ∀ found, optionLoop option.name found (extraArguments extra) =
      .ok ((lastValue extra option).or found) := by
    induction extra with
    | nil =>
        intro found
        rfl
    | cons given extra induction =>
        have rest := induction fun other member => plain other (List.mem_cons_of_mem _ member)
        intro found
        obtain ⟨nameIff, noPrefix⟩ := ExtraOption.names_apart given.1 option
        rw [extraArguments_cons, lastValue_cons]
        by_cases same : given.1 = option
        · rw [optionLoop, if_pos (nameIff.mpr same), rest, if_pos same, Option.or_assoc]
          rfl
        · rw [optionLoop_skip (fun equal => same (nameIff.mp equal)) noPrefix,
            optionLoop_value option found (plain given List.mem_cons_self), rest, if_neg same,
            Option.or_none]
  exact loop default

/-! ## The command line -/

theorem findOption_extra (option : ExtraOption) :
    findOption .bench option.name = some option.id := by
  cases option <;> rfl

/-- One option and its value are parsed, or parsing stops. -/
theorem parseArguments_value (id : OptionId) {strtof : String → Option F32}
    {command : SqCommand} {name value : String} {rest : List String}
    {options result : SqOptions}
    (found : findOption command name = some id) (named : id ≠ .timings)
    (accepted : parseArguments strtof command (name :: value :: rest) options = .ok result) :
    ∃ applied, applyOption strtof command id value options = .ok applied ∧
      parseArguments strtof command rest applied = .ok result := by
  rw [parseArguments, found] at accepted
  cases applied : applyOption strtof command id value options with
  | ok next =>
      refine ⟨next, rfl, ?_⟩
      cases id <;> simp_all
  | error status => cases id <;> simp_all

theorem store_eq_ok {α : Type} {parsed : Option α} {failure : SqStatus}
    {assign : α → SqOptions} {result : SqOptions}
    (accepted : store parsed failure assign = .ok result) :
    ∃ value, parsed = some value ∧ result = assign value := by
  cases parsed with
  | none => cases accepted
  | some value =>
      cases accepted
      exact ⟨value, rfl, rfl⟩

/-- What the last value of an option says about the field it sets. -/
def Sets {α : Type} (text : Option String) (parse : String → Option α) (before after : α)
    (seenBefore seenAfter : Bool) : Prop :=
  match text with
  | some text => parse text = some after ∧ seenAfter = true
  | none => after = before ∧ seenAfter = seenBefore

/-- The options after a list of extra options. -/
structure ExtraParsed (extra : List (ExtraOption × String)) (before after : SqOptions) :
    Prop where
  boundary : Sets (lastValue extra .boundary) parseBoundary before.boundary after.boundary
    before.seen.boundary after.seen.boundary
  policy : Sets (lastValue extra .transferPolicy) parsePolicy before.transferPolicy
    after.transferPolicy before.seen.policy after.seen.policy
  blockSize : Sets (lastValue extra .blockSize) (parseBounded · sqCudaMaxBlockSize)
    before.blockSize after.blockSize before.seen.blockSize after.seen.blockSize
  gridSize : Sets (lastValue extra .gridSize) (parseBounded · sqCudaMaxGridSize)
    before.gridSize after.gridSize before.seen.gridSize after.seen.gridSize
  threads : Sets (lastValue extra .threads) (parseBounded · sqMaxCpuThreads)
    before.threads after.threads before.seen.threads after.seen.threads
  /-- Nothing else changes. -/
  rest : after = { before with
    boundary := after.boundary
    transferPolicy := after.transferPolicy
    blockSize := after.blockSize
    gridSize := after.gridSize
    threads := after.threads
    seen := { before.seen with
      boundary := after.seen.boundary
      policy := after.seen.policy
      blockSize := after.seen.blockSize
      gridSize := after.seen.gridSize
      threads := after.seen.threads } }
  /-- No value looks like an option. -/
  plain : ∀ given ∈ extra, given.2.toList.head? ≠ some '-'

theorem Sets.step {α : Type} {option other : ExtraOption} {text : String}
    {extra : List (ExtraOption × String)} {parse : String → Option α}
    {before middle after : α} {seenBefore seenMiddle seenAfter : Bool}
    (later : Sets (lastValue extra other) parse middle after seenMiddle seenAfter)
    (now : Sets (if option = other then some text else none) parse before middle seenBefore
      seenMiddle) :
    Sets (lastValue ((option, text) :: extra) other) parse before after seenBefore
      seenAfter := by
  rw [lastValue_cons]
  cases last : lastValue extra other with
  | some found =>
      rw [last] at later
      exact later
  | none =>
      rw [last] at later
      obtain ⟨rfl, rfl⟩ := later
      exact now

theorem digits_plain {text : String} {value : ℕ} (accepted : sqParseU64 text = some value) :
    text.toList.head? ≠ some '-' := by
  obtain ⟨nonempty, digits, -⟩ := sqParseU64_eq accepted
  obtain ⟨first, rest, textEq⟩ := List.exists_cons_of_ne_nil nonempty
  have firstDigit := digits first (by simp [textEq])
  rw [textEq]
  intro dash
  rw [List.head?_cons, Option.some.injEq] at dash
  rw [dash] at firstDigit
  exact absurd firstDigit (by decide)

theorem parseBounded_eq {text : String} {maximum value : ℕ}
    (accepted : parseBounded text maximum = some value) :
    sqParseU64 text = some value ∧ value ≠ 0 ∧ value ≤ maximum := by
  obtain ⟨parsed, bound⟩ := Option.filter_eq_some_iff.mp accepted
  exact ⟨parsed, of_decide_eq_true bound⟩

theorem parseBoundary_eq {text : String} {boundary : SqBoundary}
    (accepted : parseBoundary text = some boundary) :
    (text = "gpu-origin" ∧ boundary = .gpuOrigin) ∨ (text = "resident" ∧ boundary = .resident) ∨
      (text = "host-origin" ∧ boundary = .hostOrigin) ∨
      (text = "resident-graph" ∧ boundary = .residentGraph) := by
  obtain ⟨row, found, rfl⟩ := Option.map_eq_some_iff.mp accepted
  have named := List.find?_some found
  rw [decide_eq_true_eq] at named
  have member := List.mem_of_find?_eq_some found
  have rows : ∀ row ∈ legalityTable, row.namedOnCli = true →
      (row.name = "gpu-origin" ∧ row.boundary = .gpuOrigin) ∨
      (row.name = "resident" ∧ row.boundary = .resident) ∨
      (row.name = "host-origin" ∧ row.boundary = .hostOrigin) ∨
      (row.name = "resident-graph" ∧ row.boundary = .residentGraph) := by
    decide
  rw [← named.2]
  exact rows row member named.1

theorem parsePolicy_eq {text : String} {policy : SqTransferPolicy}
    (accepted : parsePolicy text = some policy) :
    text = sqTransferPolicyName policy ∧ policy ≠ .none := by
  have named := List.find?_some accepted
  rw [decide_eq_true_eq] at named
  have member := List.mem_of_find?_eq_some accepted
  refine ⟨named.symm, ?_⟩
  rintro rfl
  simp at member

/-- Parsing extra options, step by step. -/
theorem parseArguments_extra {strtof : String → Option F32}
    {extra : List (ExtraOption × String)} {before after : SqOptions}
    (accepted : parseArguments strtof .bench (extraArguments extra) before = .ok after) :
    ExtraParsed extra before after := by
  induction extra generalizing before with
  | nil =>
      cases accepted
      exact ⟨⟨rfl, rfl⟩, ⟨rfl, rfl⟩, ⟨rfl, rfl⟩, ⟨rfl, rfl⟩, ⟨rfl, rfl⟩, rfl, by simp⟩
  | cons given extra induction =>
      obtain ⟨option, text⟩ := given
      rw [extraArguments_cons] at accepted
      obtain ⟨middle, applied, parsed⟩ := parseArguments_value option.id (findOption_extra option)
        (by cases option <;> decide) accepted
      have later := induction parsed
      have plainLater := later.plain
      cases option with
      | boundary =>
          obtain ⟨value, valueEq, rfl⟩ := store_eq_ok applied
          refine ⟨later.boundary.step ⟨valueEq, rfl⟩, later.policy.step ⟨rfl, rfl⟩,
            later.blockSize.step ⟨rfl, rfl⟩, later.gridSize.step ⟨rfl, rfl⟩,
            later.threads.step ⟨rfl, rfl⟩, later.rest, ?_⟩
          intro given member
          rcases List.mem_cons.mp member with rfl | inside
          · rcases parseBoundary_eq valueEq with ⟨rfl, -⟩ | ⟨rfl, -⟩ | ⟨rfl, -⟩ | ⟨rfl, -⟩ <;>
              decide
          · exact plainLater given inside
      | transferPolicy =>
          obtain ⟨value, valueEq, rfl⟩ := store_eq_ok applied
          refine ⟨later.boundary.step ⟨rfl, rfl⟩, later.policy.step ⟨valueEq, rfl⟩,
            later.blockSize.step ⟨rfl, rfl⟩, later.gridSize.step ⟨rfl, rfl⟩,
            later.threads.step ⟨rfl, rfl⟩, later.rest, ?_⟩
          intro given member
          rcases List.mem_cons.mp member with rfl | inside
          · obtain ⟨rfl, -⟩ := parsePolicy_eq valueEq
            cases value <;> decide
          · exact plainLater given inside
      | blockSize =>
          obtain ⟨value, valueEq, rfl⟩ := store_eq_ok applied
          refine ⟨later.boundary.step ⟨rfl, rfl⟩, later.policy.step ⟨rfl, rfl⟩,
            later.blockSize.step ⟨valueEq, rfl⟩, later.gridSize.step ⟨rfl, rfl⟩,
            later.threads.step ⟨rfl, rfl⟩, later.rest, ?_⟩
          intro given member
          rcases List.mem_cons.mp member with rfl | inside
          · exact digits_plain (parseBounded_eq valueEq).1
          · exact plainLater given inside
      | gridSize =>
          obtain ⟨value, valueEq, rfl⟩ := store_eq_ok applied
          refine ⟨later.boundary.step ⟨rfl, rfl⟩, later.policy.step ⟨rfl, rfl⟩,
            later.blockSize.step ⟨rfl, rfl⟩, later.gridSize.step ⟨valueEq, rfl⟩,
            later.threads.step ⟨rfl, rfl⟩, later.rest, ?_⟩
          intro given member
          rcases List.mem_cons.mp member with rfl | inside
          · exact digits_plain (parseBounded_eq valueEq).1
          · exact plainLater given inside
      | threads =>
          obtain ⟨value, valueEq, rfl⟩ := store_eq_ok applied
          refine ⟨later.boundary.step ⟨rfl, rfl⟩, later.policy.step ⟨rfl, rfl⟩,
            later.blockSize.step ⟨rfl, rfl⟩, later.gridSize.step ⟨rfl, rfl⟩,
            later.threads.step ⟨valueEq, rfl⟩, later.rest, ?_⟩
          intro given member
          rcases List.mem_cons.mp member with rfl | inside
          · exact digits_plain (parseBounded_eq valueEq).1
          · exact plainLater given inside

end Stoquant

import Stoquant.Report.Table

/-!
# When the report is total

Every part of the report tolerates failed cases except the search for crossovers,
which reads the verdict of a passing case.  A case has one exactly when its baseline
passed as well.
-/

namespace Stoquant

/-! ## Calls that return -/

/-- A call returns a value. -/
def Returns {α : Type} (call : Except PyError α) : Prop := ∃ value, call = .ok value

theorem returns_bind_iff {α β : Type} {call : Except PyError α}
    {next : α → Except PyError β} :
    Returns (call >>= next) ↔ ∃ value, call = .ok value ∧ Returns (next value) := by
  constructor
  · rintro ⟨result, run⟩
    obtain ⟨value, first, second⟩ := bind_eq_ok.mp run
    exact ⟨value, first, result, second⟩
  · rintro ⟨value, first, result, second⟩
    exact ⟨result, bind_eq_ok.mpr ⟨value, first, second⟩⟩

theorem returns_mapM_iff {α β : Type} {items : List α} {call : α → Except PyError β} :
    Returns (items.mapM call) ↔ ∀ item ∈ items, Returns (call item) := by
  induction items with
  | nil =>
      apply iff_of_true
      · exact ⟨[], rfl⟩
      · intro item member
        exact absurd member List.not_mem_nil
  | cons item items induction =>
      rw [List.mapM_cons, returns_bind_iff, List.forall_mem_cons]
      constructor
      · rintro ⟨value, first, rest⟩
        obtain ⟨values, restRun, -⟩ := returns_bind_iff.mp rest
        exact ⟨⟨value, first⟩, induction.mp ⟨values, restRun⟩⟩
      · rintro ⟨⟨value, first⟩, rest⟩
        obtain ⟨values, restRun⟩ := induction.mpr rest
        refine ⟨value, first, ?_⟩
        rw [restRun]
        exact ⟨value :: values, rfl⟩

/-! ## The parts of the report -/

section

variable {indexed : IndexedCases}

theorem pathLabel_returns {path : String} (known : path ∈ pathKeys) :
    Returns (pathLabel path) := by
  have found : ∀ key ∈ pathKeys, ((pathKeys.zip reportLabels).lookup key).isSome = true := by
    decide +kernel
  obtain ⟨label, labelEq⟩ := Option.isSome_iff_exists.mp (found path known)
  rw [pathLabel, labelEq]
  exact ⟨label, rfl⟩

/-- The search returns exactly when every present size has a verdict. -/
theorem findCrossovers_returns_iff {counts : List ℕ} {bits : ℕ} {path : String}
    {supported : CaseResult → Bool} :
    Returns (findCrossovers indexed counts bits path supported) ↔
      AllCompared indexed bits path counts := by
  unfold findCrossovers
  constructor
  · intro returns
    by_contra missing
    obtain ⟨points, run, -⟩ := returns_bind_iff.mp returns
    rw [crossoverPoints_raises missing] at run
    cases run
  · intro compared
    rw [crossoverPoints_eq compared]
    exact ⟨_, rfl⟩

theorem allCrossovers_returns_iff {counts bitWidths : List ℕ} {cudaPaths : List String}
    {supported : CaseResult → Bool} :
    Returns (allCrossovers indexed counts bitWidths cudaPaths supported) ↔
      ∀ bits ∈ bitWidths, ∀ path ∈ cudaPaths, AllCompared indexed bits path counts := by
  unfold allCrossovers
  constructor
  · intro returns bits bitsMember path pathMember
    obtain ⟨entries, run, -⟩ := returns_bind_iff.mp returns
    have each := returns_mapM_iff.mp ⟨entries, run⟩ (bits, path)
      (List.pair_mem_product.mpr ⟨bitsMember, pathMember⟩)
    obtain ⟨crossover, found, -⟩ := returns_bind_iff.mp each
    exact findCrossovers_returns_iff.mp ⟨crossover, found⟩
  · intro compared
    have each : ∀ key ∈ bitWidths.product cudaPaths,
        Returns (do return (key, ← findCrossovers indexed counts key.1 key.2 supported) :
          Except PyError ((ℕ × String) × Crossover)) := by
      rintro ⟨bits, path⟩ member
      obtain ⟨bitsMember, pathMember⟩ := List.pair_mem_product.mp member
      obtain ⟨crossover, found⟩ :=
        findCrossovers_returns_iff.mpr (compared bits bitsMember path pathMember)
      exact returns_bind_iff.mpr ⟨crossover, found, _, rfl⟩
    obtain ⟨entries, run⟩ := returns_mapM_iff.mpr each
    exact returns_bind_iff.mpr ⟨entries, run, _, rfl⟩

theorem mem_allCrossovers {counts bitWidths : List ℕ} {cudaPaths : List String}
    {supported : CaseResult → Bool} {crossovers : List ((ℕ × String) × Crossover)}
    (run : allCrossovers indexed counts bitWidths cudaPaths supported = .ok crossovers)
    {entry : (ℕ × String) × Crossover} (member : entry ∈ crossovers) : entry.1.2 ∈ cudaPaths := by
  obtain ⟨entries, each, same⟩ := bind_eq_ok.mp run
  cases same
  have key : entry.1 ∈ Dict.keys entries :=
    List.mem_map_of_mem (Dict.mem_of_mem_ofEntries member)
  have keys : ∀ (keys : List (ℕ × String)) entries,
      keys.mapM (fun key => do
        return (key, ← findCrossovers indexed counts key.1 key.2 supported) :
          ℕ × String → Except PyError ((ℕ × String) × Crossover)) = .ok entries →
        Dict.keys entries = keys := by
    intro keys
    induction keys with
    | nil =>
        intro entries found
        cases found
        rfl
    | cons first keys induction =>
        intro entries found
        rw [List.mapM_cons] at found
        obtain ⟨value, firstRun, rest⟩ := bind_eq_ok.mp found
        obtain ⟨values, restRun, cons⟩ := bind_eq_ok.mp rest
        obtain ⟨crossover, -, pair⟩ := bind_eq_ok.mp firstRun
        cases cons
        cases pair
        have tail := induction values restRun
        rw [Dict.keys, List.map_cons]
        exact congrArg (first :: ·) tail
  rw [keys _ _ each] at key
  exact (List.pair_mem_product.mp key).2

theorem crossoverLines_returns {crossovers : List ((ℕ × String) × Crossover)}
    (known : ∀ entry ∈ crossovers, entry.1.2 ∈ pathKeys) :
    Returns (crossoverLines crossovers) := by
  apply returns_mapM_iff.mpr
  intro entry member
  obtain ⟨label, labelEq⟩ := pathLabel_returns (known entry member)
  unfold crossoverLine
  rw [labelEq]
  cases entry.2 with
  | resolved low high before after => exact ⟨_, rfl⟩
  | notResolved flips slower faster => exact ⟨_, rfl⟩

/-- Every indexed case has a median. -/
def HasMedians (indexed : IndexedCases) : Prop :=
  ∀ key result, Dict.get? indexed key = some result → Returns result.stats.median

/-- The table returns whatever cases failed. -/
theorem t1Table_returns (medians : HasMedians indexed) (counts bitWidths : List ℕ)
    {cudaPaths : List String} (known : ∀ path ∈ cudaPaths, path ∈ pathKeys) :
    Returns (t1Table indexed counts bitWidths cudaPaths) := by
  have cMs : ∀ count bits, Returns (comparatorMs indexed count bits) := by
    intro count bits
    unfold comparatorMs
    cases found : Dict.get? indexed (count, bits, comparator.key) with
    | none => exact ⟨_, rfl⟩
    | some cpu =>
        obtain ⟨median, medianEq⟩ := medians _ _ found
        simp only [medianEq]
        exact ⟨_, rfl⟩
  have row : ∀ count bits c, ∀ path ∈ cudaPaths, Returns (t1Row indexed count bits c path) := by
    intro count bits c path member
    obtain ⟨label, labelEq⟩ := pathLabel_returns (known path member)
    unfold t1Row
    rw [labelEq]
    cases found : Dict.get? indexed (count, bits, path) with
    | none => exact ⟨_, rfl⟩
    | some result =>
        obtain ⟨median, medianEq⟩ := medians _ _ found
        cases verdictEq : result.verdict with
        | none =>
            simp only [verdictEq]
            exact ⟨_, rfl⟩
        | some verdict =>
            simp only [verdictEq, medianEq]
            exact ⟨_, rfl⟩
  unfold t1Table
  apply returns_bind_iff.mpr
  have rows : Returns (counts.mapM fun count => bitWidths.mapM fun bits => do
      let c ← comparatorMs indexed count bits
      cudaPaths.mapM (t1Row indexed count bits c)) := by
    apply returns_mapM_iff.mpr
    intro count _
    apply returns_mapM_iff.mpr
    intro bits _
    obtain ⟨c, cEq⟩ := cMs count bits
    exact returns_bind_iff.mpr ⟨c, cEq, returns_mapM_iff.mpr (row count bits c)⟩
  obtain ⟨lines, run⟩ := rows
  exact ⟨lines, run, _, rfl⟩

end

/-- The report returns exactly when every queried size that passed has a verdict. -/
theorem reportSections_returns_iff {cases : List ReportCase}
    (medians : HasMedians (indexCases cases)) {counts bitWidths : List ℕ}
    {cudaPaths : List String} (known : ∀ path ∈ cudaPaths, path ∈ pathKeys) :
    Returns (reportSections cases counts bitWidths cudaPaths) ↔
      ∀ bits ∈ bitWidths, ∀ path ∈ cudaPaths,
        AllCompared (indexCases cases) bits path counts := by
  unfold reportSections
  constructor
  · intro returns
    obtain ⟨crossovers, run, -⟩ := returns_bind_iff.mp returns
    exact allCrossovers_returns_iff.mp ⟨crossovers, run⟩
  · intro compared
    have found : ∀ supported,
        Returns (allCrossovers (indexCases cases) counts bitWidths cudaPaths supported) :=
      fun supported => allCrossovers_returns_iff.mpr compared
    obtain ⟨crossovers, run⟩ := found directionSupported
    obtain ⟨crossoversRev2, runRev2⟩ := found rev2Supported
    obtain ⟨lines, linesRun⟩ := crossoverLines_returns fun entry member =>
      known _ (mem_allCrossovers run member)
    obtain ⟨linesRev2, linesRunRev2⟩ := crossoverLines_returns fun entry member =>
      known _ (mem_allCrossovers runRev2 member)
    obtain ⟨t1, t1Run⟩ := t1Table_returns medians counts bitWidths known
    exact returns_bind_iff.mpr ⟨crossovers, run, returns_bind_iff.mpr ⟨crossoversRev2, runRev2,
      returns_bind_iff.mpr ⟨lines, linesRun, returns_bind_iff.mpr ⟨linesRev2, linesRunRev2,
        returns_bind_iff.mpr ⟨t1, t1Run, _, rfl⟩⟩⟩⟩⟩

/-! ## Compared groups -/

section

variable {generator : Generator} {paths : List BenchPath}
  {samples : CaseGroup → BenchPath → Option Trials}

/-- The result of a path of a group. -/
noncomputable def resultOf (generator : Generator) (paths : List BenchPath)
    (samples : CaseGroup → BenchPath → Option Trials) (group : CaseGroup) (path : BenchPath) :
    Option CaseResult :=
  groupResult generator paths (groupAssignment samples group) path

theorem groupAssignment_complete (group : CaseGroup) (path : BenchPath) (stats : CaseStatistics)
    (given : groupAssignment samples group path = some stats) : stats.medianMs.isSome := by
  obtain ⟨trials, -, same⟩ := Option.map_eq_some_iff.mp given
  rw [← same, trials.medianMs_computed]
  rfl

theorem comparedCases_eq (selection : Selection paths) (groups : List CaseGroup) :
    comparedCases generator paths samples groups = .ok (groups.flatMap fun group =>
      paths.map fun path =>
        reportCase group path (resultOf generator paths samples group path)) := by
  have each : ∀ group ∈ groups, groupCases generator paths samples group =
      .ok (paths.map fun path =>
        reportCase group path (resultOf generator paths samples group path)) := by
    intro group _
    have run := compareCaseGroup_eq generator selection
      fun path stats given => @groupAssignment_complete samples group path stats given
    unfold groupCases
    rw [run]
    have paired : ∀ result : BenchPath → Option CaseResult,
        paths.zip (paths.map result) = paths.map fun path => (path, result path) := by
      intro result
      simpa using List.zip_map' (f := fun path : BenchPath => path) (g := result) (l := paths)
    simp only [bind, Except.bind, pure, Except.pure, paired, List.map_map]
    rfl
  unfold comparedCases
  rw [mapM_eq_ok each]
  simp only [bind, Except.bind, pure, Except.pure, List.flatMap_def]

/-- A path of the report's index. -/
def Indexed (path : BenchPath) : Prop := path.boundary.text ∈ pathKeys ∧ path.policy ≠ .pinned

theorem Policy.text_ne_pinned_iff {policy : Policy} :
    policy.text ≠ "pinned" ↔ policy ≠ .pinned := by
  cases policy with
  | none => decide
  | pageable => decide
  | pinned => decide

theorem mem_indexEntries {groups : List CaseGroup} {count bits : ℕ} {key : String}
    {result : CaseResult} :
    ((count, bits, key), result) ∈ (groups.flatMap fun group => paths.map fun path =>
        reportCase group path (resultOf generator paths samples group path)).filterMap
          indexEntry ↔
      (⟨count, bits, "dense"⟩ : CaseGroup) ∈ groups ∧ ∃ path ∈ paths, Indexed path ∧
        path.boundary.text = key ∧
        resultOf generator paths samples ⟨count, bits, "dense"⟩ path = some result := by
  have entry : ∀ group path, indexEntry (reportCase group path
      (resultOf generator paths samples group path)) = some ((count, bits, key), result) ↔
      group = ⟨count, bits, "dense"⟩ ∧ Indexed path ∧ path.boundary.text = key ∧
        resultOf generator paths samples group path = some result := by
    intro group path
    cases resultEq : resultOf generator paths samples group path with
    | none => simp [indexEntry, reportCase]
    | some found =>
        obtain ⟨groupCount, groupBits, family⟩ := group
        unfold indexEntry reportCase Indexed
        dsimp only
        by_cases kept : path.boundary.text ∈ pathKeys ∧ path.policy.text ≠ "pinned" ∧
            family = "dense"
        · rw [if_pos ⟨by simp, kept⟩]
          obtain ⟨known, notPinned, dense⟩ := kept
          have policy := Policy.text_ne_pinned_iff.mp notPinned
          simp [known, policy, dense, and_assoc]
        · rw [if_neg fun all => kept all.2]
          apply iff_of_false
          · simp
          · rintro ⟨same, ⟨known, policy⟩, -⟩
            apply kept
            refine ⟨known, Policy.text_ne_pinned_iff.mpr policy, ?_⟩
            exact congrArg CaseGroup.inputFamily same
  constructor
  · intro member
    obtain ⟨case, caseMember, found⟩ := List.mem_filterMap.mp member
    obtain ⟨group, groupMember, inGroup⟩ := List.mem_flatMap.mp caseMember
    obtain ⟨path, pathMember, rfl⟩ := List.mem_map.mp inGroup
    obtain ⟨rfl, indexedPath, boundary, resultEq⟩ := (entry group path).mp found
    exact ⟨groupMember, path, pathMember, indexedPath, boundary, resultEq⟩
  · rintro ⟨groupMember, path, pathMember, indexedPath, boundary, resultEq⟩
    apply List.mem_filterMap.mpr
    refine ⟨_, List.mem_flatMap.mpr ⟨_, groupMember, List.mem_map.mpr ⟨path, pathMember, rfl⟩⟩, ?_⟩
    exact (entry _ path).mpr ⟨rfl, indexedPath, boundary, resultEq⟩

theorem indexed_injective {path other : BenchPath} (published : path ∈ publicationPaths)
    (otherPublished : other ∈ publicationPaths) (kept : Indexed path) (otherKept : Indexed other)
    (same : path.boundary.text = other.boundary.text) : path = other := by
  have distinct : ∀ path ∈ publicationPaths, ∀ other ∈ publicationPaths,
      path.boundary.text ∈ pathKeys ∧ path.policy ≠ .pinned →
      other.boundary.text ∈ pathKeys ∧ other.policy ≠ .pinned →
      path.boundary.text = other.boundary.text → path = other := by
    decide +kernel
  exact distinct path published other otherPublished kept otherKept same

theorem baseline_of_indexed {path : BenchPath} (published : path ∈ publicationPaths)
    (kept : Indexed path) : path = comparator ∨ path.baseline = some comparator := by
  have each : ∀ path ∈ publicationPaths,
      path.boundary.text ∈ pathKeys ∧ path.policy ≠ .pinned →
      path = comparator ∨ path.baseline = some comparator := by
    decide +kernel
  exact each path published kept

theorem get?_indexCases (selection : Selection paths) {groups : List CaseGroup} {count bits : ℕ}
    {key : String} {result : CaseResult} :
    Dict.get? (indexCases (groups.flatMap fun group => paths.map fun path =>
        reportCase group path (resultOf generator paths samples group path)))
          (count, bits, key) = some result ↔
      (⟨count, bits, "dense"⟩ : CaseGroup) ∈ groups ∧ ∃ path ∈ paths, Indexed path ∧
        path.boundary.text = key ∧
        resultOf generator paths samples ⟨count, bits, "dense"⟩ path = some result := by
  unfold indexCases
  rw [Dict.get?_ofEntries_iff]
  · exact mem_indexEntries
  · intro first second firstMember secondMember
    obtain ⟨-, path, pathMember, kept, boundary, found⟩ := mem_indexEntries.mp firstMember
    obtain ⟨-, other, otherMember, otherKept, otherBoundary, otherFound⟩ :=
      mem_indexEntries.mp secondMember
    have same := indexed_injective (selection.published pathMember)
      (selection.published otherMember) kept otherKept (boundary.trans otherBoundary.symm)
    subst same
    rw [found] at otherFound
    exact Option.some.inj otherFound

theorem compareResident_comparison {stats : StatsByLabel} {inversions : Inversions}
    {path : BenchPath} {before : Option CaseResult} :
    (compareResident generator stats inversions path before).map CaseResult.comparison =
      before.map CaseResult.comparison := by
  unfold compareResident
  split
  · split
    · rw [Option.map_map]
      rfl
    · rfl
  · rfl

theorem compareResident_stats {stats : StatsByLabel} {inversions : Inversions}
    {path : BenchPath} {before : Option CaseResult} :
    (compareResident generator stats inversions path before).map CaseResult.stats =
      before.map CaseResult.stats := by
  unfold compareResident
  split
  · split
    · rw [Option.map_map]
      rfl
    · rfl
  · rfl

theorem pathResult_stats {stats : StatsByLabel} {inversions : Inversions} {path : BenchPath}
    {found : Option CaseStatistics} :
    (pathResult generator stats inversions path found).map CaseResult.stats = found := by
  cases found with
  | none => rfl
  | some value =>
      rw [pathResult]
      split
      · rfl
      · split
        · rfl
        · split
          · rfl
          · rfl

theorem resultOf_stats (group : CaseGroup) (path : BenchPath) :
    (resultOf generator paths samples group path).map CaseResult.stats =
      groupAssignment samples group path := by
  rw [resultOf, groupResult, compareResident_stats, pathResult_stats]

theorem resultOf_isSome (group : CaseGroup) {path : BenchPath} :
    (resultOf generator paths samples group path).isSome = (samples group path).isSome := by
  rw [← Option.isSome_map, resultOf_stats, groupAssignment, Option.isSome_map]

/-- A passing case of the index has a verdict exactly when the comparator passed. -/
theorem verdict_isSome_iff (selection : Selection paths) (group : CaseGroup) {path : BenchPath}
    (member : path ∈ paths) (kept : Indexed path) {result : CaseResult}
    (found : resultOf generator paths samples group path = some result) :
    result.verdict.isSome = true ↔ (samples group comparator).isSome = true := by
  have passed : (samples group path).isSome = true := by
    rw [← @resultOf_isSome generator paths samples, found]
    rfl
  obtain ⟨trials, given⟩ := Option.isSome_iff_exists.mp passed
  have assigned : groupAssignment samples group path = some (computeCaseStatistics trials) := by
    rw [groupAssignment, given]
    rfl
  have comparison := congrArg (Option.map CaseResult.comparison) found
  rw [resultOf, groupResult, compareResident_comparison, assigned] at comparison
  have verdict : result.verdict.isSome = result.comparison.isSome := by
    rw [CaseResult.verdict, Option.isSome_map]
  rw [verdict]
  by_cases own : path = comparator
  · subst own
    rw [pathResult, if_pos rfl] at comparison
    have some := Option.some.inj comparison
    rw [← some]
    exact iff_of_true rfl passed
  · have baseline := (baseline_of_indexed (selection.published member) kept).resolve_left own
    have stats := groupStats_get (groupAssignment samples group) selection
      (selection.published selection.comparator_mem)
    rw [if_pos selection.comparator_mem] at stats
    rw [pathResult, if_neg own, baseline] at comparison
    dsimp only at comparison
    rw [stats, groupAssignment] at comparison
    cases baseGiven : samples group comparator with
    | none =>
        rw [baseGiven] at comparison
        have none := Option.some.inj comparison
        rw [← none]
        simp
    | some baseTrials =>
        rw [baseGiven] at comparison
        have some := Option.some.inj comparison
        rw [← some]
        simp

end

/-! ## The report of a sweep -/

section

variable (generator : Generator) (paths : List BenchPath)
  (samples : CaseGroup → BenchPath → Option Trials) (groups : List CaseGroup)
  (counts bitWidths : List ℕ) (cudaPaths : List String)

/-- The groups and paths that a report asks for. -/
def Queried (group : CaseGroup) (path : BenchPath) : Prop :=
  group ∈ groups ∧ group.inputFamily = "dense" ∧ group.count ∈ counts ∧
    group.bits ∈ bitWidths ∧ path ∈ paths ∧ path.policy ≠ .pinned ∧
    path.boundary.text ∈ cudaPaths

/-- The comparison of a path of a group could be made: the path and the comparator passed. -/
def ComparisonMade (group : CaseGroup) (path : BenchPath) : Prop :=
  (samples group path).isSome = true ∧ (samples group comparator).isSome = true

/-- The report of a sweep is total: it returns, and a size whose comparison could not be
made is supported under neither support function. -/
def ReportTotal : Prop :=
  ∃ cases, comparedCases generator paths samples groups = .ok cases ∧
    Returns (reportSections cases counts bitWidths cudaPaths) ∧
    ∀ group path, Queried paths groups counts bitWidths cudaPaths group path →
      ¬ ComparisonMade samples group path →
        ∀ supported ∈ [directionSupported, rev2Supported],
          sizeSupported (indexCases cases) group.bits path.boundary.text supported
            group.count = false

end

/-- A result without a verdict supports no claim. -/
theorem unsupported_of_verdict_none {result : CaseResult} (missing : result.verdict = none)
    {supported : CaseResult → Bool} (member : supported ∈ [directionSupported, rev2Supported]) :
    supported result = false := by
  have comparison : result.comparison = none := by
    unfold CaseResult.verdict at missing
    exact Option.map_eq_none_iff.mp missing
  rcases List.mem_cons.mp member with rfl | member
  · rw [directionSupported, comparison]
  · rw [List.mem_singleton.mp member, rev2Supported, comparison]

section

variable {generator : Generator} {paths : List BenchPath}
  {samples : CaseGroup → BenchPath → Option Trials} {groups : List CaseGroup}
  {counts bitWidths : List ℕ} {cudaPaths : List String}

theorem hasMedians_indexCases (selection : Selection paths) :
    HasMedians (indexCases (groups.flatMap fun group => paths.map fun path =>
      reportCase group path (resultOf generator paths samples group path))) := by
  rintro ⟨count, bits, key⟩ result found
  obtain ⟨-, path, member, -, -, resultEq⟩ := (get?_indexCases selection).mp found
  have stats := @resultOf_stats generator paths samples ⟨count, bits, "dense"⟩ path
  rw [resultEq] at stats
  obtain ⟨trials, -, same⟩ := Option.map_eq_some_iff.mp stats.symm
  rw [CaseStatistics.median, ← same, trials.medianMs_computed]
  exact ⟨_, rfl⟩

theorem ReportTotal.comparator_passed (selection : Selection paths)
    (known : ∀ path ∈ cudaPaths, path ∈ pathKeys)
    (total : ReportTotal generator paths samples groups counts bitWidths cudaPaths)
    {group : CaseGroup} {path : BenchPath}
    (queried : Queried paths groups counts bitWidths cudaPaths group path)
    (passed : (samples group path).isSome = true) :
    (samples group comparator).isSome = true := by
  obtain ⟨cases, run, returns, -⟩ := total
  rw [comparedCases_eq selection] at run
  cases run
  have compared := (reportSections_returns_iff (hasMedians_indexCases selection) known).mp returns
  obtain ⟨groupMember, dense, countMember, bitsMember, pathMember, policy, pathQueried⟩ := queried
  obtain ⟨count, bits, family⟩ := group
  dsimp only at dense countMember bitsMember
  subst dense
  have kept : Indexed path := ⟨known _ pathQueried, policy⟩
  rw [← @resultOf_isSome generator paths samples] at passed
  obtain ⟨result, found⟩ := Option.isSome_iff_exists.mp passed
  have indexed := (get?_indexCases selection).mpr
    ⟨groupMember, path, pathMember, kept, rfl, found⟩
  have verdict := compared bits bitsMember _ pathQueried count countMember result indexed
  exact (verdict_isSome_iff selection _ pathMember kept found).mp verdict

theorem sizeSupported_eq_false (selection : Selection paths)
    (known : ∀ path ∈ cudaPaths, path ∈ pathKeys) {group : CaseGroup} {path : BenchPath}
    (queried : Queried paths groups counts bitWidths cudaPaths group path)
    (notMade : ¬ ComparisonMade samples group path) {supported : CaseResult → Bool}
    (member : supported ∈ [directionSupported, rev2Supported]) :
    sizeSupported (indexCases (groups.flatMap fun group => paths.map fun path =>
        reportCase group path (resultOf generator paths samples group path)))
      group.bits path.boundary.text supported group.count = false := by
  obtain ⟨-, dense, -, -, pathMember, policy, pathQueried⟩ := queried
  obtain ⟨count, bits, family⟩ := group
  dsimp only at dense
  subst dense
  unfold sizeSupported
  split
  · rename_i result found
    obtain ⟨-, other, otherMember, kept, boundary, resultEq⟩ :=
      (get?_indexCases selection).mp found
    have same := indexed_injective (selection.published otherMember)
      (selection.published pathMember) kept ⟨known _ pathQueried, policy⟩ boundary
    subst same
    apply unsupported_of_verdict_none _ member
    apply Option.not_isSome_iff_eq_none.mp
    intro present
    apply notMade
    constructor
    · rw [← @resultOf_isSome generator paths samples, resultEq]
      rfl
    · exact (verdict_isSome_iff selection _ otherMember kept resultEq).mp present
  · rfl

end

/-- The report of a sweep is total exactly when the comparator passed in every group of
which a queried case passed. -/
theorem reportTotal_iff (generator : Generator) (backends boundaries policyNames : List String)
    (paths : List BenchPath) (built : buildPaths backends boundaries policyNames = .ok paths)
    (samples : CaseGroup → BenchPath → Option Trials) (groups : List CaseGroup)
    (counts bitWidths : List ℕ) (cudaPaths : List String)
    (known : ∀ path ∈ cudaPaths, path ∈ pathKeys) :
    ReportTotal generator paths samples groups counts bitWidths cudaPaths ↔
      ∀ group path, Queried paths groups counts bitWidths cudaPaths group path →
        (samples group path).isSome = true → (samples group comparator).isSome = true := by
  have selection := Selection.of_built built
  constructor
  · intro total group path queried passed
    exact total.comparator_passed selection known queried passed
  · intro holds
    refine ⟨_, comparedCases_eq selection groups, ?_, ?_⟩
    · apply (reportSections_returns_iff (hasMedians_indexCases selection) known).mpr
      intro bits bitsMember key keyMember count countMember result found
      obtain ⟨groupMember, path, pathMember, kept, rfl, resultEq⟩ :=
        (get?_indexCases selection).mp found
      apply (verdict_isSome_iff selection _ pathMember kept resultEq).mpr
      apply holds _ path ⟨groupMember, rfl, countMember, bitsMember, pathMember, kept.2, keyMember⟩
      rw [← @resultOf_isSome generator paths samples, resultEq]
      rfl
    · intro group path queried notMade supported member
      exact sizeSupported_eq_false selection known queried notMade member

/-! ## A failed baseline -/

/-- A group at 8 bits in which the comparator failed and every other path passed. -/
def failedComparator (_ : CaseGroup) (path : BenchPath) : Option Trials :=
  if path = comparator then none else some (oneTrial 1)

/-- The report of one size whose comparator failed raises, although the resident path
passed and its size ought to count as unsupported. -/
theorem reportTotal_failedComparator :
    buildPaths ["cuda"] [] ["pageable"] = .ok (selectedPaths false true false false) ∧
      ¬ ReportTotal identityGenerator (selectedPaths false true false false) failedComparator
        [⟨1024, 8, "dense"⟩] [1024] [8] cudaPathKeys := by
  have built :
      buildPaths ["cuda"] [] ["pageable"] = .ok (selectedPaths false true false false) := by
    decide +kernel
  refine ⟨built, ?_⟩
  intro total
  have queried : Queried (selectedPaths false true false false) [⟨1024, 8, "dense"⟩] [1024] [8]
      cudaPathKeys ⟨1024, 8, "dense"⟩ cudaResident :=
    ⟨List.mem_singleton_self _, rfl, List.mem_singleton_self _, List.mem_singleton_self _,
      by decide +kernel, by decide, by decide +kernel⟩
  have passed := total.comparator_passed (Selection.of_built built) (by decide +kernel) queried rfl
  cases passed

theorem reportTotal_iff_failedComparator :
    ReportTotal identityGenerator (selectedPaths false true false false) failedComparator
        [⟨1024, 8, "dense"⟩] [1024] [8] cudaPathKeys ↔
      ∀ group path, Queried (selectedPaths false true false false) [⟨1024, 8, "dense"⟩] [1024] [8]
          cudaPathKeys group path →
        (failedComparator group path).isSome = true →
          (failedComparator group comparator).isSome = true :=
  reportTotal_iff identityGenerator ["cuda"] [] ["pageable"] (selectedPaths false true false false)
    (by decide +kernel) failedComparator [⟨1024, 8, "dense"⟩] [1024] [8] cudaPathKeys
    (by decide +kernel)

end Stoquant

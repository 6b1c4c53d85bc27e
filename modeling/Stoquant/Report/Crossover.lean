import Stoquant.Stats.FailClosed

/-!
# Crossovers

The cases that `report.py` indexes and its search for the size at which a path
overtakes the comparator.  The search pairs the sizes that are present, so a
missing size makes its neighbours look adjacent.
-/

namespace Stoquant

/-- `REPORT_PATHS`. -/
def reportPaths : List BenchPath :=
  [comparator, avx2Comparator, cudaResident, cudaResidentGraph, cudaHostOrigin .pageable]

/-- `REPORT_LABELS`. -/
def reportLabels : List String :=
  ["C comparator", "AVX2 comparator (descriptive)", "CUDA resident", "CUDA resident-graph",
    "CUDA host-origin"]

/-- `PATHS`. -/
def pathKeys : List String := reportPaths.map BenchPath.key

/-- `CUDA_PATHS`. -/
def cudaPathKeys : List String :=
  (reportPaths.filter fun path => path.backend = .cuda).map BenchPath.key

/-- A case as the report reads it. -/
structure ReportCase where
  count : ℕ
  bits : ℕ
  timingBoundary : String
  transferPolicy : String
  inputFamily : String
  correctnessStatus : String
  statistics : Option CaseResult

/-- The cases of a report by size, bit width and path. -/
abbrev IndexedCases := List ((ℕ × ℕ × String) × CaseResult)

/-- The entry of a case in the index, if it is a passing one of the report's paths. -/
def indexEntry (case : ReportCase) : Option ((ℕ × ℕ × String) × CaseResult) :=
  if case.correctnessStatus = "passed" ∧ case.timingBoundary ∈ pathKeys ∧
      case.transferPolicy ≠ "pinned" ∧ case.inputFamily = "dense" then
    case.statistics.map fun stats => ((case.count, case.bits, case.timingBoundary), stats)
  else none

/-- `index_cases`. -/
def indexCases (cases : List ReportCase) : IndexedCases :=
  Dict.ofEntries (cases.filterMap indexEntry)

/-- `stats.get("verdict")`. -/
def CaseResult.verdict (stats : CaseResult) : Option Verdict :=
  stats.comparison.map fun comparison => comparison.speedup.verdict

/-- `direction_supported`. -/
def directionSupported (stats : CaseResult) : Bool :=
  match stats.comparison with
  | some comparison =>
      match comparison.claims with
      | some claims => claims.directionSupported
      | none => false
  | none => false

/-- `magnitude_supported`. -/
def magnitudeSupported (stats : CaseResult) : Option Bool :=
  (stats.comparison.bind Comparison.claims).map ClaimSupport.magnitudeSupported

/-- `rev2_supported`. -/
def rev2Supported (stats : CaseResult) : Bool :=
  match stats.comparison with
  | some comparison =>
      match comparison.claims with
      | some claims => claims.claimSupportedRev2
      | none => false
  | none => false

/-- A size with its verdict and whether the claim is supported. -/
structure CrossoverPoint where
  count : ℕ
  verdict : Verdict
  supported : Bool
  deriving DecidableEq, Repr

/-- The result of `find_crossovers`. -/
inductive Crossover where
  | resolved (low high : ℕ) (before after : Verdict)
  | notResolved (flips : List (ℕ × ℕ)) (largestSupportedSlower smallestSupportedFaster : Option ℕ)
  deriving DecidableEq, Repr

/-- Verdicts `faster` and `slower`, in either order. -/
def oppositeVerdicts (before after : Verdict) : Bool :=
  (before = .faster && after = .slower) || (before = .slower && after = .faster)

/-- Two points between which the verdict flips with support on both sides. -/
def isFlip (points : CrossoverPoint × CrossoverPoint) : Bool :=
  points.1.supported && points.2.supported &&
    oppositeVerdicts points.1.verdict points.2.verdict

/-- `itertools.pairwise`. -/
def pairwise {α : Type} (items : List α) : List (α × α) := items.zip items.tail

/-- The loop of `find_crossovers` over the sizes. -/
def crossoverPoints (indexed : IndexedCases) (bits : ℕ) (path : String)
    (supported : CaseResult → Bool) : List ℕ → Except PyError (List CrossoverPoint)
  | [] => .ok []
  | count :: counts =>
      match Dict.get? indexed (count, bits, path) with
      | none => crossoverPoints indexed bits path supported counts
      | some stats =>
          match stats.verdict with
          | none => .error (.keyError "verdict")
          | some verdict => do
              let rest ← crossoverPoints indexed bits path supported counts
              return ⟨count, verdict, supported stats⟩ :: rest

/-- The sizes of the points with a supported verdict. -/
def supportedSizes (points : List CrossoverPoint) (verdict : Verdict) : List ℕ :=
  (points.filter fun point => point.supported && point.verdict = verdict).map
    CrossoverPoint.count

/-- What `find_crossovers` makes of its points. -/
def crossoverOf (points : List CrossoverPoint) : Crossover :=
  match (pairwise points).filter isFlip with
  | [(before, after)] => .resolved before.count after.count before.verdict after.verdict
  | flips =>
      .notResolved (flips.map fun flip => (flip.1.count, flip.2.count))
        (supportedSizes points .slower).max? (supportedSizes points .faster).min?

/-- `find_crossovers`. -/
def findCrossovers (indexed : IndexedCases) (counts : List ℕ) (bits : ℕ) (path : String)
    (supported : CaseResult → Bool) : Except PyError Crossover := do
  let points ← crossoverPoints indexed bits path supported counts
  return crossoverOf points

/-! ## The rule -/

section

variable (indexed : IndexedCases) (bits : ℕ) (path : String) (supported : CaseResult → Bool)

/-- The point of a size, if it has a case with a verdict. -/
def sizePoint (count : ℕ) : Option CrossoverPoint :=
  (Dict.get? indexed (count, bits, path)).bind fun stats =>
    stats.verdict.map fun verdict => ⟨count, verdict, supported stats⟩

/-- The sizes between which the verdict flips with support on both sides. -/
def flipsBetween (sizes : ℕ × ℕ) : Bool :=
  match sizePoint indexed bits path supported sizes.1,
    sizePoint indexed bits path supported sizes.2 with
  | some before, some after => isFlip (before, after)
  | _, _ => false

/-- The flips between sizes that are adjacent in the grid. -/
def gridFlips (counts : List ℕ) : List (ℕ × ℕ) :=
  (pairwise counts).filter (flipsBetween indexed bits path supported)

/-- The sizes that have a case with a verdict. -/
def presentSizes (counts : List ℕ) : List ℕ :=
  counts.filter fun count => (sizePoint indexed bits path supported count).isSome

/-- The flips over sizes that are missing. -/
def spanningFlips (counts : List ℕ) : List (ℕ × ℕ) :=
  ((pairwise (presentSizes indexed bits path supported counts)).filter
    (flipsBetween indexed bits path supported)).filter fun sizes => sizes ∉ pairwise counts

/-- The sizes of a grid that have a supported verdict. -/
def supportedAt (counts : List ℕ) (verdict : Verdict) : List ℕ :=
  supportedSizes (counts.filterMap (sizePoint indexed bits path supported)) verdict

/-- The rule of the protocol: resolved to the one flip between adjacent sizes of the
grid, and else not resolved, with the largest supported slower size and the smallest
supported faster one. -/
def AppliesRule (counts : List ℕ) (result : Except PyError Crossover) : Prop :=
  match gridFlips indexed bits path supported counts with
  | [(low, high)] => ∃ before after, result = .ok (.resolved low high before after)
  | _ => ∃ flips, result =
      .ok (.notResolved flips (supportedAt indexed bits path supported counts .slower).max?
        (supportedAt indexed bits path supported counts .faster).min?)

end

section

variable {indexed : IndexedCases} {bits : ℕ} {path : String} {supported : CaseResult → Bool}

/-- Every present size has a verdict. -/
def AllCompared (indexed : IndexedCases) (bits : ℕ) (path : String) (counts : List ℕ) : Prop :=
  ∀ count ∈ counts, ∀ stats, Dict.get? indexed (count, bits, path) = some stats →
    stats.verdict.isSome

/-- The loop returns the points of the sizes when each present size has a verdict. -/
theorem crossoverPoints_eq {counts : List ℕ} (compared : AllCompared indexed bits path counts) :
    crossoverPoints indexed bits path supported counts =
      .ok (counts.filterMap (sizePoint indexed bits path supported)) := by
  induction counts with
  | nil => rfl
  | cons count counts induction =>
      have rest := induction fun other member => compared other (List.mem_cons_of_mem _ member)
      have first := compared count List.mem_cons_self
      rw [crossoverPoints, List.filterMap_cons, sizePoint]
      cases found : Dict.get? indexed (count, bits, path) with
      | none => exact rest
      | some stats =>
          obtain ⟨verdict, verdictEq⟩ := Option.isSome_iff_exists.mp (first stats found)
          simp only [Option.bind_some, verdictEq, Option.map_some]
          rw [rest]
          rfl

/-- The loop raises at a present size without a verdict. -/
theorem crossoverPoints_raises {counts : List ℕ}
    (missing : ¬ AllCompared indexed bits path counts) :
    crossoverPoints indexed bits path supported counts = .error (.keyError "verdict") := by
  induction counts with
  | nil => exact absurd (fun _ member => absurd member List.not_mem_nil) missing
  | cons count counts induction =>
      rw [crossoverPoints]
      cases found : Dict.get? indexed (count, bits, path) with
      | none =>
          apply induction
          intro rest
          apply missing
          intro other member stats otherFound
          rcases List.mem_cons.mp member with rfl | later
          · rw [found] at otherFound
            cases otherFound
          · exact rest other later stats otherFound
      | some stats =>
          cases verdictEq : stats.verdict with
          | none => simp [verdictEq]
          | some verdict =>
              have rest : ¬ AllCompared indexed bits path counts := by
                intro rest
                apply missing
                intro other member otherStats otherFound
                rcases List.mem_cons.mp member with rfl | later
                · rw [found] at otherFound
                  cases otherFound
                  rw [verdictEq]
                  rfl
                · exact rest other later otherStats otherFound
              simp only [verdictEq, induction rest]
              rfl

theorem sizePoint_count {count : ℕ} {point : CrossoverPoint}
    (found : sizePoint indexed bits path supported count = some point) : point.count = count := by
  unfold sizePoint at found
  cases case : Dict.get? indexed (count, bits, path) with
  | none => simp [case] at found
  | some stats =>
      cases verdictEq : stats.verdict with
      | none => simp [case, verdictEq] at found
      | some verdict =>
          simp only [case, Option.bind_some, verdictEq, Option.map_some,
            Option.some.injEq] at found
          rw [← found]

theorem mem_presentSizes {counts : List ℕ} {count : ℕ} :
    count ∈ presentSizes indexed bits path supported counts ↔
      count ∈ counts ∧ (sizePoint indexed bits path supported count).isSome = true :=
  List.mem_filter

theorem filterMap_presentSizes (counts : List ℕ) :
    (presentSizes indexed bits path supported counts).filterMap
        (sizePoint indexed bits path supported) =
      counts.filterMap (sizePoint indexed bits path supported) := by
  induction counts with
  | nil => rfl
  | cons count counts induction =>
      unfold presentSizes at induction ⊢
      cases found : sizePoint indexed bits path supported count with
      | none => simp [found, induction]
      | some point => simp [found, induction]

theorem map_flips {sizes : List ℕ}
    (present : ∀ size ∈ sizes, (sizePoint indexed bits path supported size).isSome = true) :
    ((pairwise (sizes.filterMap (sizePoint indexed bits path supported))).filter isFlip).map
        (fun flip => (flip.1.count, flip.2.count)) =
      (pairwise sizes).filter (flipsBetween indexed bits path supported) := by
  induction sizes with
  | nil => rfl
  | cons first sizes induction =>
      have rest := induction fun size member => present size (List.mem_cons_of_mem _ member)
      obtain ⟨before, beforeFound⟩ :=
        Option.isSome_iff_exists.mp (present first List.mem_cons_self)
      cases sizes with
      | nil => simp [pairwise, beforeFound]
      | cons second sizes =>
          obtain ⟨after, afterFound⟩ := Option.isSome_iff_exists.mp (present second (by simp))
          have pairs : pairwise ((first :: second :: sizes).filterMap
              (sizePoint indexed bits path supported)) =
              (before, after) :: pairwise ((second :: sizes).filterMap
                (sizePoint indexed bits path supported)) := by
            simp [pairwise, beforeFound, afterFound]
          have sizePairs : pairwise (first :: second :: sizes) =
              (first, second) :: pairwise (second :: sizes) := rfl
          have flip : flipsBetween indexed bits path supported (first, second) =
              isFlip (before, after) := by
            simp [flipsBetween, beforeFound, afterFound]
          rw [pairs, sizePairs, List.filter_cons, List.filter_cons, flip]
          split
          · rw [List.map_cons, rest, sizePoint_count beforeFound, sizePoint_count afterFound]
          · exact rest

theorem map_flips_present (counts : List ℕ) :
    ((pairwise (counts.filterMap (sizePoint indexed bits path supported))).filter isFlip).map
        (fun flip => (flip.1.count, flip.2.count)) =
      (pairwise (presentSizes indexed bits path supported counts)).filter
        (flipsBetween indexed bits path supported) := by
  rw [← filterMap_presentSizes]
  apply map_flips
  intro size member
  exact (mem_presentSizes.mp member).2

theorem mem_of_mem_pairwise {α : Type} {items : List α} {pair : α × α}
    (member : pair ∈ pairwise items) : pair.1 ∈ items ∧ pair.2 ∈ items.tail :=
  ⟨(List.of_mem_zip member).1, (List.of_mem_zip member).2⟩

theorem present_of_flipsBetween {sizes : ℕ × ℕ}
    (flips : flipsBetween indexed bits path supported sizes = true) :
    (sizePoint indexed bits path supported sizes.1).isSome = true ∧
      (sizePoint indexed bits path supported sizes.2).isSome = true := by
  unfold flipsBetween at flips
  split at flips
  · rename_i before after beforeFound afterFound
    rw [beforeFound, afterFound]
    exact ⟨rfl, rfl⟩
  · cases flips

/-- Among the pairs of present sizes, those that are adjacent in the grid are the
adjacent pairs with both sizes present. -/
theorem adjacent_presentSizes {counts : List ℕ} (nodup : counts.Nodup) :
    (pairwise (presentSizes indexed bits path supported counts)).filter
        (fun sizes => sizes ∈ pairwise counts) =
      (pairwise counts).filter fun sizes =>
        (sizePoint indexed bits path supported sizes.1).isSome &&
          (sizePoint indexed bits path supported sizes.2).isSome := by
  induction counts with
  | nil => rfl
  | cons first counts induction =>
      obtain ⟨fresh, restNodup⟩ := List.nodup_cons.mp nodup
      have rest := induction restNodup
      cases counts with
      | nil =>
          unfold presentSizes
          cases (sizePoint indexed bits path supported first).isSome <;> simp [pairwise]
      | cons second counts =>
          have gridPairs : pairwise (first :: second :: counts) =
              (first, second) :: pairwise (second :: counts) := rfl
          -- a pair of later sizes is adjacent exactly when it is in the rest of the grid
          have later : ∀ sizes ∈ pairwise (presentSizes indexed bits path supported
              (second :: counts)),
              (decide (sizes ∈ pairwise (first :: second :: counts))) =
                decide (sizes ∈ pairwise (second :: counts)) := by
            intro sizes member
            have inRest := (mem_presentSizes.mp (mem_of_mem_pairwise member).1).1
            have different : sizes ≠ (first, second) := by
              rintro rfl
              exact fresh inRest
            apply decide_eq_decide.mpr
            rw [gridPairs, List.mem_cons, or_iff_right different]
          cases firstPresent : (sizePoint indexed bits path supported first).isSome with
          | false =>
              have same : presentSizes indexed bits path supported (first :: second :: counts) =
                  presentSizes indexed bits path supported (second :: counts) := by
                simp [presentSizes, firstPresent]
              rw [same, List.filter_congr later, rest, gridPairs, List.filter_cons]
              simp [firstPresent]
          | true =>
              cases secondPresent : (sizePoint indexed bits path supported second).isSome with
              | true =>
                  have grown : pairwise (presentSizes indexed bits path supported
                      (first :: second :: counts)) = (first, second) ::
                        pairwise (presentSizes indexed bits path supported
                          (second :: counts)) := by
                    simp [presentSizes, firstPresent, secondPresent, pairwise]
                  have head : (first, second) ∈ pairwise (first :: second :: counts) := by
                    rw [gridPairs]
                    exact List.mem_cons_self
                  rw [grown, List.filter_cons, if_pos (by simpa using head),
                    List.filter_congr later, rest, gridPairs, List.filter_cons]
                  simp [firstPresent, secondPresent]
              | false =>
                  have kept : presentSizes indexed bits path supported
                      (first :: second :: counts) = first ::
                        presentSizes indexed bits path supported (second :: counts) := by
                    simp [presentSizes, firstPresent]
                  rw [kept, gridPairs, List.filter_cons_of_neg (by simp [secondPresent]), ← rest]
                  cases present : presentSizes indexed bits path supported (second :: counts) with
                  | nil => rfl
                  | cons next others =>
                      have jump : (first, next) ∉ pairwise (first :: second :: counts) := by
                        intro adjacent
                        have nextPresent : next ∈ presentSizes indexed bits path supported
                            (second :: counts) := by
                          rw [present]
                          exact List.mem_cons_self
                        rw [gridPairs, List.mem_cons] at adjacent
                        rcases adjacent with same | laterPair
                        · cases same
                          rw [(mem_presentSizes.mp nextPresent).2] at secondPresent
                          cases secondPresent
                        · exact fresh (mem_of_mem_pairwise laterPair).1
                      have spanned : pairwise (first :: next :: others) =
                          (first, next) :: pairwise (next :: others) := rfl
                      rw [present] at later
                      rw [spanned, List.filter_cons_of_neg (by simpa [gridPairs] using jump)]
                      rw [← gridPairs, List.filter_congr later]

theorem gridFlips_eq {counts : List ℕ} (nodup : counts.Nodup) :
    ((pairwise (presentSizes indexed bits path supported counts)).filter
        (flipsBetween indexed bits path supported)).filter
          (fun sizes => sizes ∈ pairwise counts) =
      gridFlips indexed bits path supported counts := by
  rw [List.filter_comm, adjacent_presentSizes nodup, gridFlips, List.filter_filter]
  apply List.filter_congr
  intro sizes _
  cases flips : flipsBetween indexed bits path supported sizes with
  | false => rfl
  | true =>
      obtain ⟨before, after⟩ := present_of_flipsBetween flips
      rw [before, after]
      rfl

theorem length_flips {counts : List ℕ} (nodup : counts.Nodup) :
    ((pairwise (counts.filterMap (sizePoint indexed bits path supported))).filter
        isFlip).length =
      (gridFlips indexed bits path supported counts).length +
        (spanningFlips indexed bits path supported counts).length := by
  have sizes := @map_flips_present indexed bits path supported counts
  have lengths := congrArg List.length sizes
  rw [List.length_map] at lengths
  rw [lengths, ← gridFlips_eq nodup, spanningFlips]
  have split := List.length_eq_length_filter_add (l :=
    (pairwise (presentSizes indexed bits path supported counts)).filter
      (flipsBetween indexed bits path supported)) fun sizes => decide (sizes ∈ pairwise counts)
  rw [split]
  simp

theorem crossoverOf_single {points : List CrossoverPoint} {before after : CrossoverPoint}
    (single : (pairwise points).filter isFlip = [(before, after)]) :
    crossoverOf points = .resolved before.count after.count before.verdict after.verdict := by
  unfold crossoverOf
  rw [single]

theorem crossoverOf_other (points : List CrossoverPoint)
    (other : ((pairwise points).filter isFlip).length ≠ 1) :
    ∃ flips, crossoverOf points = .notResolved flips
      (supportedSizes points .slower).max? (supportedSizes points .faster).min? := by
  unfold crossoverOf
  cases found : (pairwise points).filter isFlip with
  | nil => exact ⟨[], rfl⟩
  | cons flip flips =>
      cases flips with
      | nil => simp [found] at other
      | cons next flips => exact ⟨_, rfl⟩

/-- The search applies the rule exactly when every present size has a verdict and the
flips over missing sizes do not make up for, or add to, a single flip. -/
theorem findCrossovers_appliesRule_iff {counts : List ℕ} (increasing : counts.Pairwise (· < ·)) :
    AppliesRule indexed bits path supported counts
        (findCrossovers indexed counts bits path supported) ↔
      AllCompared indexed bits path counts ∧
        (spanningFlips indexed bits path supported counts = [] ∨
          2 ≤ (gridFlips indexed bits path supported counts).length ∨
          gridFlips indexed bits path supported counts = [] ∧
            2 ≤ (spanningFlips indexed bits path supported counts).length) := by
  have nodup : counts.Nodup := increasing.imp Nat.ne_of_lt
  by_cases compared : AllCompared indexed bits path counts
  swap
  · have raised : findCrossovers indexed counts bits path supported =
        .error (.keyError "verdict") := by
      unfold findCrossovers
      rw [crossoverPoints_raises compared]
      rfl
    rw [raised]
    apply iff_of_false
    · unfold AppliesRule
      split
      · rintro ⟨before, after, impossible⟩
        cases impossible
      · rintro ⟨flips, impossible⟩
        cases impossible
    · exact fun holds => compared holds.1
  have returned : findCrossovers indexed counts bits path supported =
      .ok (crossoverOf (counts.filterMap (sizePoint indexed bits path supported))) := by
    unfold findCrossovers
    rw [crossoverPoints_eq compared]
    rfl
  have lengths := @length_flips indexed bits path supported counts nodup
  have sizes := @map_flips_present indexed bits path supported counts
  have adjacent := @gridFlips_eq indexed bits path supported counts nodup
  rw [returned, and_iff_right compared]
  unfold AppliesRule supportedAt
  cases grid : gridFlips indexed bits path supported counts with
  | nil =>
      rw [grid, List.length_nil, Nat.zero_add] at lengths
      simp only [List.length_nil]
      constructor
      · rintro ⟨flips, unresolved⟩
        by_contra single
        -- one flip over missing sizes is taken for a resolved crossover
        have one : ((pairwise (counts.filterMap
            (sizePoint indexed bits path supported))).filter isFlip).length = 1 := by
          rw [lengths]
          have positive : (spanningFlips indexed bits path supported counts).length ≠ 0 :=
            fun zero => single (Or.inl (List.length_eq_zero_iff.mp zero))
          have few : ¬ 2 ≤ (spanningFlips indexed bits path supported counts).length :=
            fun many => single (Or.inr (Or.inr ⟨trivial, many⟩))
          omega
        obtain ⟨flip, flipEq⟩ := List.length_eq_one_iff.mp one
        rw [crossoverOf_single flipEq] at unresolved
        cases unresolved
      · intro holds
        have other : ((pairwise (counts.filterMap
            (sizePoint indexed bits path supported))).filter isFlip).length ≠ 1 := by
          rw [lengths]
          rcases holds with none | few | many
          · rw [none]
            simp
          · omega
          · omega
        obtain ⟨flips, unresolved⟩ := crossoverOf_other _ other
        exact ⟨flips, by rw [unresolved]⟩
  | cons pair pairs =>
      cases pairs with
      | nil =>
          rw [grid, List.length_singleton] at lengths
          simp only [List.length_singleton]
          constructor
          · rintro ⟨before, after, resolved⟩
            left
            by_contra some
            have positive : (spanningFlips indexed bits path supported counts).length ≠ 0 :=
              fun zero => some (List.length_eq_zero_iff.mp zero)
            obtain ⟨flips, unresolved⟩ := crossoverOf_other
              (counts.filterMap (sizePoint indexed bits path supported)) (by omega)
            rw [unresolved] at resolved
            cases resolved
          · intro holds
            have none : (spanningFlips indexed bits path supported counts).length = 0 := by
              rcases holds with none | few | many
              · rw [none]
                rfl
              · omega
              · exact absurd many.1 (by simp)
            obtain ⟨flip, flipEq⟩ := List.length_eq_one_iff.mp (by omega :
              ((pairwise (counts.filterMap
                (sizePoint indexed bits path supported))).filter isFlip).length = 1)
            rw [flipEq, List.map_singleton] at sizes
            rw [← sizes, grid] at adjacent
            have kept : (flip.1.count, flip.2.count) = pair := by
              by_cases member : (flip.1.count, flip.2.count) ∈ pairwise counts
              · simpa [member] using adjacent
              · simp [member] at adjacent
            rw [crossoverOf_single flipEq]
            subst kept
            exact ⟨_, _, rfl⟩
      | cons next pairs =>
          rw [grid, List.length_cons, List.length_cons] at lengths
          simp only [List.length_cons]
          apply iff_of_true
          · obtain ⟨flips, unresolved⟩ := crossoverOf_other
              (counts.filterMap (sizePoint indexed bits path supported)) (by omega)
            exact ⟨flips, by rw [unresolved]⟩
          · right
            left
            omega

end

/-! ## A missing size -/

/-- One trial of one sample. -/
def oneTrial (sampleMs : ℚ) : Trials where
  samples := [[sampleMs]]
  nonempty := by simp
  each_nonempty := by simp

/-- The result of the resident path against the comparator, with the AVX2 comparator
failed. -/
def residentResult (comparatorMs residentMs : ℚ) : CaseResult :=
  let found := computeCaseStatistics (oneTrial residentMs)
  { stats := found
    comparison := some (pathComparison identityGenerator [] ⟨fun _ => false, fun _ => false⟩
      cudaResident comparator (computeCaseStatistics (oneTrial comparatorMs)) found)
    vsResident := none }

/-- A case of the resident path at 8 bits. -/
def residentCase (count : ℕ) (comparatorMs residentMs : ℚ) : ReportCase :=
  ⟨count, 8, "resident", "none", "dense", "passed",
    some (residentResult comparatorMs residentMs)⟩

/-- A case of the resident path that failed. -/
def failedResidentCase (count : ℕ) : ReportCase :=
  ⟨count, 8, "resident", "none", "dense", "failed", none⟩

/-- Three sizes of which the middle one failed. -/
def missingMiddle : IndexedCases :=
  indexCases [residentCase 1024 1 2, failedResidentCase 2048, residentCase 4096 2 1]

/-- With the middle size missing, sizes that are not adjacent are reported as the
interval of a resolved crossover, although the rule finds none. -/
theorem findCrossovers_missingMiddle :
    findCrossovers missingMiddle [1024, 2048, 4096] 8 "resident" directionSupported =
        .ok (.resolved 1024 4096 .slower .faster) ∧
      ¬ AppliesRule missingMiddle 8 "resident" directionSupported [1024, 2048, 4096]
        (findCrossovers missingMiddle [1024, 2048, 4096] 8 "resident" directionSupported) := by
  have found : findCrossovers missingMiddle [1024, 2048, 4096] 8 "resident"
      directionSupported = .ok (.resolved 1024 4096 .slower .faster) := by
    decide +kernel
  have noFlip :
      gridFlips missingMiddle 8 "resident" directionSupported [1024, 2048, 4096] = [] := by
    decide +kernel
  refine ⟨found, ?_⟩
  rw [found, AppliesRule, noFlip]
  rintro ⟨flips, impossible⟩
  cases impossible

theorem findCrossovers_appliesRule_iff_missingMiddle :
    AppliesRule missingMiddle 8 "resident" directionSupported [1024, 2048, 4096]
        (findCrossovers missingMiddle [1024, 2048, 4096] 8 "resident" directionSupported) ↔
      AllCompared missingMiddle 8 "resident" [1024, 2048, 4096] ∧
        (spanningFlips missingMiddle 8 "resident" directionSupported [1024, 2048, 4096] = [] ∨
          2 ≤ (gridFlips missingMiddle 8 "resident" directionSupported
            [1024, 2048, 4096]).length ∨
          gridFlips missingMiddle 8 "resident" directionSupported [1024, 2048, 4096] = [] ∧
            2 ≤ (spanningFlips missingMiddle 8 "resident" directionSupported
              [1024, 2048, 4096]).length) :=
  findCrossovers_appliesRule_iff (by decide)

end Stoquant

import Stoquant.Stats.Case

/-!
# The conservative speedup range

The range of a comparison divides the extreme trial medians of the two sides.
It contains the point estimate, which divides the pooled medians, and the
bootstrap interval, whatever indices the generator draws.
-/

namespace Stoquant

open Quantile

/-- The trials of one family have the same number of samples. -/
def Trials.EqualSizes (trials : Trials) : Prop :=
  ∃ size, ∀ trial ∈ trials.samples, trial.length = size

/-- Every sample is a positive time. -/
def Trials.Positive (trials : Trials) : Prop :=
  ∀ trial ∈ trials.samples, ∀ sample ∈ trial, 0 < sample

namespace Trials

variable (trials : Trials)

theorem pooled_ne_nil : trials.samples.flatten ≠ [] := by
  intro empty
  obtain ⟨trial, rest, samplesEq⟩ := List.exists_cons_of_ne_nil trials.nonempty
  have member : trial ∈ trials.samples := by simp [samplesEq]
  exact trials.each_nonempty trial member (List.flatten_eq_nil_iff.mp empty trial member)

theorem medianMs_computed :
    (computeCaseStatistics trials).medianMs = some (median trials.samples.flatten) := by
  simp [CaseStatistics.medianMs, computeCaseStatistics, computeStatistics,
    trials.pooled_ne_nil]

theorem trialMedianMin_le {value : ℚ} (member : value ∈ trials.medians) :
    (computeCaseStatistics trials).trialMedianMinMs ≤ value :=
  List.min_le_of_mem member

theorem le_trialMedianMax {value : ℚ} (member : value ∈ trials.medians) :
    value ≤ (computeCaseStatistics trials).trialMedianMaxMs :=
  List.le_max_of_mem member

theorem trialMedianMin_mem :
    (computeCaseStatistics trials).trialMedianMinMs ∈ trials.medians :=
  List.min_mem trials.medians_ne_nil

theorem trialMedianMax_mem :
    (computeCaseStatistics trials).trialMedianMaxMs ∈ trials.medians :=
  List.max_mem trials.medians_ne_nil

theorem pooledMedian_between {trials : Trials} (sizes : trials.EqualSizes) :
    (computeCaseStatistics trials).trialMedianMinMs ≤ median trials.samples.flatten ∧
      median trials.samples.flatten ≤ (computeCaseStatistics trials).trialMedianMaxMs := by
  obtain ⟨size, sizes⟩ := sizes
  obtain ⟨first, rest, samplesEq⟩ := List.exists_cons_of_ne_nil trials.nonempty
  have firstMember : first ∈ trials.samples := by simp [samplesEq]
  have positive : 0 < size := by
    rw [← sizes first firstMember]
    exact List.length_pos_of_ne_nil (trials.each_nonempty first firstMember)
  have medianMember : ∀ trial ∈ trials.samples, median trial ∈ trials.medians :=
    fun trial member => List.mem_map_of_mem member
  constructor
  · apply le_median_flatten trials.nonempty positive sizes
    intro trial member
    exact trials.trialMedianMin_le (medianMember trial member)
  · apply median_flatten_le trials.nonempty positive sizes
    intro trial member
    exact trials.le_trialMedianMax (medianMember trial member)

theorem median_pos {sample : List ℚ} (nonempty : sample ≠ [])
    (positive : ∀ value ∈ sample, 0 < value) : 0 < median sample := by
  have least : sample.min nonempty ≤ median sample :=
    le_median_of_forall nonempty fun value member => List.min_le_of_mem member
  exact (positive _ (List.min_mem nonempty)).trans_le least

theorem medians_pos {trials : Trials} (positive : trials.Positive) {value : ℚ}
    (member : value ∈ trials.medians) : 0 < value := by
  obtain ⟨trial, inside, rfl⟩ := List.mem_map.mp member
  exact median_pos (trials.each_nonempty trial inside) (positive trial inside)

theorem pooledMedian_pos {trials : Trials} (positive : trials.Positive) :
    0 < median trials.samples.flatten := by
  apply median_pos trials.pooled_ne_nil
  intro value member
  obtain ⟨trial, inside, valueMember⟩ := List.mem_flatten.mp member
  exact positive trial inside value valueMember

/-- Percentiles of the trial medians stay between their extremes, so the middle
spread is at most the whole one. -/
theorem spreadP90P10_le_spreadRatio {trials : Trials} (positive : trials.Positive) :
    (computeCaseStatistics trials).spreadP90P10 ≤
      (computeCaseStatistics trials).spreadRatio := by
  have lowMin : (computeCaseStatistics trials).trialMedianMinMs ≤
      percentile trials.medians stabilityPercentiles.1 := by
    apply le_percentile trials.medians_ne_nil (by norm_num [stabilityPercentiles])
    intro value member
    exact trials.trialMedianMin_le member
  have highMax : percentile trials.medians stabilityPercentiles.2 ≤
      (computeCaseStatistics trials).trialMedianMaxMs := by
    apply percentile_le trials.medians_ne_nil (by norm_num [stabilityPercentiles])
    intro value member
    exact trials.le_trialMedianMax member
  have minPositive := medians_pos positive trials.trialMedianMin_mem
  have maxPositive := medians_pos positive trials.trialMedianMax_mem
  have lowPositive := minPositive.trans_le lowMin
  change spreadOver (percentile trials.medians stabilityPercentiles.2)
      (percentile trials.medians stabilityPercentiles.1) ≤
    spreadOver (computeCaseStatistics trials).trialMedianMaxMs
      (computeCaseStatistics trials).trialMedianMinMs
  rw [spreadOver, spreadOver, if_pos lowPositive, if_pos minPositive]
  apply WithTop.coe_le_coe.mpr
  exact div_le_div₀ maxPositive.le highMax minPositive lowMin

theorem stable_of_not_unstableRev2 {trials : Trials} (positive : trials.Positive)
    (narrow : (computeCaseStatistics trials).unstableRev2 = false) :
    (computeCaseStatistics trials).stable = true := by
  have ratio : (computeCaseStatistics trials).spreadRatio ≤ (spreadThreshold : WithTop ℚ) :=
    not_lt.mp (of_decide_eq_false narrow)
  exact decide_eq_true ((spreadP90P10_le_spreadRatio positive).trans ratio)

end Trials

theorem median_resampled_between {sample : List ℚ} (nonempty : sample ≠ []) {low high : ℚ}
    (lowBound : ∀ value ∈ sample, low ≤ value) (highBound : ∀ value ∈ sample, value ≤ high)
    (draw : Fin sample.length → Fin sample.length) :
    low ≤ median (resampled sample draw) ∧ median (resampled sample draw) ≤ high := by
  have drawnNonempty : resampled sample draw ≠ [] := by
    apply List.ne_nil_of_length_pos
    simpa [resampled] using List.length_pos_of_ne_nil nonempty
  have drawnMember : ∀ value ∈ resampled sample draw, value ∈ sample := by
    intro value member
    obtain ⟨slot, rfl⟩ := (List.mem_ofFn' _ _).mp member
    exact List.getElem_mem _
  constructor
  · exact le_median_of_forall drawnNonempty fun value member =>
      lowBound value (drawnMember value member)
  · exact median_le_of_forall drawnNonempty fun value member =>
      highBound value (drawnMember value member)

theorem bootstrapSpeedupCi_between {resamples : Nat} (some_resample : 0 < resamples)
    {base cand : List ℚ} (baseNonempty : base ≠ []) (candNonempty : cand ≠ [])
    {baseLow baseHigh candLow candHigh : ℚ} (basePositive : 0 < baseLow)
    (candPositive : 0 < candLow)
    (baseLowBound : ∀ value ∈ base, baseLow ≤ value)
    (baseHighBound : ∀ value ∈ base, value ≤ baseHigh)
    (candLowBound : ∀ value ∈ cand, candLow ≤ value)
    (candHighBound : ∀ value ∈ cand, value ≤ candHigh)
    (draws : Draws resamples base.length cand.length) :
    baseLow / candHigh ≤ (bootstrapSpeedupCi base cand draws bootstrapLevel).1 ∧
      (bootstrapSpeedupCi base cand draws bootstrapLevel).1 ≤
        (bootstrapSpeedupCi base cand draws bootstrapLevel).2 ∧
      (bootstrapSpeedupCi base cand draws bootstrapLevel).2 ≤ baseHigh / candLow := by
  simp only [bootstrapSpeedupCi]
  generalize ratiosEq : (List.ofFn fun row =>
    median (resampled base (draws.base row)) /
      median (resampled cand (draws.cand row))) = ratios
  have ratiosNonempty : ratios ≠ [] := by
    apply List.ne_nil_of_length_pos
    simpa [← ratiosEq] using some_resample
  have each : ∀ ratio ∈ ratios, baseLow / candHigh ≤ ratio ∧ ratio ≤ baseHigh / candLow := by
    intro ratio member
    rw [← ratiosEq] at member
    obtain ⟨row, rfl⟩ := (List.mem_ofFn' _ _).mp member
    obtain ⟨baseMore, baseLess⟩ :=
      median_resampled_between baseNonempty baseLowBound baseHighBound (draws.base row)
    obtain ⟨candMore, candLess⟩ :=
      median_resampled_between candNonempty candLowBound candHighBound (draws.cand row)
    have candMedianPositive := candPositive.trans_le candMore
    have baseMedianPositive := basePositive.trans_le baseMore
    constructor
    · exact div_le_div₀ baseMedianPositive.le baseMore candMedianPositive candLess
    · exact div_le_div₀ (baseMedianPositive.trans_le baseLess).le baseLess candPositive candMore
  have tailNonnegative : (0 : ℚ) ≤ 100 * (1 - bootstrapLevel) / 2 := by
    norm_num [bootstrapLevel]
  have tailOrder : (100 * (1 - bootstrapLevel) / 2 : ℚ) ≤
      100 - 100 * (1 - bootstrapLevel) / 2 := by
    norm_num [bootstrapLevel]
  refine ⟨?_, ?_, ?_⟩
  · exact le_percentile ratiosNonempty tailNonnegative fun ratio member => (each ratio member).1
  · exact percentile_mono ratiosNonempty tailNonnegative tailOrder
  · exact percentile_le ratiosNonempty (tailNonnegative.trans tailOrder)
      fun ratio member => (each ratio member).2

/-- What `compare_speedup` computes from two families of positive trials. -/
theorem compareSpeedup_computed (generator : Generator) {baseline candidate : Trials}
    (baselinePositive : baseline.Positive) (candidatePositive : candidate.Positive)
    (pointKey : String) :
    compareSpeedup generator (computeCaseStatistics baseline)
        (computeCaseStatistics candidate) pointKey =
      let base := computeCaseStatistics baseline
      let cand := computeCaseStatistics candidate
      let low := base.trialMedianMinMs / cand.trialMedianMaxMs
      let high := base.trialMedianMaxMs / cand.trialMedianMinMs
      let ci := bootstrapSpeedupCi base.trialMediansMs cand.trialMediansMs
        (generator _ _) bootstrapLevel
      { pointKey := pointKey
        point := some (median baseline.samples.flatten / median candidate.samples.flatten)
        speedupLow := some low
        speedupHigh := some high
        speedupCiLow := some ci.1
        speedupCiHigh := some ci.2
        verdict := speedupVerdict low high } := by
  have someMedians : ¬ ((computeCaseStatistics baseline).trialMediansMs = [] ∨
      (computeCaseStatistics candidate).trialMediansMs = []) := by
    intro empty
    rcases empty with empty | empty
    · exact baseline.medians_ne_nil empty
    · exact candidate.medians_ne_nil empty
  have usable : (comparedValues (computeCaseStatistics baseline)
      (computeCaseStatistics candidate)).any unusableValue = false := by
    have positive : ∀ value : ℚ, 0 < value → unusableValue (some value) = false :=
      fun value above => decide_eq_false (not_le.mpr above)
    apply List.any_eq_false.mpr
    intro value member
    rw [Bool.not_eq_true]
    simp only [comparedValues, List.mem_append, List.mem_cons, List.mem_map,
      List.not_mem_nil, or_false, Trials.medianMs_computed] at member
    rcases member with ((rfl | rfl | rfl | rfl | rfl | rfl) | ⟨value, inside, rfl⟩) |
      ⟨value, inside, rfl⟩
    · exact positive _ (Trials.pooledMedian_pos baselinePositive)
    · exact positive _ (Trials.medians_pos baselinePositive baseline.trialMedianMin_mem)
    · exact positive _ (Trials.medians_pos baselinePositive baseline.trialMedianMax_mem)
    · exact positive _ (Trials.pooledMedian_pos candidatePositive)
    · exact positive _ (Trials.medians_pos candidatePositive candidate.trialMedianMin_mem)
    · exact positive _ (Trials.medians_pos candidatePositive candidate.trialMedianMax_mem)
    · exact positive _ (Trials.medians_pos baselinePositive inside)
    · exact positive _ (Trials.medians_pos candidatePositive inside)
  rw [compareSpeedup, if_neg someMedians, if_neg (by simp [usable])]
  simp [Trials.medianMs_computed]

theorem speedupVerdict_eq_faster {low high : ℚ} :
    speedupVerdict low high = .faster ↔ 1 < low := by
  by_cases above : 1 < low
  · simp [speedupVerdict, above]
  · by_cases under : high < 1
    · simp [speedupVerdict, above, under]
    · simp [speedupVerdict, above, under]

theorem speedupVerdict_eq_slower {low high : ℚ} (order : low ≤ high) :
    speedupVerdict low high = .slower ↔ high < 1 := by
  by_cases above : 1 < low
  · have notUnder : ¬ high < 1 := not_lt.mpr (above.le.trans order)
    simp [speedupVerdict, above, notUnder]
  · by_cases under : high < 1
    · simp [speedupVerdict, above, under]
    · simp [speedupVerdict, above, under]

theorem Trials.extremes_pos {trials : Trials} (positive : trials.Positive) :
    0 < (computeCaseStatistics trials).trialMedianMinMs ∧
      (computeCaseStatistics trials).trialMedianMinMs ≤
        (computeCaseStatistics trials).trialMedianMaxMs :=
  ⟨medians_pos positive trials.trialMedianMin_mem,
    trials.trialMedianMin_le trials.trialMedianMax_mem⟩

theorem compareSpeedup_range (generator : Generator) {baseline candidate : Trials}
    (baselineSizes : baseline.EqualSizes) (candidateSizes : candidate.EqualSizes)
    (baselinePositive : baseline.Positive) (candidatePositive : candidate.Positive)
    (pointKey : String) :
    ∃ point low high ciLow ciHigh,
      compareSpeedup generator (computeCaseStatistics baseline)
          (computeCaseStatistics candidate) pointKey =
        { pointKey := pointKey
          point := some point
          speedupLow := some low
          speedupHigh := some high
          speedupCiLow := some ciLow
          speedupCiHigh := some ciHigh
          verdict := speedupVerdict low high } ∧
      low ≤ point ∧ point ≤ high ∧ low ≤ ciLow ∧ ciLow ≤ ciHigh ∧ ciHigh ≤ high := by
  obtain ⟨baseLow, baseHigh⟩ := Trials.pooledMedian_between baselineSizes
  obtain ⟨candLow, candHigh⟩ := Trials.pooledMedian_between candidateSizes
  obtain ⟨baseMinPositive, baseOrder⟩ := Trials.extremes_pos baselinePositive
  obtain ⟨candMinPositive, candOrder⟩ := Trials.extremes_pos candidatePositive
  have candPooledPositive := Trials.pooledMedian_pos candidatePositive
  obtain ⟨ciLow, ciOrder, ciHigh⟩ := bootstrapSpeedupCi_between
    (by norm_num [bootstrapResamples]) baseline.medians_ne_nil candidate.medians_ne_nil
    baseMinPositive candMinPositive
    (fun _ => baseline.trialMedianMin_le) (fun _ => baseline.le_trialMedianMax)
    (fun _ => candidate.trialMedianMin_le) (fun _ => candidate.le_trialMedianMax)
    (generator _ _)
  refine ⟨_, _, _, _, _,
    compareSpeedup_computed generator baselinePositive candidatePositive pointKey,
    ?_, ?_, ciLow, ciOrder, ciHigh⟩
  · exact div_le_div₀ (baseMinPositive.le.trans baseLow) baseLow candPooledPositive candHigh
  · exact div_le_div₀ (baseMinPositive.le.trans baseOrder) baseHigh candMinPositive candLow

theorem compareSpeedup_verdict (generator : Generator) {baseline candidate : Trials}
    (baselinePositive : baseline.Positive) (candidatePositive : candidate.Positive)
    (pointKey : String) :
    (compareSpeedup generator (computeCaseStatistics baseline)
      (computeCaseStatistics candidate) pointKey).verdict =
    speedupVerdict
      ((computeCaseStatistics baseline).trialMedianMinMs /
        (computeCaseStatistics candidate).trialMedianMaxMs)
      ((computeCaseStatistics baseline).trialMedianMaxMs /
        (computeCaseStatistics candidate).trialMedianMinMs) := by
  rw [compareSpeedup_computed generator baselinePositive candidatePositive]

theorem compareSpeedup_swap (generator swapped : Generator) {baseline candidate : Trials}
    (baselinePositive : baseline.Positive) (candidatePositive : candidate.Positive)
    (pointKey swappedKey : String) :
    (compareSpeedup generator (computeCaseStatistics baseline)
        (computeCaseStatistics candidate) pointKey).verdict = .faster ↔
      (compareSpeedup swapped (computeCaseStatistics candidate)
        (computeCaseStatistics baseline) swappedKey).verdict = .slower := by
  obtain ⟨baseMinPositive, baseOrder⟩ := Trials.extremes_pos baselinePositive
  obtain ⟨candMinPositive, candOrder⟩ := Trials.extremes_pos candidatePositive
  have swappedOrder : (computeCaseStatistics candidate).trialMedianMinMs /
        (computeCaseStatistics baseline).trialMedianMaxMs ≤
      (computeCaseStatistics candidate).trialMedianMaxMs /
        (computeCaseStatistics baseline).trialMedianMinMs :=
    div_le_div₀ (candMinPositive.le.trans candOrder) candOrder baseMinPositive baseOrder
  rw [compareSpeedup_verdict generator baselinePositive candidatePositive,
    compareSpeedup_verdict swapped candidatePositive baselinePositive,
    speedupVerdict_eq_faster, speedupVerdict_eq_slower swappedOrder,
    one_lt_div (candMinPositive.trans_le candOrder), div_lt_one baseMinPositive]

theorem magnitudeSupported_of_rev2 {baseline candidate : Trials}
    (baselinePositive : baseline.Positive) (candidatePositive : candidate.Positive)
    {verdict : Verdict} {inversion : Bool}
    (supported : (claimSupport verdict inversion (computeCaseStatistics baseline)
      (computeCaseStatistics candidate)).claimSupportedRev2 = true) :
    (claimSupport verdict inversion (computeCaseStatistics baseline)
      (computeCaseStatistics candidate)).magnitudeSupported = true := by
  simp only [claimSupport, Bool.and_eq_true, Bool.not_eq_true'] at supported ⊢
  obtain ⟨⟨direction, baseNarrow⟩, candNarrow⟩ := supported
  exact ⟨⟨direction, Trials.stable_of_not_unstableRev2 baselinePositive baseNarrow⟩,
    Trials.stable_of_not_unstableRev2 candidatePositive candNarrow⟩

/-- The conservative range contains the point estimate and the bootstrap
interval, so a verdict speaks for all of them; swapping the sides swaps the
verdicts, and a revision 2 claim is a magnitude claim. -/
theorem compareSpeedup_conservative (generator swapped : Generator)
    (baseline candidate : Trials) (pointKey swappedKey : String)
    (baselineSizes : baseline.EqualSizes) (candidateSizes : candidate.EqualSizes)
    (baselinePositive : baseline.Positive) (candidatePositive : candidate.Positive) :
    let base := computeCaseStatistics baseline
    let cand := computeCaseStatistics candidate
    let speedup := compareSpeedup generator base cand pointKey
    (∃ point low high ciLow ciHigh,
      speedup.point = some point ∧
      speedup.speedupLow = some low ∧ speedup.speedupHigh = some high ∧
      speedup.speedupCiLow = some ciLow ∧ speedup.speedupCiHigh = some ciHigh ∧
      (low ≤ point ∧ point ≤ high) ∧
      (low ≤ ciLow ∧ ciLow ≤ ciHigh ∧ ciHigh ≤ high) ∧
      (speedup.verdict = .faster → 1 < point ∧ 1 < ciLow ∧ 1 < ciHigh) ∧
      (speedup.verdict = .slower → point < 1 ∧ ciLow < 1 ∧ ciHigh < 1)) ∧
    (speedup.verdict = .faster ↔
      (compareSpeedup swapped cand base swappedKey).verdict = .slower) ∧
    (speedup.verdict = .slower ↔
      (compareSpeedup swapped cand base swappedKey).verdict = .faster) ∧
    base.spreadP90P10 ≤ base.spreadRatio ∧ cand.spreadP90P10 ≤ cand.spreadRatio ∧
    ∀ verdict inversion,
      (claimSupport verdict inversion base cand).claimSupportedRev2 = true →
        (claimSupport verdict inversion base cand).magnitudeSupported = true := by
  intro base cand speedup
  obtain ⟨point, low, high, ciLow, ciHigh, computed, lowPoint, pointHigh, lowCi, ciOrder,
    ciHighLe⟩ := compareSpeedup_range generator baselineSizes candidateSizes
      baselinePositive candidatePositive pointKey
  have speedupEq : speedup = _ := computed
  have verdictEq : speedup.verdict = speedupVerdict low high := by rw [speedupEq]
  refine ⟨⟨point, low, high, ciLow, ciHigh, by rw [speedupEq], by rw [speedupEq],
      by rw [speedupEq], by rw [speedupEq], by rw [speedupEq], ⟨lowPoint, pointHigh⟩,
      ⟨lowCi, ciOrder, ciHighLe⟩, ?_, ?_⟩, ?_, ?_, ?_, ?_, ?_⟩
  · intro faster
    have above : 1 < low := speedupVerdict_eq_faster.mp (verdictEq ▸ faster)
    exact ⟨above.trans_le lowPoint, above.trans_le lowCi,
      above.trans_le (lowCi.trans ciOrder)⟩
  · intro slower
    have under : high < 1 := (speedupVerdict_eq_slower (lowPoint.trans pointHigh)).mp
      (verdictEq ▸ slower)
    exact ⟨pointHigh.trans_lt under, (ciOrder.trans ciHighLe).trans_lt under,
      ciHighLe.trans_lt under⟩
  · exact compareSpeedup_swap generator swapped baselinePositive candidatePositive _ _
  · exact (compareSpeedup_swap swapped generator candidatePositive baselinePositive _ _).symm
  · exact Trials.spreadP90P10_le_spreadRatio baselinePositive
  · exact Trials.spreadP90P10_le_spreadRatio candidatePositive
  · intro verdict inversion
    exact magnitudeSupported_of_rev2 baselinePositive candidatePositive

/-- Two trials of two samples each. -/
def evenTrials : Trials where
  samples := [[1, 2], [3, 1]]
  nonempty := by decide
  each_nonempty := by decide

/-- A generator that draws every index once, in order. -/
def identityGenerator : Generator := fun _ _ =>
  { base := fun _ slot => slot
    cand := fun _ slot => slot }

theorem evenTrials_equalSizes : evenTrials.EqualSizes :=
  ⟨2, by decide⟩

theorem evenTrials_positive : evenTrials.Positive := by
  simp [Trials.Positive, evenTrials]

theorem compareSpeedup_conservative_evenTrials :
    (computeCaseStatistics evenTrials).spreadP90P10 ≤
      (computeCaseStatistics evenTrials).spreadRatio :=
  (compareSpeedup_conservative identityGenerator identityGenerator evenTrials evenTrials
    "speedup_vs_cpu" "speedup_vs_cpu" evenTrials_equalSizes evenTrials_equalSizes
    evenTrials_positive evenTrials_positive).2.2.2.1

end Stoquant

import Mathlib.Data.List.OfFn
import Stoquant.Stats.Percentile
import Stoquant.Stats.Pooled

/-!
# Case statistics and speedup claims

The statistics of one case and the comparison of two cases, as `stats.py`
computes them, over exact rationals.  The generator of the bootstrap indices is
a parameter: every result holds for every choice of indices.
-/

namespace Stoquant

open Quantile

/-- `SPREAD_THRESHOLD`. -/
def spreadThreshold : ℚ := 5 / 4

/-- `STABILITY_THRESHOLD`. -/
def stabilityThreshold : ℚ := 5 / 4

/-- `STABILITY_PERCENTILES`. -/
def stabilityPercentiles : ℚ × ℚ := (10, 90)

/-- `BOOTSTRAP_RESAMPLES`. -/
def bootstrapResamples : Nat := 10000

/-- `BOOTSTRAP_LEVEL`. -/
def bootstrapLevel : ℚ := 95 / 100

/-- The dictionary of `compute_statistics` without `std_ms`, the square root that nothing of
this module reads. -/
structure Statistics where
  medianMs : ℚ
  iqrMs : ℚ
  q25Ms : ℚ
  q75Ms : ℚ
  minMs : ℚ
  maxMs : ℚ
  meanMs : ℚ
  deriving DecidableEq, Repr

/-- `compute_statistics` but for `std_ms`; the empty sample has no statistics. -/
def computeStatistics (samplesMs : List ℚ) : Option Statistics :=
  if nonempty : samplesMs = [] then none
  else
    let q25 := percentile samplesMs 25
    let q75 := percentile samplesMs 75
    some
      { medianMs := median samplesMs
        iqrMs := q75 - q25
        q25Ms := q25
        q75Ms := q75
        minMs := samplesMs.min nonempty
        maxMs := samplesMs.max nonempty
        meanMs := samplesMs.sum / samplesMs.length }

/-- The samples of the trials of one case: there is a trial, and each has samples. -/
structure Trials where
  samples : List (List ℚ)
  nonempty : samples ≠ []
  each_nonempty : ∀ trial ∈ samples, trial ≠ []

/-- The dictionary of `compute_case_statistics`; `⊤` is an infinite spread. -/
structure CaseStatistics where
  pooled : Option Statistics
  trialMediansMs : List ℚ
  trialMedianMinMs : ℚ
  trialMedianMaxMs : ℚ
  spreadRatio : WithTop ℚ
  unstableRev2 : Bool
  spreadP90P10 : WithTop ℚ
  stable : Bool

/-- The key `median_ms`, missing for an empty sample. -/
def CaseStatistics.medianMs (stats : CaseStatistics) : Option ℚ :=
  stats.pooled.map Statistics.medianMs

/-- The ratio of two spread ends, infinite over a lower end that is not positive. -/
def spreadOver (high low : ℚ) : WithTop ℚ :=
  if 0 < low then ((high / low : ℚ) : WithTop ℚ) else ⊤

def Trials.medians (trials : Trials) : List ℚ :=
  trials.samples.map median

theorem Trials.medians_ne_nil (trials : Trials) : trials.medians ≠ [] := by
  intro empty
  exact trials.nonempty (List.map_eq_nil_iff.mp empty)

/-- `compute_case_statistics`. -/
def computeCaseStatistics (trialSamples : Trials) : CaseStatistics :=
  let trialMedians := trialSamples.medians
  let low := trialMedians.min trialSamples.medians_ne_nil
  let high := trialMedians.max trialSamples.medians_ne_nil
  let pLow := percentile trialMedians stabilityPercentiles.1
  let pHigh := percentile trialMedians stabilityPercentiles.2
  let spreadRatio := spreadOver high low
  let spreadP90P10 := spreadOver pHigh pLow
  { pooled := computeStatistics trialSamples.samples.flatten
    trialMediansMs := trialMedians
    trialMedianMinMs := low
    trialMedianMaxMs := high
    spreadRatio := spreadRatio
    unstableRev2 := (spreadThreshold : WithTop ℚ) < spreadRatio
    spreadP90P10 := spreadP90P10
    stable := spreadP90P10 ≤ (stabilityThreshold : WithTop ℚ) }

/-- The bootstrap indices that the generator draws for two samples. -/
structure Draws (resamples baseLength candLength : Nat) where
  base : Fin resamples → Fin baseLength → Fin baseLength
  cand : Fin resamples → Fin candLength → Fin candLength

/-- A seeded generator: the sizes of the two samples determine its draws. -/
abbrev Generator := ∀ baseLength candLength : Nat,
  Draws bootstrapResamples baseLength candLength

/-- A sample resampled at the drawn indices. -/
def resampled (sample : List ℚ) (draw : Fin sample.length → Fin sample.length) : List ℚ :=
  List.ofFn fun slot => sample[draw slot]

/-- `bootstrap_speedup_ci`. -/
def bootstrapSpeedupCi {resamples : Nat} (baselineMedians candidateMedians : List ℚ)
    (draws : Draws resamples baselineMedians.length candidateMedians.length) (level : ℚ) :
    ℚ × ℚ :=
  let ratios := List.ofFn fun row =>
    median (resampled baselineMedians (draws.base row)) /
      median (resampled candidateMedians (draws.cand row))
  let tail := 100 * (1 - level) / 2
  (percentile ratios tail, percentile ratios (100 - tail))

inductive Verdict where
  | faster
  | slower
  | inconclusive
  | comparator
  deriving DecidableEq, Repr

/-- The dictionary of `compare_speedup`; the point estimate stands under a key
that the caller chooses. -/
structure Speedup where
  pointKey : String
  point : Option ℚ
  speedupLow : Option ℚ
  speedupHigh : Option ℚ
  speedupCiLow : Option ℚ
  speedupCiHigh : Option ℚ
  verdict : Verdict
  deriving DecidableEq, Repr

/-- The result of `compare_speedup` on unusable statistics. -/
def inconclusiveSpeedup (pointKey : String) : Speedup :=
  { pointKey := pointKey
    point := none
    speedupLow := none
    speedupHigh := none
    speedupCiLow := none
    speedupCiHigh := none
    verdict := .inconclusive }

/-- The values that `compare_speedup` wants to be positive numbers. -/
def comparedValues (baseline candidate : CaseStatistics) : List (Option ℚ) :=
  [baseline.medianMs, some baseline.trialMedianMinMs, some baseline.trialMedianMaxMs,
    candidate.medianMs, some candidate.trialMedianMinMs, some candidate.trialMedianMaxMs] ++
  baseline.trialMediansMs.map some ++ candidate.trialMediansMs.map some

/-- A missing value, or one that is not positive. -/
def unusableValue : Option ℚ → Bool
  | none => true
  | some value => value ≤ 0

def speedupVerdict (low high : ℚ) : Verdict :=
  if 1 < low then .faster
  else if high < 1 then .slower
  else .inconclusive

/-- `compare_speedup`. -/
def compareSpeedup (generator : Generator) (baseline candidate : CaseStatistics)
    (pointKey : String) : Speedup :=
  if baseline.trialMediansMs = [] ∨ candidate.trialMediansMs = [] then
    inconclusiveSpeedup pointKey
  else if (comparedValues baseline candidate).any unusableValue then
    inconclusiveSpeedup pointKey
  else
    let low := baseline.trialMedianMinMs / candidate.trialMedianMaxMs
    let high := baseline.trialMedianMaxMs / candidate.trialMedianMinMs
    let ci := bootstrapSpeedupCi baseline.trialMediansMs candidate.trialMediansMs
      (generator _ _) bootstrapLevel
    { pointKey := pointKey
      point := do return (← baseline.medianMs) / (← candidate.medianMs)
      speedupLow := some low
      speedupHigh := some high
      speedupCiLow := some ci.1
      speedupCiHigh := some ci.2
      verdict := speedupVerdict low high }

/-- The dictionary of `claim_support`. -/
structure ClaimSupport where
  directionSupported : Bool
  magnitudeSupported : Bool
  claimSupportedRev2 : Bool
  deriving DecidableEq, Repr

/-- `claim_support`. -/
def claimSupport (verdict : Verdict) (inversion : Bool)
    (baseline candidate : CaseStatistics) : ClaimSupport :=
  let direction := verdict ≠ .inconclusive && !inversion
  { directionSupported := direction
    magnitudeSupported := direction && baseline.stable && candidate.stable
    claimSupportedRev2 :=
      direction && !baseline.unstableRev2 && !candidate.unstableRev2 }

end Stoquant

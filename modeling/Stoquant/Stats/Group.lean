import Stoquant.Design
import Stoquant.Dict.Basic
import Stoquant.Stats.Range

/-!
# Comparing the cases of one group

`compare_case_group`: every path of one (count, bit width) group is compared
with its baseline, its pageable twin and its resident path, and a path that
beats a path whose work it contains vetoes the claims that depend on it.
-/

namespace Stoquant

/-- The dictionary of a claim between two paths: a comparison, the veto and the flags. -/
structure PairClaim where
  speedup : Speedup
  boundaryInversion : Bool
  claims : ClaimSupport
  deriving DecidableEq, Repr

/-- The keys that the comparison adds to the statistics of a case.  The flags
are `None` for the comparator and for a descriptive path. -/
structure Comparison where
  baseline : String
  speedup : Speedup
  boundaryInversion : Bool
  descriptive : Bool
  claims : Option ClaimSupport
  vsCpuAvx2 : Option Speedup
  vsPageable : Option PairClaim
  vsComparator : Option Speedup

/-- The statistics of a case after the comparison of its group.  No added key
replaces one that `compute_case_statistics` wrote. -/
structure CaseResult where
  stats : CaseStatistics
  comparison : Option Comparison
  vsResident : Option PairClaim

/-- `stats_by_label`: label to statistics, `none` inside for a failed case. -/
abbrev StatsByLabel := List (String × Option CaseStatistics)

/-- `stats_by_label.get(path.label)`. -/
def StatsByLabel.get (stats : StatsByLabel) (path : BenchPath) : Option CaseStatistics :=
  (Dict.get? stats path.label).join

/-- `stats_by_label[path.label]`. -/
def StatsByLabel.lookup (stats : StatsByLabel) (path : BenchPath) :
    Except PyError (Option CaseStatistics) :=
  match Dict.get? stats path.label with
  | some value => .ok value
  | none => .error (.keyError path.label)

/-- `stats["median_ms"]`. -/
def CaseStatistics.median (stats : CaseStatistics) : Except PyError ℚ :=
  match stats.medianMs with
  | some value => .ok value
  | none => .error (.keyError "median_ms")

/-- The entries of `cuda_medians`. -/
def cudaMedianEntries (stats : StatsByLabel) :
    List BenchPath → Except PyError (List (String × ℚ))
  | [] => .ok []
  | path :: paths =>
      if path.backend = .cuda then do
        match ← stats.lookup path with
        | none => cudaMedianEntries stats paths
        | some found =>
            let value ← found.median
            let rest ← cudaMedianEntries stats paths
            return (path.key, value) :: rest
      else cudaMedianEntries stats paths

/-- `boundary_inversion`. -/
def boundaryInversion (medians : List (String × ℚ)) (policy : Policy)
    (selectedKeys : Option (List String)) : Bool :=
  let selected := selectedKeys.getD (Dict.keys medians)
  [Boundary.hostOrigin, Boundary.gpuOrigin].any fun boundary =>
    let path : BenchPath := ⟨.cuda, boundary, policy⟩
    path.key ∈ selected &&
      match Dict.get? medians path.key with
      | none => true
      | some candidate => path.nestedPaths.any fun nested =>
          nested.key ∈ selected &&
            match Dict.get? medians nested.key with
            | none => true
            | some nestedMedian => candidate < nestedMedian

/-- The entry of `cpu_inversion` for a policy: CPU gpu-origin adds a full input
download to the comparator, so it must not beat it. -/
def cpuInversion (stats : StatsByLabel) (selectedLabels : List String) (policy : Policy) :
    Except PyError Bool :=
  let cpuPath : BenchPath := ⟨.cpu, .gpuOrigin, policy⟩
  match cpuPath.nestedPaths with
  | [] => .error .indexError
  | nested :: _ =>
      if cpuPath.label ∉ selectedLabels then .ok false
      else match stats.get cpuPath, stats.get nested with
        | some candidate, some baseline => do
            return (← candidate.median) < (← baseline.median)
        | _, _ => .ok true

/-- The dictionaries `cpu_inversion` and `cuda_inversion`. -/
structure Inversions where
  cpu : Policy → Bool
  cuda : Policy → Bool

/-- The policy group of a path; a path without a transfer is in the pageable one. -/
def policyGroup (path : BenchPath) : Policy :=
  if path.policy = .pinned then .pinned else .pageable

/-- `path_inversion`. -/
def pathInversion (inversions : Inversions) (path : BenchPath) : Bool :=
  if path = avx2Comparator then false
  else if path.backend = .cpu then inversions.cpu (policyGroup path)
  else if path.boundary = .gpuOrigin then
    inversions.cuda (policyGroup path) || inversions.cpu (policyGroup path)
  else inversions.cuda (policyGroup path)

/-- The keys written for the comparator itself. -/
def comparatorComparison : Comparison :=
  { baseline := ""
    speedup :=
      { pointKey := "speedup_vs_cpu"
        point := some 1
        speedupLow := some 1
        speedupHigh := some 1
        speedupCiLow := some 1
        speedupCiHigh := some 1
        verdict := .comparator }
    boundaryInversion := false
    descriptive := false
    claims := none
    vsCpuAvx2 := none
    vsPageable := none
    vsComparator := none }

/-- A comparison with its veto and its claim flags. -/
def pairClaim (generator : Generator) (baseline candidate : CaseStatistics)
    (pointKey : String) (inversion : Bool) : PairClaim :=
  let speedup := compareSpeedup generator baseline candidate pointKey
  { speedup := speedup
    boundaryInversion := inversion
    claims := claimSupport speedup.verdict inversion baseline candidate }

/-- The keys written for a path with a baseline. -/
def pathComparison (generator : Generator) (stats : StatsByLabel) (inversions : Inversions)
    (path base : BenchPath) (baseStats found : CaseStatistics) : Comparison :=
  let claim := pairClaim generator baseStats found "speedup_vs_cpu"
    (pathInversion inversions path)
  if path = avx2Comparator then
    -- Descriptive only: the claims stay against the scalar comparator.
    { baseline := base.label
      speedup := claim.speedup
      boundaryInversion := claim.boundaryInversion
      descriptive := true
      claims := none
      vsCpuAvx2 := none
      vsPageable := none
      vsComparator := none }
  else
    { baseline := base.label
      speedup := claim.speedup
      boundaryInversion := claim.boundaryInversion
      descriptive := false
      claims := some claim.claims
      vsCpuAvx2 :=
        if path.backend = .cuda then
          (stats.get avx2Comparator).map fun avx2 =>
            compareSpeedup generator avx2 found "speedup_vs_cpu_avx2"
        else none
      vsPageable :=
        if path.policy = .pinned then
          (stats.get path.pageableTwin).map fun twin =>
            pairClaim generator twin found "speedup_vs_pageable"
              (pathInversion inversions path || pathInversion inversions path.pageableTwin)
        else none
      vsComparator :=
        if path.backend = .cuda ∧ path.boundary = .gpuOrigin then
          (stats.get comparator).map fun comparatorStats =>
            compareSpeedup generator comparatorStats found "speedup_vs_comparator"
        else none }

/-- What one pass of the loop makes of the statistics of a path. -/
def pathResult (generator : Generator) (stats : StatsByLabel) (inversions : Inversions)
    (path : BenchPath) : Option CaseStatistics → Option CaseResult
  | none => none
  | some found =>
      if path = comparator then some ⟨found, some comparatorComparison, none⟩
      else match path.baseline with
        | none => some ⟨found, none, none⟩
        | some base =>
            match stats.get base with
            | none => some ⟨found, none, none⟩
            | some baseStats =>
                some ⟨found,
                  some (pathComparison generator stats inversions path base baseStats found),
                  none⟩

/-- One pass of the loop over the paths. -/
def comparePath (generator : Generator) (stats : StatsByLabel) (inversions : Inversions)
    (path : BenchPath) : Except PyError (Option CaseResult) := do
  return pathResult generator stats inversions path (← stats.lookup path)

/-- The statements after the loop: the resident graph against the resident path. -/
def compareResident (generator : Generator) (stats : StatsByLabel) (inversions : Inversions)
    (path : BenchPath) (result : Option CaseResult) : Option CaseResult :=
  match stats.get cudaResident, stats.get cudaResidentGraph with
  | some resident, some graph =>
      if path.label = cudaResidentGraph.label then
        result.map fun case =>
          { case with
            vsResident := some (pairClaim generator resident graph "speedup_vs_resident"
              (inversions.cuda .pageable)) }
      else result
  | _, _ => result

/-- `compare_case_group`: the statistics of every case with the keys it adds. -/
def compareCaseGroup (generator : Generator) (cases : List (Option CaseStatistics))
    (paths : List BenchPath) : Except PyError (List (Option CaseResult)) := do
  if cases.length < paths.length then
    throw (.valueError "zip() argument 2 is shorter than argument 1")
  if paths.length < cases.length then
    throw (.valueError "zip() argument 2 is longer than argument 1")
  let stats : StatsByLabel := Dict.ofEntries ((paths.map BenchPath.label).zip cases)
  let cudaMedians := Dict.ofEntries (← cudaMedianEntries stats paths)
  let _ ← stats.lookup comparator
  let selectedLabels := paths.map BenchPath.label
  let cpuPageable ← cpuInversion stats selectedLabels .pageable
  let cpuPinned ← cpuInversion stats selectedLabels .pinned
  let selectedCudaKeys := (paths.filter fun path => path.backend = .cuda).map BenchPath.key
  let inversions : Inversions :=
    { cpu := fun policy => if policy = .pinned then cpuPinned else cpuPageable
      cuda := fun policy =>
        if policy = .pinned then boundaryInversion cudaMedians .pinned (some selectedCudaKeys)
        else boundaryInversion cudaMedians .pageable (some selectedCudaKeys) }
  let results ← paths.mapM (comparePath generator stats inversions)
  return (paths.zip results).map fun entry =>
    compareResident generator stats inversions entry.1 entry.2

end Stoquant

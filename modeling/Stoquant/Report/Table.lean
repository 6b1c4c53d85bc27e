import Stoquant.Report.Crossover
import Stoquant.Text.General

/-!
# The report of a sweep with failures

What `report.py` makes of the compared groups of a sweep: the crossovers under both
support functions, their lines and the T1 table.  Only the search for crossovers can
raise, at a passing case whose baseline failed.
-/

namespace Stoquant

/-- `LABELS[path]`. -/
def pathLabel (path : String) : Except PyError String :=
  match (pathKeys.zip reportLabels).lookup path with
  | some label => .ok label
  | none => .error (.keyError path)

/-- `power_label`. -/
def powerLabel (count : ℕ) : String :=
  if count &&& (count - 1) = 0 then "2^" ++ Text.decimal ((count.size : ℤ) - 1)
  else toString count

/-- `fmt_ms`. -/
def fmtMs (value : ℚ) : String := Text.general 4 value

/-- `yes_no`. -/
def yesNo : Option Bool → String
  | none => "—"
  | some true => "yes"
  | some false => "no"

def Verdict.text : Verdict → String
  | .faster => "faster"
  | .slower => "slower"
  | .inconclusive => "inconclusive"
  | .comparator => "comparator"

/-- A field of the comparison with the baseline, `None` without one. -/
def CaseResult.compared (result : CaseResult) (field : Speedup → Option ℚ) : Option ℚ :=
  result.comparison.bind fun comparison => field comparison.speedup

/-- The text of a speedup. -/
def speedupText : Option ℚ → String
  | some speedup => Text.general 3 speedup ++ "×"
  | none => "—"

/-- The text of an interval, if it has both ends. -/
def intervalText : Option ℚ → Option ℚ → String
  | some low, some high => "[" ++ Text.general 3 low ++ ", " ++ Text.general 3 high ++ "]"
  | _, _ => "—"

/-- A line of a table. -/
def tableLine (cells : List String) : String := "| " ++ " | ".intercalate cells ++ " |"

/-- The C column of `t1_table`. -/
def comparatorMs (indexed : IndexedCases) (count bits : ℕ) : Except PyError String :=
  match Dict.get? indexed (count, bits, comparator.key) with
  | some cpu => do return fmtMs (← cpu.stats.median)
  | none => .ok "failed"

/-- One row of `t1_table`. -/
def t1Row (indexed : IndexedCases) (count bits : ℕ) (cMs path : String) :
    Except PyError String := do
  let cells := [powerLabel count, toString bits, ← pathLabel path, cMs]
  match Dict.get? indexed (count, bits, path) with
  | none => return tableLine (cells ++ "failed" :: List.replicate 7 "—")
  | some result =>
      match result.verdict with
      | none => return tableLine (cells ++ "failed" :: List.replicate 7 "—")
      | some verdict =>
          return tableLine (cells ++
            [fmtMs (← result.stats.median), speedupText (result.compared Speedup.point),
              intervalText (result.compared Speedup.speedupLow)
                (result.compared Speedup.speedupHigh),
              intervalText (result.compared Speedup.speedupCiLow)
                (result.compared Speedup.speedupCiHigh),
              verdict.text, yesNo (some (directionSupported result)),
              yesNo (magnitudeSupported result), yesNo (some (rev2Supported result))])

/-- `t1_table`. -/
def t1Table (indexed : IndexedCases) (counts bitWidths : List ℕ) (cudaPaths : List String) :
    Except PyError (List String) := do
  let rows ← counts.mapM fun count => bitWidths.mapM fun bits => do
    let cMs ← comparatorMs indexed count bits
    cudaPaths.mapM (t1Row indexed count bits cMs)
  return tableLine ["Elements", "Bits", "Path", "C (ms)", "CUDA (ms)", "Speedup", "Trial range",
      "95% CI", "Verdict", "Direction", "Magnitude", "Rev 2"] ::
    "|---|---|---|---|---|---|---|---|---|---|---|---|" :: rows.flatten.flatten

/-- A size in the line of an unresolved crossover; zero counts as none. -/
def sizeText : Option ℕ → String
  | some (size + 1) => powerLabel (size + 1)
  | _ => "none"

/-- One line of `crossover_lines`. -/
def crossoverLine (entry : (ℕ × String) × Crossover) : Except PyError String := do
  let name := (← pathLabel entry.1.2) ++ ", " ++ toString entry.1.1 ++ "-bit"
  match entry.2 with
  | .resolved low high before after =>
      return "- " ++ name ++ ": resolved between " ++ powerLabel low ++ " and " ++
        powerLabel high ++ " elements (" ++ before.text ++ " to " ++ after.text ++ ")."
  | .notResolved flips slower faster =>
      let detail :=
        (if flips = [] then [] else [toString flips.length ++ " supported flips"]) ++
          ["largest supported slower size: " ++ sizeText slower,
            "smallest supported faster size: " ++ sizeText faster]
      return "- " ++ name ++ ": not resolved (" ++ "; ".intercalate detail ++ ")."

/-- `crossover_lines`. -/
def crossoverLines (crossovers : List ((ℕ × String) × Crossover)) :
    Except PyError (List String) := crossovers.mapM crossoverLine

/-- The crossovers of `render_report` under one support function. -/
def allCrossovers (indexed : IndexedCases) (counts bitWidths : List ℕ) (cudaPaths : List String)
    (supported : CaseResult → Bool) : Except PyError (List ((ℕ × String) × Crossover)) := do
  let entries ← (bitWidths.product cudaPaths).mapM fun key => do
    return (key, ← findCrossovers indexed counts key.1 key.2 supported)
  return Dict.ofEntries entries

/-- The parts of the report that depend on the comparisons. -/
structure ReportSections where
  crossovers : List ((ℕ × String) × Crossover)
  crossoversRev2 : List ((ℕ × String) × Crossover)
  crossoverText : List String
  crossoverTextRev2 : List String
  t1 : List String

/-- The statements of `render_report` that fill these parts. -/
def reportSections (cases : List ReportCase) (counts bitWidths : List ℕ)
    (cudaPaths : List String) : Except PyError ReportSections := do
  let indexed := indexCases cases
  let crossovers ← allCrossovers indexed counts bitWidths cudaPaths directionSupported
  let crossoversRev2 ← allCrossovers indexed counts bitWidths cudaPaths rev2Supported
  return {
    crossovers := crossovers
    crossoversRev2 := crossoversRev2
    crossoverText := ← crossoverLines crossovers
    crossoverTextRev2 := ← crossoverLines crossoversRev2
    t1 := ← t1Table indexed counts bitWidths cudaPaths }

/-! ## Compared groups -/

/-- The cases of one input at one bit width. -/
structure CaseGroup where
  count : ℕ
  bits : ℕ
  inputFamily : String

section

variable (generator : Generator) (paths : List BenchPath)
  (samples : CaseGroup → BenchPath → Option Trials)

/-- The statistics of the cases of a group; a failed case has no samples. -/
def groupAssignment (group : CaseGroup) (path : BenchPath) : Option CaseStatistics :=
  (samples group path).map computeCaseStatistics

/-- The case of a path with its compared statistics. -/
def reportCase (group : CaseGroup) (path : BenchPath) (result : Option CaseResult) :
    ReportCase where
  count := group.count
  bits := group.bits
  timingBoundary := path.boundary.text
  transferPolicy := path.policy.text
  inputFamily := group.inputFamily
  correctnessStatus := if result.isSome then "passed" else "failed"
  statistics := result

/-- The cases of a group after `compare_case_group`. -/
def groupCases (group : CaseGroup) : Except PyError (List ReportCase) := do
  let results ← compareCaseGroup generator (paths.map (groupAssignment samples group)) paths
  return (paths.zip results).map fun entry => reportCase group entry.1 entry.2

/-- The cases of every group. -/
def comparedCases (groups : List CaseGroup) : Except PyError (List ReportCase) := do
  return (← groups.mapM (groupCases generator paths samples)).flatten

end

/-- Whether the case of a size has a supported claim; a size without a case has none. -/
def sizeSupported (indexed : IndexedCases) (bits : ℕ) (path : String)
    (supported : CaseResult → Bool) (count : ℕ) : Bool :=
  match Dict.get? indexed (count, bits, path) with
  | some result => supported result
  | none => false

end Stoquant

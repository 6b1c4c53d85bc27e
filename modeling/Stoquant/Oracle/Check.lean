import Stoquant.Native.Files
import Stoquant.Oracle.Bounds

/-!
# The check against the FP64 reference

`check_fp64_bounds` of `correctness.py`, in exact reals.  It passes every record that a CPU
backend stores for a nonzero array, since the bounds of the oracle are sound.
-/

namespace Stoquant

open Ieee

/-- The fields of `RecordRun` that the check reads, with the bytes of its input file. -/
structure RecordRun where
  inputBytes : List Byte
  count : ℤ
  bits : ℕ
  seed : ℤ
  tensorId : ℤ
  invocationId : ℤ

/-- The errors of a record and their bounds. -/
structure Layer2Errors where
  scaleError : ℝ
  scaleBound : ℝ
  reconstructionError : ℝ
  reconstructionBound : ℝ

/-- A correctness record of the check.  Without `errors` it has none of their four keys. -/
structure CorrectnessRecord where
  status : String
  byteIdenticalToCompress : Bool
  cpuCudaByteIdentical : Bool
  layer2ScaleWithinBound : Bool
  layer2ReconstructionWithinBound : Bool
  errors : Option Layer2Errors
  errorMessage : Option String

/-- What the check raises: a `CorrectnessFailure`, or an exception it does not catch. -/
inductive CheckError where
  | correctnessFailure (details : CorrectnessRecord)
  | raised (failure : PyError)

/-- `np.frombuffer` with the type `<f4`. -/
def frombufferF32 (data : List Byte) : Except PyError (List F32) :=
  if data.length % 4 ≠ 0 then
    .error (.valueError "buffer size must be a multiple of element size")
  else
    .ok ((List.range (data.length / 4)).map fun i =>
      ofF32Bits (BitVec.ofNat 32 (leAt data (4 * i) 4)))

/-- The pairs of elements that an operation on two arrays meets. -/
def broadcastPairs (a b : List ℝ) : Except PyError (List (ℝ × ℝ)) :=
  if a.length = b.length then .ok (a.zip b)
  else if a.length = 1 then .ok (b.map fun y => (a.headD 0, y))
  else if b.length = 1 then .ok (a.map fun x => (x, b.headD 0))
  else
    .error (.valueError ("operands could not be broadcast together with shapes (" ++
      toString a.length ++ ",) (" ++ toString b.length ++ ",) "))

/-- `np.max`. -/
noncomputable def npMax (list : List ℝ) : Except PyError ℝ :=
  match list.max? with
  | some largest => .ok largest
  | none => .error (.valueError
      "zero-size array to reduction operation maximum which has no identity")

/-- The record of a check that could not measure the errors. -/
def unmeasuredRecord (message : String) : CorrectnessRecord where
  status := "failed"
  byteIdenticalToCompress := true
  cpuCudaByteIdentical := true
  layer2ScaleWithinBound := false
  layer2ReconstructionWithinBound := false
  errors := none
  errorMessage := some message

/-- A phase whose `ValueError` is a correctness failure. -/
def failingPhase {α : Type} (message : String) : Except PyError α → Except CheckError α
  | .ok value => .ok value
  | .error (.valueError text) =>
      .error (.correctnessFailure (unmeasuredRecord (message ++ text)))
  | .error failure => .error (.raised failure)

/-- A phase whose exceptions the check does not catch. -/
def uncaught {α : Type} : Except PyError α → Except CheckError α
  | .ok value => .ok value
  | .error failure => .error (.raised failure)

/-- `str` of a truth value. -/
def boolText (value : Bool) : String := if value then "True" else "False"

/-- The record of a check that measured the errors.  The text of a float is a parameter. -/
def measuredRecord (floatText : ℝ → String) (scaleOk reconstructionOk : Bool)
    (errors : Layer2Errors) : CorrectnessRecord where
  status := if scaleOk && reconstructionOk then "passed" else "failed"
  byteIdenticalToCompress := true
  cpuCudaByteIdentical := true
  layer2ScaleWithinBound := scaleOk
  layer2ReconstructionWithinBound := reconstructionOk
  errors := some errors
  errorMessage :=
    if scaleOk && reconstructionOk then none
    else some ("Layer 2 bound check failed: scale_ok=" ++ boolText scaleOk ++
      " (" ++ floatText errors.scaleError ++ " <= " ++ floatText errors.scaleBound ++
      "), reconstruction_ok=" ++ boolText reconstructionOk ++
      " (" ++ floatText errors.reconstructionError ++ " <= " ++
      floatText errors.reconstructionBound ++ ")")

/-- `check_fp64_bounds`. -/
noncomputable def checkFp64Bounds [Arith Format.binary32] (floatText : ℝ → String)
    (run : RecordRun) (cpuBenchBytes : List Byte) : Except CheckError CorrectnessRecord := do
  let values ← uncaught (frombufferF32 run.inputBytes)
  let decoded ← failingPhase "Record decoding failed: " (decodeRecord cpuBenchBytes)
  let (fp64Scale, fp64Decoded) ← uncaught
    (referenceFp64 values run.bits run.seed run.tensorId run.invocationId none)
  let fp32Scale := (unpackHeader cpuBenchBytes).scale
  let (scaleBound, reconstructionBound) ← failingPhase "Layer 2 bound check failed: "
    (fp64ErrorBounds run.count run.bits fp64Scale)
  let scaleDiff := |fp32Scale.toReal - fp64Scale|
  let scaleOk := decide (scaleDiff ≤ scaleBound)
  let pairs ← uncaught (broadcastPairs (decoded.map Fp.toReal) fp64Decoded)
  let maxReconError ← uncaught (npMax (pairs.map fun pair => |pair.1 - pair.2|))
  let reconstructionOk := decide (maxReconError ≤ reconstructionBound)
  let record := measuredRecord floatText scaleOk reconstructionOk
    ⟨scaleDiff, scaleBound, maxReconError, reconstructionBound⟩
  if !scaleOk || !reconstructionOk then .error (.correctnessFailure record) else .ok record

/-- A run checks the record of an array: its input file holds the elements, and its parameters
are those of the record. -/
structure RecordRun.Checks (run : RecordRun) (x : F32Array) (bitWidth : ℕ) (ids : StreamIds) :
    Prop where
  length : run.inputBytes.length = 4 * x.count
  elements : ∀ i < x.count, x.get i = sqLoadF32ArrayLe run.inputBytes i
  count : run.count = x.count
  bits : run.bits = bitWidth
  seed : run.seed = ids.seed.toNat
  tensorId : run.tensorId = ids.tensorId.toNat
  invocationId : run.invocationId = ids.invocationId.toNat

/-! ## The check on stored records -/

theorem npMax_le {bound : ℝ} {list : List ℝ} (nonempty : list ≠ [])
    (every : ∀ value ∈ list, value ≤ bound) :
    ∃ largest, npMax list = .ok largest ∧ largest ≤ bound := by
  obtain ⟨largest, computed⟩ := Option.isSome_iff_exists.mp
    (List.isSome_max?_iff.mpr nonempty)
  refine ⟨largest, ?_, ?_⟩
  · rw [npMax, computed]
  · exact (List.max?_le_iff computed).mpr every

/-- The elements of the input file are those of the array. -/
theorem RecordRun.Checks.values {run : RecordRun} {x : F32Array} {bitWidth : ℕ}
    {ids : StreamIds} (checks : run.Checks x bitWidth ids) :
    frombufferF32 run.inputBytes = .ok (listOf x.get x.count) := by
  have whole : ¬ run.inputBytes.length % 4 ≠ 0 := by
    rw [checks.length]
    omega
  have elements : run.inputBytes.length / 4 = x.count := by
    rw [checks.length]
    omega
  rw [frombufferF32, if_neg whole, elements, listOf]
  congr 1
  apply List.map_congr_left
  intro i member
  have below := List.mem_range.mp member
  have inside : 4 * i + 4 ≤ run.inputBytes.length := by
    rw [checks.length]
    omega
  rw [checks.elements i below, sqLoadF32ArrayLe, sqLoadU32ArrayLe, sqLoadU32Le_eq inside]
  rfl

section

variable [Arith Format.binary32] {run : RecordRun} {record : List Byte}
  {values decoded : List F32} {reference : List ℝ}
  {fp64Scale scaleBound reconstructionBound : ℝ}

/-- The check passes a record whose scale and values are within the bounds. -/
theorem checkFp64Bounds_passes (floatText : ℝ → String)
    (read : frombufferF32 run.inputBytes = .ok values)
    (decodes : decodeRecord record = .ok decoded)
    (referenced : referenceFp64 values run.bits run.seed run.tensorId run.invocationId none =
      .ok (fp64Scale, reference))
    (bounded : fp64ErrorBounds run.count run.bits fp64Scale =
      .ok (scaleBound, reconstructionBound))
    (lengths : decoded.length = reference.length) (nonempty : decoded ≠ [])
    (scale : |(unpackHeader record).scale.toReal - fp64Scale| ≤ scaleBound)
    (near : ∀ i < decoded.length,
      |(decoded.getD i zeroF).toReal - reference.getD i 0| ≤ reconstructionBound) :
    ∃ reconstructionError ≤ reconstructionBound,
      checkFp64Bounds floatText run record = .ok (measuredRecord floatText true true
        ⟨|(unpackHeader record).scale.toReal - fp64Scale|, scaleBound, reconstructionError,
          reconstructionBound⟩) := by
  have sameLength : (decoded.map Fp.toReal).length = reference.length := by
    rw [List.length_map, lengths]
  have pairs : broadcastPairs (decoded.map Fp.toReal) reference =
      .ok ((decoded.map Fp.toReal).zip reference) := by
    rw [broadcastPairs, if_pos sameLength]
  have every : ∀ value ∈ ((decoded.map Fp.toReal).zip reference).map
      (fun pair => |pair.1 - pair.2|), value ≤ reconstructionBound := by
    intro value member
    obtain ⟨i, inside, rfl⟩ := List.mem_iff_getElem.mp member
    have below : i < decoded.length := by
      simpa [lengths] using inside
    have belowReference : i < reference.length := lengths ▸ below
    have error := near i below
    rw [List.getD_eq_getElem?_getD, List.getD_eq_getElem?_getD, List.getElem?_eq_getElem below,
      List.getElem?_eq_getElem belowReference, Option.getD_some, Option.getD_some] at error
    simpa using error
  have pairsNonempty : ((decoded.map Fp.toReal).zip reference).map
      (fun pair => |pair.1 - pair.2|) ≠ [] := by
    intro empty
    apply nonempty
    have zero := congrArg List.length empty
    rw [List.length_map, List.length_zip, sameLength, min_self, List.length_nil,
      ← lengths] at zero
    exact List.length_eq_zero_iff.mp zero
  obtain ⟨largest, computed, small⟩ := npMax_le pairsNonempty every
  refine ⟨largest, small, ?_⟩
  unfold checkFp64Bounds
  rw [read, decodes]
  dsimp only [bind, Except.bind, uncaught, failingPhase]
  rw [referenced]
  dsimp only
  rw [bounded]
  dsimp only
  rw [pairs]
  dsimp only
  rw [computed]
  dsimp only
  rw [decide_eq_true scale, decide_eq_true small]
  rfl

end

/-- The bounds of the oracle are sound, and the check rejects no record that a CPU backend
stores for a nonzero array: the computed scale and every decoded value are within the bounds,
for the words of the stream and for prescribed ones. -/
theorem checkFp64Bounds_sound [SymmetricArith Format.binary32]
    (accurate : (rounding Format.binary32).Accurate) {omp : OmpRuntime} {backend : SqBackend}
    (cpuBackend : backend = .cpu ∨ backend = .cpuAvx2) (x : F32Array)
    {workspace : SqCpuCompressWorkspace} (reserved : Reserved workspace x.count)
    {bitWidth : ℕ} {ids : StreamIds} {words : Option (List Word)}
    (length : ∀ list, words = some list → list.length = x.count) {buffer : ℕ → Byte}
    (nonzero : SomeNonzero x.get x.count)
    (ok : (sqCpuCompress omp backend bitWidth x.values x.count ids none (words.map wordsOf)
      workspace (some buffer)).1 = .ok) :
    ∃ record fp64Scale reference scaleBound reconstructionBound decoded,
      (sqCpuCompress omp backend bitWidth x.values x.count ids none (words.map wordsOf)
        workspace (some buffer)).2.2.map (recordIn bitWidth x.count) = some record ∧
      (∀ initial partials partialCapacity,
        sqScaleWorkspaceElements x.count ≤ partialCapacity →
        ∃ partials', sqComputeScaleWithWorkspace x.values x.count (some initial)
          (some partials) partialCapacity = (.ok, some (recordScale record), partials')) ∧
      referenceFp64 (listOf x.get x.count) bitWidth ids.seed.toNat ids.tensorId.toNat
          ids.invocationId.toNat
          (words.map fun list => list.map fun word => (word.toNat : ℤ)) =
        .ok (fp64Scale, reference) ∧
      fp64ErrorBounds x.count bitWidth fp64Scale = .ok (scaleBound, reconstructionBound) ∧
      decodeRecord record = .ok decoded ∧
      reference.length = x.count ∧ decoded.length = x.count ∧
      |(recordScale record).toReal - fp64Scale| ≤ scaleBound ∧
      (∀ i < x.count,
        |(decoded.getD i zeroF).toReal - reference.getD i 0| ≤ reconstructionBound) ∧
      (words = none → ∀ (floatText : ℝ → String) (run : RecordRun),
        run.Checks x bitWidth ids →
        ∃ reconstructionError ≤ reconstructionBound,
          checkFp64Bounds floatText run record = .ok (measuredRecord floatText true true
            ⟨|(recordScale record).toReal - fp64Scale|, scaleBound, reconstructionError,
              reconstructionBound⟩)) := by
  have stages : StagesCorrect omp backend x := by
    rcases cpuBackend with rfl | rfl
    · exact stagesCorrect_cpu omp x
    · exact stagesCorrect_cpuAvx2 omp x
  rw [sqCpuCompress_status stages reserved] at ok
  obtain ⟨record, found⟩ := tensorRecord_of_status ok
  obtain ⟨-, -, scaled, -⟩ := tensorRecord_ok found
  have computed : tensorScale x.get x.count = .ok record.scale := scaled
  have scale : recordScale (recordBytes bitWidth x.count record) = record.scale :=
    recordScale_recordBytes
  have nonempty : x.count ≠ 0 := by
    obtain ⟨i, below, -⟩ := nonzero
    omega
  obtain ⟨fp64Scale, reference, scaleBound, reconstructionBound, decoded, referenced, bounded,
    decodes, referenceLength, decodedLength, scaleNear, near⟩ :=
      tensorRecord_within_bounds accurate length found nonzero
  rw [← scale] at scaleNear
  refine ⟨recordBytes bitWidth x.count record, fp64Scale, reference, scaleBound,
    reconstructionBound, decoded, sqCpuCompress_record stages reserved buffer found, ?_,
    referenced, bounded, decodes, referenceLength, decodedLength, scaleNear, near, ?_⟩
  · intro initial partials partialCapacity sufficient
    obtain ⟨partials', result⟩ := sqComputeScaleWithWorkspace_eq x.get initial
      (some partials) x.count_le fun _ => ⟨rfl, sufficient⟩
    rw [computed] at result
    rw [x.values_eq nonempty, scale]
    exact ⟨partials', result⟩
  · rintro rfl floatText run checks
    apply checkFp64Bounds_passes floatText checks.values decodes
    · rw [checks.bits, checks.seed, checks.tensorId, checks.invocationId]
      exact referenced
    · rw [checks.count, checks.bits]
      exact bounded
    · rw [decodedLength, referenceLength]
    · exact List.ne_nil_of_length_pos (by omega)
    · exact scaleNear
    · intro i below
      exact near i (decodedLength ▸ below)

/-- The run that checks a record of thirteen elements. -/
def thirteenRun : RecordRun := ⟨sqStoreF32ArrayLe (listOf sampleValues 13), 13, 4, 7, 0, 0⟩

theorem thirteenRun_checks : thirteenRun.Checks thirteenElements 4 ⟨7#64, 0#64, 0#64⟩ :=
  ⟨by decide +kernel, by decide +kernel, rfl, rfl, rfl, rfl, rfl⟩

theorem thirteenElements_nonzero : SomeNonzero thirteenElements.get thirteenElements.count := by
  refine ⟨0, by decide, ?_⟩
  rw [Ne, Fp.toReal_eq_zero_iff]
  decide +kernel

theorem checkFp64Bounds_sound_thirteenElements :
    letI := nearestEven Format.binary32
    ∃ record fp64Scale reference scaleBound reconstructionBound decoded,
      (sqCpuCompress threeThreadRuntime .cpuAvx2 4 thirteenElements.values
        thirteenElements.count ⟨7#64, 0#64, 0#64⟩ none none twoBlocksWorkspace
        (some fun _ => 0#8)).2.2.map
          (recordIn 4 thirteenElements.count) = some record ∧
      (∃ partials', sqComputeScaleWithWorkspace thirteenElements.values thirteenElements.count
        (some zeroF) (some fun _ => zeroF) 1 = (.ok, some (recordScale record), partials')) ∧
      referenceFp64 (listOf thirteenElements.get thirteenElements.count) 4 7 0 0 none =
        .ok (fp64Scale, reference) ∧
      fp64ErrorBounds thirteenElements.count 4 fp64Scale =
        .ok (scaleBound, reconstructionBound) ∧
      decodeRecord record = .ok decoded ∧
      reference.length = thirteenElements.count ∧ decoded.length = thirteenElements.count ∧
      |(recordScale record).toReal - fp64Scale| ≤ scaleBound ∧
      (∀ i < thirteenElements.count,
        |(decoded.getD i zeroF).toReal - reference.getD i 0| ≤ reconstructionBound) ∧
      ∃ reconstructionError ≤ reconstructionBound,
        checkFp64Bounds (fun _ => "nan") thirteenRun record =
          .ok (measuredRecord (fun _ => "nan") true true
            ⟨|(recordScale record).toReal - fp64Scale|, scaleBound, reconstructionError,
              reconstructionBound⟩) := by
  let _ := nearestEven Format.binary32
  have ok : (sqCpuCompress threeThreadRuntime .cpuAvx2 4 thirteenElements.values
      thirteenElements.count ⟨7#64, 0#64, 0#64⟩ none none twoBlocksWorkspace
      (some fun _ => 0#8)).1 = .ok := by
    rw [sqCpuCompress_status (stagesCorrect_cpuAvx2 threeThreadRuntime thirteenElements)
      twoBlocksWorkspace_reserved_thirteen]
    decide +kernel
  have noList : ∀ list, (none : Option (List Word)) = some list →
      list.length = thirteenElements.count := by
    intro list impossible
    cases impossible
  obtain ⟨record, fp64Scale, reference, scaleBound, reconstructionBound, decoded, stored,
    computed, referenced, bounded, decodes, referenceLength, decodedLength, scaleNear, near,
    passes⟩ :=
      @checkFp64Bounds_sound (nearestEven Format.binary32) (nearest_accurate Format.binary32)
        threeThreadRuntime .cpuAvx2 (.inr rfl) thirteenElements twoBlocksWorkspace
        twoBlocksWorkspace_reserved_thirteen 4 ⟨7#64, 0#64, 0#64⟩ none noList (fun _ => 0#8)
        thirteenElements_nonzero ok
  exact ⟨record, fp64Scale, reference, scaleBound, reconstructionBound, decoded, stored,
    computed zeroF (fun _ => zeroF) 1 (by decide +kernel), referenced, bounded, decodes,
    referenceLength, decodedLength, scaleNear, near,
    passes rfl (fun _ => "nan") thirteenRun thirteenRun_checks⟩

end Stoquant

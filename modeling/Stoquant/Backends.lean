import Stoquant.Ieee.Nearest
import Stoquant.Record

/-!
# The CPU backends agree

Reserving a workspace makes its buffers sufficient, and with sufficient buffers
the AVX2 backend stores the record of the scalar backend whatever the teams of
its parallel regions do.
-/

namespace Stoquant

open Ieee Par

/-- The buffers of a workspace are present once they have a capacity. -/
structure WorkspaceValid (workspace : SqCpuCompressWorkspace) : Prop where
  words : workspace.generatedWordCapacity ≠ 0 →
    workspace.generatedWords.isSome = true
  partials : workspace.scalePartialCapacity ≠ 0 →
    workspace.scalePartials.isSome = true

theorem sqCpuCompressWorkspaceInit_valid :
    WorkspaceValid sqCpuCompressWorkspaceInit :=
  ⟨fun nonzero => absurd rfl nonzero, fun nonzero => absurd rfl nonzero⟩

/-- `sq_cpu_compress_workspace_reserve` keeps a workspace valid and, when it
returns `SQ_OK`, leaves it reserved for the count. -/
theorem sqCpuCompressWorkspaceReserve_spec (realloc : Realloc)
    {workspace : SqCpuCompressWorkspace} (valid : WorkspaceValid workspace)
    (backend : SqBackend) (threads : ℤ) (count : ℕ) :
    ∃ status workspace',
      sqCpuCompressWorkspaceReserve realloc (some workspace) backend threads
          count = (status, some workspace') ∧
        WorkspaceValid workspace' ∧
        (status = .ok → Reserved workspace' count) := by
  unfold sqCpuCompressWorkspaceReserve
  dsimp only
  split
  · exact ⟨_, _, rfl, valid, fun ok => SqStatus.noConfusion ok⟩
  split
  · exact ⟨_, _, rfl, valid, fun ok => SqStatus.noConfusion ok⟩
  split
  · exact ⟨_, _, rfl, valid, fun ok => SqStatus.noConfusion ok⟩
  by_cases grow : count > workspace.generatedWordCapacity
  · rw [if_pos grow]
    cases realloc.words workspace.generatedWords (count * 4) with
    | none => exact ⟨_, _, rfl, valid, fun ok => SqStatus.noConfusion ok⟩
    | some words =>
        dsimp only [Option.map_some]
        split
        · split
          · exact ⟨_, _, rfl, ⟨fun _ => rfl, valid.partials⟩,
              fun ok => SqStatus.noConfusion ok⟩
          · exact ⟨_, _, rfl, ⟨fun _ => rfl, fun _ => rfl⟩,
              fun _ => ⟨le_rfl, fun _ => rfl, le_rfl, fun _ => rfl⟩⟩
        · rename_i enough
          exact ⟨_, _, rfl, ⟨fun _ => rfl, valid.partials⟩,
            fun _ => ⟨le_rfl, fun _ => rfl, by simpa using enough,
              valid.partials⟩⟩
  · rw [if_neg grow]
    have capacity : count ≤ workspace.generatedWordCapacity := by omega
    dsimp only
    split
    · split
      · exact ⟨_, _, rfl, valid, fun ok => SqStatus.noConfusion ok⟩
      · exact ⟨_, _, rfl, ⟨valid.words, fun _ => rfl⟩,
          fun _ => ⟨capacity, valid.words, le_rfl, fun _ => rfl⟩⟩
    · rename_i enough
      exact ⟨_, _, rfl, valid,
        fun _ => ⟨capacity, valid.words, by simpa using enough, valid.partials⟩⟩

/-- The record at the start of a buffer. -/
def recordIn (bitWidth count : ℕ) (buffer : ℕ → Byte) : List Byte :=
  (List.range (sqHeaderSize + sqPayloadSize bitWidth count)).map buffer

theorem recordIn_storeBytes (bitWidth count : ℕ) (record : TensorRecord)
    (buffer : ℕ → Byte) :
    recordIn bitWidth count
        (storeBytes buffer (recordBytes bitWidth count record)) =
      recordBytes bitWidth count record := by
  have length : (recordBytes bitWidth count record).length =
      sqHeaderSize + sqPayloadSize bitWidth count := by
    rw [recordBytes, List.length_append, headerBytes_length, payloadBytes_length]
  apply List.ext_getElem
  · simp [recordIn, length]
  · intro k inRange inBytes
    simp [recordIn, storeBytes, inBytes]

section

variable [Arith Format.binary32] {omp : OmpRuntime} {backend : SqBackend}
  {x : F32Array} {workspace : SqCpuCompressWorkspace}

/-- The status of a compression is that of the tensor's record. -/
theorem sqCpuCompress_status (stages : StagesCorrect omp backend x)
    (reserved : Reserved workspace x.count) (bitWidth : ℕ) (ids : StreamIds)
    (prescribedScale : Option F32) (prescribedWords : Ptr Word)
    (buffer : ℕ → Byte) :
    (sqCpuCompress omp backend bitWidth x.values x.count ids prescribedScale
        prescribedWords workspace (some buffer)).1 =
      resultStatus (tensorRecord bitWidth x ids prescribedScale prescribedWords) := by
  obtain ⟨_, _, result, -⟩ := sqCpuCompress_eq stages reserved bitWidth ids
    prescribedScale prescribedWords buffer
  rw [result]

/-- The record of a successful compression is the tensor's record. -/
theorem sqCpuCompress_record (stages : StagesCorrect omp backend x)
    (reserved : Reserved workspace x.count) {bitWidth : ℕ} {ids : StreamIds}
    {prescribedScale : Option F32} {prescribedWords : Ptr Word}
    (buffer : ℕ → Byte) {record : TensorRecord}
    (found : tensorRecord bitWidth x ids prescribedScale prescribedWords =
      .ok record) :
    (sqCpuCompress omp backend bitWidth x.values x.count ids prescribedScale
        prescribedWords workspace (some buffer)).2.2.map
          (recordIn bitWidth x.count) =
      some (recordBytes bitWidth x.count record) := by
  obtain ⟨_, _, result, holds⟩ := sqCpuCompress_eq stages reserved bitWidth ids
    prescribedScale prescribedWords buffer
  rw [result, holds record found, Option.map_some, recordIn_storeBytes]

omit [Arith Format.binary32] in
theorem exists_record {result : Except SqStatus TensorRecord}
    (ok : resultStatus result = .ok) (proper : ∀ status, result = .error status →
      status ≠ .ok) : ∃ record, result = .ok record := by
  cases result with
  | ok record => exact ⟨record, rfl⟩
  | error status => exact absurd ok (proper status rfl)

/-- A record fails with a status other than `SQ_OK`. -/
theorem tensorRecord_error {bitWidth : ℕ} {ids : StreamIds}
    {prescribedScale : Option F32} {prescribedWords : Ptr Word}
    {status : SqStatus}
    (failed : tensorRecord bitWidth x ids prescribedScale prescribedWords =
      .error status) : status ≠ .ok := by
  unfold tensorRecord at failed
  split at failed
  · rename_i scaled
    cases failed
    unfold resolveScale at scaled
    split at scaled
    · cases scaled
    · exact tensorScale_error scaled
  · rename_i drawn
    cases failed
    unfold resolveWords at drawn
    split at drawn
    · cases drawn
    · split at drawn <;> cases drawn
      exact fun same => SqStatus.noConfusion same
  · split at failed
    · cases failed
    · rename_i notOk
      cases failed
      exact notOk

theorem tensorRecord_of_status {bitWidth : ℕ} {ids : StreamIds}
    {prescribedScale : Option F32} {prescribedWords : Ptr Word}
    (ok : resultStatus
      (tensorRecord bitWidth x ids prescribedScale prescribedWords) = .ok) :
    ∃ record, tensorRecord bitWidth x ids prescribedScale prescribedWords =
      .ok record :=
  exists_record ok fun _ failed => tensorRecord_error failed

end

/-- The AVX2 backend returns the status of the scalar backend and, on success,
stores the same record, for every team and every order of its threads. -/
theorem sqCpuCompress_avx2_eq_scalar [RoundedArith Format.binary32]
    (omp omp' : OmpRuntime) (x : F32Array)
    {workspace workspace' : SqCpuCompressWorkspace}
    (reserved : Reserved workspace x.count)
    (reserved' : Reserved workspace' x.count) (bitWidth : ℕ) (ids : StreamIds)
    (prescribedScale : Option F32) (prescribedWords : Ptr Word)
    (buffer buffer' : ℕ → Byte) :
    let scalar := sqCpuCompress omp .cpu bitWidth x.values x.count ids
      prescribedScale prescribedWords workspace (some buffer)
    let avx2 := sqCpuCompress omp' .cpuAvx2 bitWidth x.values x.count ids
      prescribedScale prescribedWords workspace' (some buffer')
    avx2.1 = scalar.1 ∧
      (scalar.1 = .ok →
        avx2.2.2.map (recordIn bitWidth x.count) =
          scalar.2.2.map (recordIn bitWidth x.count)) := by
  have scalarStages := stagesCorrect_cpu omp x
  have avx2Stages := stagesCorrect_cpuAvx2 omp' x
  dsimp only
  rw [sqCpuCompress_status avx2Stages reserved',
    sqCpuCompress_status scalarStages reserved]
  refine ⟨rfl, fun ok => ?_⟩
  obtain ⟨record, found⟩ := tensorRecord_of_status ok
  rw [sqCpuCompress_record avx2Stages reserved' buffer' found,
    sqCpuCompress_record scalarStages reserved buffer found]

/-- A region of three threads run one after the other. -/
def threeThreads : OmpRegion := ⟨3, by norm_num, Scheduler.inOrder⟩

/-- A runtime whose every team has three threads. -/
def threeThreadRuntime : OmpRuntime :=
  ⟨threeThreads, threeThreads, threeThreads, threeThreads, threeThreads⟩

/-- Elements of either sign, from a half upwards. -/
def sampleValues (i : ℕ) : F32 :=
  ofF32Bits (BitVec.ofNat 32 (0x3F000001 + 0x1003 * i + i % 2 * 0x80000000))

theorem thirteen_fits : 13 ≤ sizeMax / 4 := by decide

/-- An array of odd length that is no whole number of vectors. -/
def thirteenElements : F32Array := ⟨some sampleValues, 13, fun _ => rfl, thirteen_fits⟩

theorem twoBlocks_fits : 261 ≤ sizeMax / 4 := by decide

/-- An array of two blocks. -/
def twoBlocks : F32Array := ⟨some sampleValues, 261, fun _ => rfl, twoBlocks_fits⟩

/-- A workspace reserved for two blocks. -/
def twoBlocksWorkspace : SqCpuCompressWorkspace :=
  ⟨some fun _ => 0#32, 261, some fun _ => zeroF, 2⟩

theorem twoBlocksWorkspace_reserved : Reserved twoBlocksWorkspace twoBlocks.count :=
  ⟨le_rfl, fun _ => rfl, by decide +kernel, fun _ => rfl⟩

theorem twoBlocksWorkspace_reserved_thirteen :
    Reserved twoBlocksWorkspace thirteenElements.count :=
  ⟨by decide, fun _ => rfl, by decide +kernel, fun _ => rfl⟩

theorem sqCpuCompress_avx2_eq_scalar_twoBlocks :
    letI := nearestEven Format.binary32
    let scalar := sqCpuCompress threeThreadRuntime .cpu 4 twoBlocks.values
      twoBlocks.count ⟨7#64, 0#64, 0#64⟩ none none twoBlocksWorkspace
      (some fun _ => 0#8)
    let avx2 := sqCpuCompress threeThreadRuntime .cpuAvx2 4 twoBlocks.values
      twoBlocks.count ⟨7#64, 0#64, 0#64⟩ none none twoBlocksWorkspace
      (some fun _ => 0#8)
    avx2.1 = scalar.1 ∧
      (scalar.1 = .ok →
        avx2.2.2.map (recordIn 4 twoBlocks.count) =
          scalar.2.2.map (recordIn 4 twoBlocks.count)) :=
  @sqCpuCompress_avx2_eq_scalar (nearestEven Format.binary32).toRoundedArith
    threeThreadRuntime threeThreadRuntime twoBlocks _ _ twoBlocksWorkspace_reserved
    twoBlocksWorkspace_reserved 4 ⟨7#64, 0#64, 0#64⟩ none none (fun _ => 0#8) (fun _ => 0#8)

end Stoquant

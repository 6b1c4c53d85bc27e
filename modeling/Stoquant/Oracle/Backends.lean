import Stoquant.Codec.Accepted
import Stoquant.Oracle.Encode

/-!
# The oracle and the CPU backends

`compress_record_fp32` and both backends of `sq_cpu_compress` accept the same calls, and an
accepted call has one record.
-/

namespace Stoquant

open Ieee

section

variable [RoundedArith Format.binary32] {x : F32Array}

/-- The oracle and either CPU backend accept exactly the same calls, and an accepted call
gives the same bytes. -/
theorem compressRecordFp32_accepts [RoundedArith Format.binary64] (omp : OmpRuntime)
    {backend : SqBackend} (cpuBackend : backend = .cpu ∨ backend = .cpuAvx2)
    {workspace : SqCpuCompressWorkspace} (reserved : Reserved workspace x.count) (bitWidth : ℕ)
    (ids : StreamIds) (prescribedScale : Option F32) {words : Option (List Word)}
    (length : ∀ list, words = some list → list.length = x.count) (buffer : ℕ → Byte) :
    let oracle := compressRecordFp32 (listOf x.get x.count) bitWidth ids.seed.toNat
      ids.tensorId.toNat ids.invocationId.toNat (prescribedScale.map (convert Format.binary64))
      (words.map fun list => list.map fun word => (word.toNat : ℤ))
    let native := sqCpuCompress omp backend bitWidth x.values x.count ids prescribedScale
      (words.map wordsOf) workspace (some buffer)
    ((∃ record, oracle = .ok record) ↔
        Compressible bitWidth x ids prescribedScale (words.map wordsOf)) ∧
      (native.1 = .ok ↔ Compressible bitWidth x ids prescribedScale (words.map wordsOf)) ∧
      ∀ record, oracle = .ok record →
        native.2.2.map (recordIn bitWidth x.count) = some record := by
  have stages : StagesCorrect omp backend x := by
    rcases cpuBackend with rfl | rfl
    · exact stagesCorrect_cpu omp x
    · exact stagesCorrect_cpuAvx2 omp x
  dsimp only
  rw [sqCpuCompress_status stages reserved, ← tensorRecord_exists_iff]
  refine ⟨⟨?_, ?_⟩, ⟨tensorRecord_of_status, ?_⟩, fun bytes returned => ?_⟩
  · rintro ⟨bytes, returned⟩
    obtain ⟨record, found, -⟩ := (compressRecordFp32_ok_iff length).mp returned
    exact ⟨record, found⟩
  · rintro ⟨record, found⟩
    exact ⟨_, (compressRecordFp32_ok_iff length).mpr ⟨record, found, rfl⟩⟩
  · rintro ⟨record, found⟩
    rw [found]
    rfl
  · obtain ⟨record, found, stored⟩ := (compressRecordFp32_ok_iff length).mp returned
    rw [← stored]
    exact sqCpuCompress_record stages reserved buffer found

end

theorem compressRecordFp32_accepts_thirteenElements :
    letI := nearestEven Format.binary32
    letI := nearestEven Format.binary64
    let oracle := compressRecordFp32 (listOf thirteenElements.get thirteenElements.count) 4 7 0 0
      none (some (thirteenWords.map fun word => (word.toNat : ℤ)))
    let native := sqCpuCompress threeThreadRuntime .cpuAvx2 4 thirteenElements.values
      thirteenElements.count ⟨7#64, 0#64, 0#64⟩ none (some (wordsOf thirteenWords))
      twoBlocksWorkspace (some fun _ => 0#8)
    ((∃ record, oracle = .ok record) ↔
        Compressible 4 thirteenElements ⟨7#64, 0#64, 0#64⟩ none
          (some (wordsOf thirteenWords))) ∧
      (native.1 = .ok ↔ Compressible 4 thirteenElements ⟨7#64, 0#64, 0#64⟩ none
        (some (wordsOf thirteenWords))) ∧
      ∀ record, oracle = .ok record →
        native.2.2.map (recordIn 4 thirteenElements.count) = some record :=
  letI := nearestEven Format.binary32
  letI := nearestEven Format.binary64
  have length : ∀ list, some thirteenWords = some list →
      list.length = thirteenElements.count :=
    fun _ same => (congrArg List.length (Option.some.inj same)).symm
  compressRecordFp32_accepts threeThreadRuntime (.inr rfl) twoBlocksWorkspace_reserved_thirteen 4
    ⟨7#64, 0#64, 0#64⟩ none length (fun _ => 0#8)

end Stoquant

import Stoquant.Codec.Accepted
import Stoquant.Quantizer.Unbiased

/-!
# Unbiased records

An element is compressed with a word as part of an array and read back from the record.  Over
all words its codes and its decoded values are unbiased, however the arrays, the backends and
the teams of the compressions differ.
-/

namespace Stoquant

open Ieee

/-- A compression that `sq_cpu_compress` accepts of an array that holds an element, with a
prescribed scale and a prescribed word for the element. -/
structure ElementRun [Arith Format.binary32] (bitWidth : ℕ) (x scale : F32) (word : Word) where
  omp : OmpRuntime
  backend : SqBackend
  cpuBackend : backend = .cpu ∨ backend = .cpuAvx2
  array : F32Array
  workspace : SqCpuCompressWorkspace
  reserved : Reserved workspace array.count
  ids : StreamIds
  words : ℕ → Word
  buffer : ℕ → Byte
  index : ℕ
  inside : index < array.count
  holds : array.get index = x
  drawn : words index = word
  accepted : (sqCpuCompress omp backend bitWidth array.values array.count ids (some scale)
    (some words) workspace (some buffer)).1 = .ok

section

variable [Arith Format.binary32] {bitWidth : ℕ} {x scale : F32} {word : Word}

/-- The record that it stores. -/
def ElementRun.bytes (run : ElementRun bitWidth x scale word) : List Byte :=
  ((sqCpuCompress run.omp run.backend bitWidth run.array.values run.array.count run.ids
    (some scale) (some run.words) run.workspace (some run.buffer)).2.2.map
      (recordIn bitWidth run.array.count)).getD []

/-- The signed code of the element in the record. -/
def ElementRun.code (run : ElementRun bitWidth x scale word) : ℤ :=
  (recordCode run.bytes run.index).toNat - signedLimit bitWidth

/-- What `sq_decode_record` returns for the record. -/
def ElementRun.decoded (run : ElementRun bitWidth x scale word) :
    Option (SqStatus × Option DecodeOut) :=
  sqDecodeRecord (fun _ => true) (some run.bytes) run.bytes.length (some ⟨none, 0⟩)

/-- The decoded value of the element. -/
def ElementRun.value (run : ElementRun bitWidth x scale word) : F32 :=
  (((run.decoded.bind Prod.snd).bind DecodeOut.values).getD []).getD run.index zeroF

end

section

variable [RoundedArith Format.binary32] {bitWidth : ℕ} {x scale : F32} {word : Word}

theorem ElementRun.bytes_eq (run : ElementRun bitWidth x scale word) :
    ∃ record, tensorRecord bitWidth run.array run.ids (some scale) (some run.words) =
        .ok record ∧
      run.bytes = recordBytes bitWidth run.array.count record := by
  have stages : StagesCorrect run.omp run.backend run.array := by
    rcases run.cpuBackend with cpu | avx2
    · rw [cpu]
      exact stagesCorrect_cpu run.omp run.array
    · rw [avx2]
      exact stagesCorrect_cpuAvx2 run.omp run.array
  have accepted := run.accepted
  rw [sqCpuCompress_status stages run.reserved] at accepted
  obtain ⟨record, found⟩ := tensorRecord_of_status accepted
  refine ⟨record, found, ?_⟩
  unfold ElementRun.bytes
  rw [sqCpuCompress_record stages run.reserved run.buffer found]
  rfl

theorem ElementRun.value_eq (run : ElementRun bitWidth x scale word) {values : List F32}
    {count : ℕ} (decoded : run.decoded = some (.ok, some ⟨some values, count⟩)) :
    run.value = values.getD run.index zeroF := by
  unfold ElementRun.value
  rw [decoded]
  rfl

/-- The record is decoded, and holds the code of the element and its decoded value. -/
theorem ElementRun.reads (run : ElementRun bitWidth x scale word) :
    (∃ values, run.decoded = some (.ok, some ⟨some values, run.array.count⟩)) ∧
      run.code = storedLevel (signedLimit bitWidth) scale x word ∧
      run.value = decodeCode (signedLimit bitWidth) (canonicalScale scale)
        (elementCode (signedLimit bitWidth) scale x word) := by
  obtain ⟨record, found, stored⟩ := run.bytes_eq
  obtain ⟨-, -, scaled, words, drawn, codes⟩ := tensorRecord_ok found
  obtain rfl : scale = record.scale := Except.ok.inj scaled
  obtain rfl : run.words = words := Except.ok.inj drawn
  have nonempty : run.array.count ≠ 0 := Nat.ne_zero_of_lt run.inside
  have decoded : run.decoded = some (.ok, some
      ⟨some (recordValues (recordBytes bitWidth run.array.count record)), run.array.count⟩) := by
    unfold ElementRun.decoded
    rw [stored, decodes_tensorRecord found, if_neg nonempty]
  have code : record.codes run.index =
      elementCode (signedLimit bitWidth) record.scale x word := by
    rw [codes]
    dsimp only
    rw [run.holds, run.drawn]
  refine ⟨⟨_, decoded⟩, ?_, ?_⟩
  · unfold ElementRun.code storedLevel
    rw [stored, recordCode_tensorRecord found run.inside, code]
  · rw [run.value_eq decoded, recordValues_tensorRecord found run.inside, code]

/-- An element among twelve ones. -/
def amongOnes (x : F32) : F32Array :=
  ⟨some fun i => if i = 0 then x else oneF, 13, fun _ => rfl, thirteen_fits⟩

/-- Every element can be compressed with every word. -/
theorem ElementRun.nonempty (width : Supported bitWidth) (scaleFinite : isfinite scale = true)
    (positive : 0 < scale.toReal) (finite : isfinite x = true) (word : Word) :
    Nonempty (ElementRun bitWidth x scale word) := by
  have usable := ScaleUsable.of_pos scaleFinite positive
  have one : oneF.eq zeroF ≠ true := by decide +kernel
  have compressible : Compressible bitWidth (amongOnes x) ⟨0, 0, 0⟩ (some scale)
      (some fun _ => word) := by
    refine ⟨width, ?_, ?_, fun none => ?_, fun none => ?_⟩
    · intro i below
      show isfinite (if i = 0 then x else oneF) = true
      split
      · exact finite
      · decide +kernel
    · intro prescribed same
      obtain rfl := Option.some.inj same
      refine ⟨scaleFinite, lt_zeroF_of_pos positive, ?_⟩
      refine iff_of_false (fun zero => usable.nonzero (eq_zeroF_iff.mp zero)) fun zeros => ?_
      exact one (zeros 1 (show 1 < 13 by decide))
    · cases none
    · cases none
  obtain ⟨record, found⟩ := tensorRecord_exists_iff.mpr compressible
  have reserved : Reserved twoBlocksWorkspace (amongOnes x).count :=
    twoBlocksWorkspace_reserved_thirteen
  refine ⟨⟨threeThreadRuntime, .cpu, .inl rfl, amongOnes x, twoBlocksWorkspace, reserved,
    ⟨0, 0, 0⟩, fun _ => word, fun _ => 0#8, 0, show 0 < 13 by decide, rfl, rfl, ?_⟩⟩
  rw [sqCpuCompress_status (stagesCorrect_cpu _ _) reserved, found]
  rfl

end

end Stoquant

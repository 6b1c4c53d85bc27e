import Stoquant.Backends
import Stoquant.Codec.RoundTrip

/-!
# Stored records decode

A compression that succeeds stores a record of the grammar, whose codes are the
level below an element or the one above, with the sign of the element, and whose
decoded values are these codes over the signed limit times the scale.
-/

namespace Stoquant

open Ieee

section

variable [RoundedArith Format.binary32]

/-- A code is the signed code shifted by the signed limit. -/
theorem elementCode_toNat {s : ℕ} {scale value : F32} (usable : ScaleUsable scale)
    (finite : isfinite value = true) (sPos : 0 < s) (sByte : s ≤ 127) (word : Word) :
    ((elementCode s scale value word).toNat : ℤ) = signedCode s scale value word + s := by
  have sSmall : s < 2 ^ 24 := lt_of_le_of_lt sByte (by norm_num)
  have signed := signedCode_eq usable finite sPos sSmall word
  have bound := codeMagnitude_le usable finite sPos sSmall word
  have nonzero : scale.eq zeroF = false := by
    cases zero : scale.eq zeroF with
    | false => rfl
    | true => exact absurd (eq_zeroF_iff.mp zero) usable.nonzero
  have range : 0 ≤ signedCode s scale value word + s ∧
      signedCode s scale value word + s < 256 := by
    rw [signed]
    split
    · omega
    · omega
  rw [elementCode, nonzero, if_neg Bool.false_ne_true, BitVec.toNat_ofInt,
    Int.toNat_of_nonneg (Int.emod_nonneg _ (by norm_num))]
  exact Int.emod_eq_of_lt range.1 range.2

theorem elementCode_zero {s : ℕ} {scale : F32} (zero : scale.eq zeroF = true)
    (sByte : s ≤ 127) (value : F32) (word : Word) :
    (elementCode s scale value word).toNat = s := by
  rw [elementCode, zero, if_pos rfl, BitVec.toNat_ofNat]
  exact Nat.mod_eq_of_lt (lt_of_le_of_lt sByte (by norm_num))

omit [RoundedArith Format.binary32] in
theorem signedLimit_le (bitWidth : ℕ) : signedLimit bitWidth ≤ 127 := by
  unfold signedLimit sqQ4SignedLimit sqQ8SignedLimit
  split
  · norm_num
  · norm_num

omit [RoundedArith Format.binary32] in
/-- Every element has a word unless the words are drawn and an identifier does not fit. -/
theorem resolveWords_ok_iff {ids : StreamIds} {prescribedWords : Ptr Word} :
    (∃ words, resolveWords ids prescribedWords = .ok words) ↔
      (prescribedWords = none →
        ids.tensorId.toNat ≤ uint32Max ∧ ids.invocationId.toNat ≤ uint32Max) := by
  unfold resolveWords
  cases prescribedWords with
  | some words => exact iff_of_true ⟨words, rfl⟩ fun none => absurd none (Option.some_ne_none words)
  | none =>
      unfold sqRngStreamInit
      by_cases rejected : ids.tensorId.toNat > uint32Max ∨ ids.invocationId.toNat > uint32Max
      · rw [if_pos rejected]
        refine iff_of_false ?_ fun fits => ?_
        · rintro ⟨words, found⟩
          cases found
        · obtain ⟨tensorId, invocationId⟩ := fits rfl
          omega
      · rw [if_neg rejected]
        exact iff_of_true ⟨_, rfl⟩ fun _ => by omega

/-- What a successful compression stores. -/
theorem tensorRecord_ok {bitWidth : ℕ} {x : F32Array} {ids : StreamIds}
    {prescribedScale : Option F32} {prescribedWords : Ptr Word} {record : TensorRecord}
    (found : tensorRecord bitWidth x ids prescribedScale prescribedWords = .ok record) :
    Supported bitWidth ∧ encodeStatus x.get x.count record.scale = .ok ∧
      resolveScale x prescribedScale = .ok record.scale ∧
      ∃ words, resolveWords ids prescribedWords = .ok words ∧
        record.codes = fun i =>
          elementCode (signedLimit bitWidth) record.scale (x.get i) (words i) := by
  unfold tensorRecord at found
  cases scaled : resolveScale x prescribedScale with
  | error status => simp [scaled] at found
  | ok scale =>
      cases drawn : resolveWords ids prescribedWords with
      | error status => simp [scaled, drawn] at found
      | ok words =>
          rw [scaled, drawn] at found
          dsimp only at found
          split at found
          · rename_i stored
            cases found
            unfold storeStatus at stored
            split at stored
            · cases stored
            · rename_i notUnsupported
              refine ⟨?_, stored, rfl, words, rfl, rfl⟩
              unfold Supported
              omega
          · cases found

omit [RoundedArith Format.binary32] in
theorem finite_of_encodeStatus {values : ℕ → F32} {count : ℕ} {scale : F32}
    (ok : encodeStatus values count scale = .ok) {i : ℕ} (below : i < count) :
    isfinite (values i) = true := by
  obtain ⟨-, -, finite, -⟩ := encodeStatus_ok_iff.mp ok
  exact allFinite_iff.mp finite i below

/-- The codes of a stored record are valid under its scale. -/
theorem contentValid_of_tensorRecord {bitWidth : ℕ} {x : F32Array} {ids : StreamIds}
    {prescribedScale : Option F32} {prescribedWords : Ptr Word} {record : TensorRecord}
    (found : tensorRecord bitWidth x ids prescribedScale prescribedWords = .ok record) :
    ContentValid bitWidth x.count record := by
  obtain ⟨-, ok, -, words, -, codes⟩ := tensorRecord_ok found
  obtain ⟨finite, notBelow, -, nonzeroIff⟩ := encodeStatus_ok_iff.mp ok
  have sByte := signedLimit_le bitWidth
  refine ⟨finite, notBelow, ?_, ?_⟩
  · intro empty
    rw [empty] at nonzeroIff
    have none : anyNonzero x.get 0 = false := rfl
    rw [none] at nonzeroIff
    simpa using nonzeroIff
  · intro i below
    rw [congrFun codes i]
    cases zero : record.scale.eq zeroF with
    | true =>
        have centre := elementCode_zero zero sByte (x.get i) (words i)
        exact ⟨by omega, fun _ => centre⟩
    | false =>
        have usable := ScaleUsable.of_checks finite notBelow zero
        have valueFinite := finite_of_encodeStatus ok below
        have sPos := signedLimit_pos bitWidth
        have sSmall := signedLimit_small bitWidth
        have code := elementCode_toNat usable valueFinite sPos sByte (words i)
        have signed := signedCode_eq usable valueFinite sPos sSmall (words i)
        have bound := codeMagnitude_le usable valueFinite sPos sSmall (words i)
        refine ⟨?_, fun impossible => absurd impossible (by simp)⟩
        rw [signed] at code
        split at code
        · omega
        · omega

/-! ## Decoding -/

/-- The decoded value of a centre code is positive zero. -/
theorem decodeCode_centre {limit : ℕ} (positive : 0 < limit) (small : limit < 2 ^ 24)
    {code : Byte} (centre : code.toNat = limit) : decodeCode limit zeroF code = zeroF := by
  have limitHas := ofInt_hasUnits small
  have limitMag : (ofInt Format.binary32 limit).mag ≠ 0 := by
    rw [Ne, ← units_eq_zero_iff (φ := Format.binary32), limitHas.units_mag]
    exact Nat.mul_ne_zero positive.ne' unit_pos.ne'
  have zeroHas : HasUnits (ofInt Format.binary32 ((0 : ℕ) : ℤ)) (0 * unit) :=
    ofInt_hasUnits (by norm_num)
  have zeroFinite : (zeroF).isFinite = true := Fp.isFinite_zero
  have zeroReal : (zeroF).toReal = 0 := Fp.toReal_eq_zero_iff.mpr Fp.mag_zero
  have numerator : (ofInt Format.binary32 ((0 : ℕ) : ℤ)).toReal = 0 := by
    rw [zeroHas.toReal]
    simp
  have ratio : SameValue
      (ofInt Format.binary32 ((0 : ℕ) : ℤ) / ofInt Format.binary32 limit) zeroF := by
    apply (div_rounds zeroHas.finite limitHas.finite limitMag).of_exact zeroFinite
    rw [numerator, zeroReal, zero_div]
  have ratioFinite : (ofInt Format.binary32 ((0 : ℕ) : ℤ) /
      ofInt Format.binary32 limit).isFinite = true := by
    rw [ratio.isFinite]
    exact zeroFinite
  have product : SameValue (ofInt Format.binary32 ((0 : ℕ) : ℤ) /
      ofInt Format.binary32 limit * zeroF) zeroF := by
    apply (mul_rounds ratioFinite zeroFinite).of_exact zeroFinite
    rw [zeroReal, mul_zero]
  have shifted : ((code.toNat : ℤ) - limit) = ((0 : ℕ) : ℤ) := by omega
  rw [decodeCode]
  simp only [shifted]
  apply Fp.eq_of_key_of_sign product.key
  rw [mul_sign ratioFinite zeroFinite,
    div_sign zeroHas.finite limitHas.finite limitMag, ofInt_sign_nat, ofInt_sign_nat]
  rfl

/-- The codes and the decoded values of a record hold the right levels of an
array under a scale. -/
structure RightLevels (s : ℕ) (x : F32Array) (scale : F32) (codes : ℕ → Byte)
    (decoded : ℕ → F32) : Prop where
  /-- Every code is in range. -/
  range : ∀ i < x.count, (codes i).toNat ≤ 2 * s
  /-- The magnitude of a signed code is the level below the element or the next. -/
  level : scale.eq zeroF = false → ∀ i < x.count,
    (|((codes i).toNat : ℤ) - s| = (floorf (scaledValue s scale (x.get i))).trunc ∨
      |((codes i).toNat : ℤ) - s| = (floorf (scaledValue s scale (x.get i))).trunc + 1)
  /-- A signed code is zero or has the sign of its element. -/
  sign : scale.eq zeroF = false → ∀ i < x.count, (codes i).toNat = s ∨
    ((codes i).toNat < s ↔ (x.get i).sign = true)
  /-- A value is decoded from its signed code. -/
  value : scale.eq zeroF = false → ∀ i < x.count, decoded i =
    ofInt Format.binary32 ((codes i).toNat - s) / ofInt Format.binary32 s * scale
  /-- Under a zero scale every value is positive zero. -/
  zero : scale.eq zeroF = true → ∀ i < x.count, decoded i = zeroF

theorem rightLevels_of_tensorRecord {bitWidth : ℕ} {x : F32Array} {ids : StreamIds}
    {prescribedScale : Option F32} {prescribedWords : Ptr Word} {record : TensorRecord}
    (found : tensorRecord bitWidth x ids prescribedScale prescribedWords = .ok record) :
    RightLevels (signedLimit bitWidth) x record.scale record.codes fun i =>
      decodeCode (signedLimit bitWidth) (canonicalScale record.scale) (record.codes i) := by
  obtain ⟨-, ok, -, words, -, codes⟩ := tensorRecord_ok found
  obtain ⟨finite, notBelow, -, -⟩ := encodeStatus_ok_iff.mp ok
  have valid := contentValid_of_tensorRecord found
  have sByte := signedLimit_le bitWidth
  have sPos := signedLimit_pos bitWidth
  have sSmall := signedLimit_small bitWidth
  have signed : record.scale.eq zeroF = false → ∀ i < x.count,
      ((record.codes i).toNat : ℤ) - signedLimit bitWidth =
        if (x.get i).sign then
          -(codeMagnitude (signedLimit bitWidth) record.scale (x.get i) (words i) : ℤ)
        else codeMagnitude (signedLimit bitWidth) record.scale (x.get i) (words i) := by
    intro nonzero i below
    have usable := ScaleUsable.of_checks finite notBelow nonzero
    have valueFinite := finite_of_encodeStatus ok below
    rw [codes]
    simp only
    rw [elementCode_toNat usable valueFinite sPos sByte, add_sub_cancel_right,
      signedCode_eq usable valueFinite sPos sSmall]
  constructor
  · exact fun i below => (valid.codes i below).1
  · intro nonzero i below
    have usable := ScaleUsable.of_checks finite notBelow nonzero
    have valueFinite := finite_of_encodeStatus ok below
    have magnitude : |((record.codes i).toNat : ℤ) - signedLimit bitWidth| =
        codeMagnitude (signedLimit bitWidth) record.scale (x.get i) (words i) := by
      rw [signed nonzero i below]
      split
      · rw [abs_neg, Nat.abs_cast]
      · rw [Nat.abs_cast]
    rw [magnitude, floorf_scaled usable valueFinite sPos sSmall, codeMagnitude]
    split
    · right
      push_cast
      ring
    · left
      simp
  · intro nonzero i below
    have shifted := signed nonzero i below
    cases sign : (x.get i).sign with
    | true =>
        rw [sign, if_pos rfl] at shifted
        simp only [iff_true]
        omega
    | false =>
        rw [sign, if_neg Bool.false_ne_true] at shifted
        simp only [Bool.false_eq_true, iff_false, not_lt]
        omega
  · intro nonzero i _
    rw [canonicalScale, nonzero, if_neg Bool.false_ne_true, decodeCode]
  · intro zero i below
    rw [canonicalScale, zero, if_pos rfl]
    exact decodeCode_centre sPos sSmall ((valid.codes i below).2 zero)

section

variable {bitWidth : ℕ} {x : F32Array} {ids : StreamIds} {prescribedScale : Option F32}
  {prescribedWords : Ptr Word} {record : TensorRecord}
  (found : tensorRecord bitWidth x ids prescribedScale prescribedWords = .ok record)

include found

theorem decodes_tensorRecord :
    sqDecodeRecord (fun _ => true) (some (recordBytes bitWidth x.count record))
        (recordBytes bitWidth x.count record).length (some ⟨none, 0⟩) =
      some (.ok, some ⟨if x.count = 0 then none
        else some (recordValues (recordBytes bitWidth x.count record)), x.count⟩) := by
  obtain ⟨supported, -⟩ := tensorRecord_ok found
  have fits := x.fits
  have countSmall : x.count < 2 ^ 64 := by
    unfold sizeMax at fits
    omega
  have count : recordCount (recordBytes bitWidth x.count record) = x.count :=
    recordCount_recordBytes countSmall
  have grammar := grammar_recordBytes supported countSmall (contentValid_of_tensorRecord found)
  have decoded := sqDecodeRecord_spec_of_count (fun _ => by rw [count]; exact fits) ⟨none, 0⟩
  rcases decoded with ⟨-, decoded⟩ | ⟨invalid, -⟩
  · rw [decoded, decodedRecord, count]
  · exact absurd grammar invalid

theorem recordCode_tensorRecord {i : ℕ} (below : i < x.count) :
    recordCode (recordBytes bitWidth x.count record) i = record.codes i := by
  obtain ⟨supported, -⟩ := tensorRecord_ok found
  exact recordCode_recordBytes supported below
    ((contentValid_of_tensorRecord found).codes.fits below)

theorem recordValues_tensorRecord {i : ℕ} (below : i < x.count) :
    (recordValues (recordBytes bitWidth x.count record)).getD i zeroF =
      decodeCode (signedLimit bitWidth) (canonicalScale record.scale) (record.codes i) := by
  obtain ⟨supported, -⟩ := tensorRecord_ok found
  have fits := x.fits
  have count : recordCount (recordBytes bitWidth x.count record) = x.count := by
    apply recordCount_recordBytes
    unfold sizeMax at fits
    omega
  rw [recordValues, count, recordBits_recordBytes supported, recordScale_recordBytes,
    List.getD_eq_getElem?_getD, List.getElem?_map, List.getElem?_range below, Option.map_some,
    Option.getD_some, recordCode_tensorRecord found below]

end

/-- Every record that a CPU backend stores is decoded: its count comes back, its
padding is zero, and its codes and values hold the right levels of the array
under the scale that was prescribed or computed. -/
theorem sqCpuCompress_decodes {omp : OmpRuntime} {backend : SqBackend}
    (cpuBackend : backend = .cpu ∨ backend = .cpuAvx2) (x : F32Array)
    {workspace : SqCpuCompressWorkspace} (reserved : Reserved workspace x.count)
    {bitWidth : ℕ} {ids : StreamIds} {prescribedScale : Option F32}
    {prescribedWords : Ptr Word} {buffer : ℕ → Byte}
    (ok : (sqCpuCompress omp backend bitWidth x.values x.count ids prescribedScale
      prescribedWords workspace (some buffer)).1 = .ok) :
    ∃ bytes decoded,
      (sqCpuCompress omp backend bitWidth x.values x.count ids prescribedScale
        prescribedWords workspace (some buffer)).2.2.map (recordIn bitWidth x.count) =
          some bytes ∧
      bytes.length = sqHeaderSize + sqPayloadSize bitWidth x.count ∧
      sqDecodeRecord (fun _ => true) (some bytes) bytes.length (some ⟨none, 0⟩) =
        some (.ok, some ⟨if x.count = 0 then none else some decoded, x.count⟩) ∧
      decoded.length = x.count ∧
      (bitWidth = sqQ4Bits → x.count % 2 = 1 →
        byteAt bytes (sqHeaderSize + x.count / 2) >>> 4 = 0#8) ∧
      resolveScale x prescribedScale = .ok (recordScale bytes) ∧
      RightLevels (signedLimit bitWidth) x (recordScale bytes) (recordCode bytes)
        fun i => decoded.getD i zeroF := by
  have stages : StagesCorrect omp backend x := by
    rcases cpuBackend with rfl | rfl
    · exact stagesCorrect_cpu omp x
    · exact stagesCorrect_cpuAvx2 omp x
  rw [sqCpuCompress_status stages reserved] at ok
  obtain ⟨record, found⟩ := tensorRecord_of_status ok
  obtain ⟨supported, -, scaled, -⟩ := tensorRecord_ok found
  have valid := contentValid_of_tensorRecord found
  have levels := rightLevels_of_tensorRecord found
  have fits := x.fits
  have countSmall : x.count < 2 ^ 64 := by
    unfold sizeMax at fits
    omega
  have grammar := grammar_recordBytes supported countSmall valid
  have count : recordCount (recordBytes bitWidth x.count record) = x.count :=
    recordCount_recordBytes countSmall
  have bits : recordBits (recordBytes bitWidth x.count record) = bitWidth :=
    recordBits_recordBytes supported
  have scale : recordScale (recordBytes bitWidth x.count record) = record.scale :=
    recordScale_recordBytes
  have code : ∀ i < x.count,
      recordCode (recordBytes bitWidth x.count record) i = record.codes i :=
    fun i below => recordCode_tensorRecord found below
  refine ⟨recordBytes bitWidth x.count record,
    recordValues (recordBytes bitWidth x.count record),
    sqCpuCompress_record stages reserved buffer found, recordBytes_length,
    decodes_tensorRecord found, ?_, ?_, ?_, ?_⟩
  · rw [recordValues, List.length_map, List.length_range, count]
  · intro q4 odd
    have padding := grammar.padding
    rw [bits, count] at padding
    exact padding q4 odd
  · rw [scale]
    exact scaled
  · rw [scale]
    have value : ∀ i < x.count,
        (recordValues (recordBytes bitWidth x.count record)).getD i zeroF =
          decodeCode (signedLimit bitWidth) (canonicalScale record.scale) (record.codes i) :=
      fun i below => recordValues_tensorRecord found below
    constructor
    · intro i below
      rw [code i below]
      exact levels.range i below
    · intro nonzero i below
      rw [code i below]
      exact levels.level nonzero i below
    · intro nonzero i below
      rw [code i below]
      exact levels.sign nonzero i below
    · intro nonzero i below
      rw [value i below, code i below]
      exact levels.value nonzero i below
    · intro zero i below
      rw [value i below]
      exact levels.zero zero i below

end

theorem sqCpuCompress_decodes_thirteenElements :
    letI := nearestEven Format.binary32
    ∃ bytes decoded,
      (sqCpuCompress threeThreadRuntime .cpuAvx2 4 thirteenElements.values thirteenElements.count
        ⟨7#64, 0#64, 0#64⟩ none none twoBlocksWorkspace (some fun _ => 0#8)).2.2.map
          (recordIn 4 thirteenElements.count) = some bytes ∧
      bytes.length = sqHeaderSize + sqPayloadSize 4 thirteenElements.count ∧
      sqDecodeRecord (fun _ => true) (some bytes) bytes.length (some ⟨none, 0⟩) =
        some (.ok, some ⟨if thirteenElements.count = 0 then none else some decoded,
          thirteenElements.count⟩) ∧
      decoded.length = thirteenElements.count ∧
      (4 = sqQ4Bits → thirteenElements.count % 2 = 1 →
        byteAt bytes (sqHeaderSize + thirteenElements.count / 2) >>> 4 = 0#8) ∧
      resolveScale thirteenElements none = .ok (recordScale bytes) ∧
      RightLevels (signedLimit 4) thirteenElements (recordScale bytes) (recordCode bytes)
        fun i => decoded.getD i zeroF :=
  letI := nearestEven Format.binary32
  sqCpuCompress_decodes (.inr rfl) thirteenElements twoBlocksWorkspace_reserved_thirteen (by
    rw [sqCpuCompress_status (stagesCorrect_cpuAvx2 threeThreadRuntime thirteenElements)
      twoBlocksWorkspace_reserved_thirteen]
    decide +kernel)

end Stoquant

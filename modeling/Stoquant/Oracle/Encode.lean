import Stoquant.Backends
import Stoquant.Ieee.Convert
import Stoquant.Oracle.Decode
import Stoquant.Oracle.Philox
import Stoquant.Oracle.Scale
import Stoquant.Quantizer.Level

/-!
# The oracle's encoder

`compress_record_fp32` of `oracle.py` computes levels as integers, thresholds in binary64 and
the record by `struct.pack`.  It returns the record of the tensor, and raises where the scalar
backend fails.
-/

namespace Stoquant

open Ieee Loop

/-- A Python float. -/
abbrev PyFloat := Fp Format.binary64

/-- `_word_array`. -/
def wordArray (values : List ℤ) (width : ℕ) (name : String) : Except PyError (List Word) :=
  if values.any (fun value => decide (value < 0)) ||
      values.any (fun value => decide (value ≥ 1 <<< width)) then
    .error (.valueError s!"{name} contains a value outside uint{width}")
  else .ok (values.map (BitVec.ofInt 32))

/-- `_resolve_words`. -/
def oracleResolveWords (count : ℕ) (seed tensorId invocationId : ℤ) (words : Option (List ℤ)) :
    Except PyError (List Word) :=
  match words with
  | none => philoxWords count seed tensorId invocationId
  | some words => do
      let array ← wordArray words 32 "words"
      if array.length ≠ count then
        throw (.valueError "prescribed random words must match the input element count")
      return array

/-- `np.minimum` of two elements. -/
def npMinimum (a b : F32) : F32 :=
  if a.lt b || a.eq b || a.isNaN then a else b

section

variable [Arith Format.binary32]

/-- `_resolve_scale_fp32`. -/
def resolveScaleFp32 (array : List F32) (scale : Option PyFloat) : Except PyError F32 :=
  match scale with
  | none => scaleFp32 array
  | some value =>
      if !value.isFinite || value.lt (Fp.zero Format.binary64) then
        .error (.valueError "prescribed scale must be a finite non-negative number")
      else
        let scale32 := convert Format.binary32 value
        if !isfinite scale32 then
          .error (.overflowError "prescribed scale is outside the FP32 range")
        else if !array.any (fun value => !value.eq zeroF) && !scale32.eq zeroF then
          .error (.valueError "empty and all-zero inputs require zero scale")
        else if scale32.eq zeroF && array.any (fun value => !value.eq zeroF) then
          .error (.valueError "zero scale cannot represent a nonzero input")
        else .ok scale32

variable [Arith Format.binary64]

/-- One element of `_round_codes_fp32`. -/
def roundCode (scale : F32) (signedLimit : ℕ) (value : F32) (word : Word) : Byte :=
  let ratio := fabsf value / scale
  let scaled := ratio * ofInt Format.binary32 signedLimit
  let scaled := npMinimum scaled (ofInt Format.binary32 signedLimit)
  let lower := (floorf scaled).trunc
  let fraction := scaled - ofInt Format.binary32 lower
  let threshold :=
    (convert Format.binary64 fraction * ofInt Format.binary64 (1 <<< 32)).floor.trunc.toNat
  let rounded := decide (word.toNat < threshold)
  let magnitude := lower + if rounded then 1 else 0
  let signed := if signbit value && decide (magnitude ≠ 0) then -magnitude else magnitude
  BitVec.ofInt 8 (signed + signedLimit)

/-- `_round_codes_fp32`. -/
def roundCodesFp32 (array : List F32) (scale : F32) (words : List Word) (signedLimit : ℕ) :
    List Byte :=
  if scale.eq zeroF then List.replicate array.length (BitVec.ofNat 8 signedLimit)
  else List.zipWith (roundCode scale signedLimit) array words

end

/-- The payload in `compress_record_fp32`. -/
def packPayload (bits : ℕ) (codes : List Byte) : List Byte :=
  if bits = 8 then codes
  else
    let pairs := codes.length / 2
    let payloadLen := (codes.length + 1) / 2
    let packed := upTo pairs
      (fun j packed => packed.set j
        ((codes.getD (2 * j) 0#8 &&& 0x0F#8) |||
          ((codes.getD (2 * j + 1) 0#8 &&& 0x0F#8) <<< 4)))
      (List.replicate payloadLen 0#8)
    if codes.length % 2 = 1 then packed.set pairs (codes.getLastD 0#8 &&& 0x0F#8)
    else packed

/-- An unsigned integer as so many little-endian bytes. -/
def leBytes (size value : ℕ) : List Byte :=
  (List.range size).map fun k => BitVec.ofNat 8 (value >>> (8 * k))

/-- `HEADER_STRUCT.pack`, of the layout `<4sBBHQf`. -/
def packHeader (magic : List Byte) (version bits reserved count : ℕ) (scale : PyFloat) :
    List Byte :=
  magic ++ leBytes 1 version ++ leBytes 1 bits ++ leBytes 2 reserved ++ leBytes 8 count ++
    leBytes 4 (f32Bits (convert Format.binary32 scale)).toNat

/-- `compress_record_fp32`. -/
def compressRecordFp32 [Arith Format.binary32] [Arith Format.binary64] (values : List F32)
    (bits seed tensorId invocationId : ℤ) (scale : Option PyFloat) (words : Option (List ℤ)) :
    Except PyError (List Byte) := do
  let bits ← unsigned bits 8 "bits"
  let signedLimit ← signedLimitFor bits
  let array ← valuesFp32 values
  let scale32 ← resolveScaleFp32 array scale
  let randomWords ← oracleResolveWords array.length seed tensorId invocationId words
  let codes := roundCodesFp32 array scale32 randomWords signedLimit
  let payload := packPayload bits codes
  let header := packHeader [0x4D#8, 0x53#8, 0x51#8, 0x31#8] 1 bits 0 array.length
    (convert Format.binary64 scale32)
  return header ++ payload

/-! ## The header -/

theorem setWidth_ushiftRight {w : ℕ} (v : BitVec w) (k : ℕ) :
    (v >>> k).setWidth 8 = BitVec.ofNat 8 (v.toNat >>> k) := by
  apply BitVec.eq_of_toNat_eq
  rw [BitVec.toNat_setWidth, BitVec.toNat_ushiftRight, BitVec.toNat_ofNat]

theorem sqStoreU32Le_eq (v : BitVec 32) : sqStoreU32Le v = leBytes 4 v.toNat := by
  have low : v.setWidth 8 = BitVec.ofNat 8 (v.toNat >>> 0) := setWidth_ushiftRight v 0
  unfold sqStoreU32Le
  rw [low, setWidth_ushiftRight, setWidth_ushiftRight, setWidth_ushiftRight]
  rfl

theorem leBytes_add (j k value : ℕ) :
    leBytes (j + k) value = leBytes j value ++ leBytes k (value >>> (8 * j)) := by
  unfold leBytes
  rw [List.range_add, List.map_append, List.map_map]
  congr 1
  apply List.map_congr_left
  intro i _
  rw [Function.comp_apply, ← Nat.shiftRight_add, Nat.mul_add]

theorem leBytes_mod (size value : ℕ) :
    leBytes size (value % 2 ^ (8 * size)) = leBytes size value := by
  unfold leBytes
  apply List.map_congr_left
  intro k below
  have inside := List.mem_range.mp below
  apply BitVec.eq_of_toNat_eq
  rw [BitVec.toNat_ofNat, BitVec.toNat_ofNat]
  apply Nat.eq_of_testBit_eq
  intro bit
  rw [Nat.testBit_mod_two_pow, Nat.testBit_mod_two_pow, Nat.testBit_shiftRight,
    Nat.testBit_shiftRight, Nat.testBit_mod_two_pow]
  by_cases low : bit < 8
  · have covered : 8 * k + bit < 8 * size := by omega
    simp [covered]
  · simp [low]

theorem sqStoreU64Le_eq (v : BitVec 64) : sqStoreU64Le v = leBytes 8 v.toNat := by
  have low : (v.setWidth 32).toNat = v.toNat % 2 ^ (8 * 4) := BitVec.toNat_setWidth 32 v
  have high : ((v >>> 32).setWidth 32).toNat = v.toNat >>> (8 * 4) % 2 ^ (8 * 4) := by
    rw [BitVec.toNat_setWidth, BitVec.toNat_ushiftRight]
  unfold sqStoreU64Le
  rw [sqStoreU32Le_eq, sqStoreU32Le_eq, low, high, leBytes_mod, leBytes_mod, ← leBytes_add]

theorem packHeader_eq {bitWidth count : ℕ} {scale : F32} (supported : Supported bitWidth)
    (fits : count ≤ sizeMax) (finite : isfinite scale = true) :
    packHeader [0x4D#8, 0x53#8, 0x51#8, 0x31#8] 1 bitWidth 0 count
        (convert Format.binary64 scale) =
      headerBytes bitWidth count scale := by
  have small : (BitVec.ofNat 64 count).toNat = count := by
    rw [BitVec.toNat_ofNat]
    unfold sizeMax at fits
    omega
  unfold packHeader headerBytes
  rw [convert_convert wider_binary32_binary64 finite, sqStoreU64Le_eq, sqStoreU32Le_eq, small]
  rcases supported with rfl | rfl <;> rfl

/-! ## The codes -/

theorem npMinimum_eq {a b : F32} (number : b.isNaN = false) :
    npMinimum a b = if b.lt a then b else a := by
  unfold npMinimum Fp.lt Fp.eq
  rw [number]
  cases a.isNaN with
  | true => rfl
  | false =>
      by_cases above : b.key < a.key
      · have notBelow : ¬ a.key < b.key := by omega
        have notSame : ¬ a.key = b.key := by omega
        simp [above, notBelow, notSame]
      · have within : a.key < b.key ∨ a.key = b.key := by omega
        rcases within with less | same
        · simp [above, less]
        · simp [same]

section

variable [RoundedArith Format.binary64]

/-- The factor of the threshold. -/
theorem twoPow32_hasUnits :
    HasUnits (ofInt Format.binary64 (1 <<< 32)) (2 ^ 32 * one Format.binary64) := by
  have shifted : (1 <<< 32 : ℤ) = ((2 ^ 32 : ℕ) : ℤ) := rfl
  rw [shifted]
  apply HasUnits.ofInt
  rw [wider_binary32_binary64.one_eq, ← mul_assoc]
  exact twoPow32F_hasUnits.representable.widen wider_binary32_binary64

theorem twoPow32_toReal : (ofInt Format.binary64 (1 <<< 32)).toReal = 2 ^ 32 := by
  have onePos : (0 : ℝ) < one Format.binary64 := by exact_mod_cast Nat.two_pow_pos _
  rw [twoPow32_hasUnits.toReal, Nat.cast_mul, mul_div_assoc, div_self onePos.ne', mul_one]
  norm_num

theorem threshold_fp64 {fraction : F32} {f : ℕ} (has : HasUnits fraction f) (below : f < unit) :
    (convert Format.binary64 fraction * ofInt Format.binary64 (1 <<< 32)).floor.trunc =
      ((f * 2 ^ 32 / unit : ℕ) : ℤ) := by
  have inside : f * 2 ^ 32 < units Format.binary32 Format.binary32.infMag := by
    apply lt_trans _ range_binary32
    rw [unit_eq] at below
    omega
  have wide := has.convert wider_binary32_binary64
  have room := wider_binary32_binary64.lt_range inside
  rw [Nat.mul_right_comm] at room
  have product := wide.mul_pow_two 32 twoPow32_hasUnits.finite twoPow32_toReal room
  rw [product.floor.trunc, Nat.mul_div_cancel _ (Nat.two_pow_pos _), Nat.mul_right_comm,
    wider_binary32_binary64.div_one]

variable [RoundedArith Format.binary32]

omit [RoundedArith Format.binary64] in
/-- The minimum with the limit clamps as the encoder does. -/
theorem npMinimum_scaledValue {s : ℕ} (sSmall : s < 2 ^ 24) (scale value : F32) :
    npMinimum (fabsf value / scale * ofInt Format.binary32 s) (ofInt Format.binary32 s) =
      scaledValue s scale value :=
  npMinimum_eq (Fp.not_isNaN_of_isFinite (ofInt_hasUnits sSmall).finite)

theorem roundCode_eq {s : ℕ} {scale value : F32} (usable : ScaleUsable scale)
    (finite : isfinite value = true) (sPos : 0 < s) (sSmall : s < 2 ^ 24) (word : Word) :
    roundCode scale s value word = BitVec.ofInt 8 (signedCode s scale value word + s) := by
  have lowerSmall : lowerLevel s scale value < 2 ^ 24 :=
    lt_of_le_of_lt (lowerLevel_le usable finite sPos sSmall) sSmall
  have fraction := fraction_hasUnits usable finite sPos sSmall (ofInt_hasUnits lowerSmall)
  have threshold := threshold_fp64 fraction (Nat.mod_lt _ unit_pos)
  unfold roundCode signedCode
  dsimp only
  rw [npMinimum_scaledValue sSmall, magnitude_eq usable finite sPos sSmall word,
    floorf_scaled usable finite sPos sSmall, threshold, Int.toNat_natCast]
  have drawn : ((lowerLevel s scale value : ℤ) +
      if decide (word.toNat < scaledUnits s scale value % unit * 2 ^ 32 / unit) = true then 1
      else 0) =
      ((lowerLevel s scale value +
        if word.toNat < drawThreshold s scale value then 1 else 0 : ℕ) : ℤ) := by
    rw [drawThreshold]
    simp
  rw [drawn]

theorem roundCodesFp32_eq {bitWidth count : ℕ} {values : ℕ → F32} {scale : F32}
    (ok : encodeStatus values count scale = .ok) (words : ℕ → Word) :
    roundCodesFp32 (listOf values count) scale ((List.range count).map words)
        (signedLimit bitWidth) =
      (List.range count).map fun i =>
        elementCode (signedLimit bitWidth) scale (values i) (words i) := by
  obtain ⟨-, -, finite, -⟩ := encodeStatus_ok_iff.mp ok
  have each := allFinite_iff.mp finite
  unfold roundCodesFp32 elementCode
  cases zero : scale.eq zeroF with
  | true => simp
  | false =>
      have usable := ScaleUsable.of_status ok zero
      simp only [Bool.false_eq_true, if_false, listOf, List.zipWith_map, List.zipWith_self]
      apply List.map_congr_left
      intro i member
      exact roundCode_eq usable (each i (List.mem_range.mp member)) (signedLimit_pos bitWidth)
        (signedLimit_small bitWidth) (words i)

end

/-! ## The payload -/

theorem upTo_set_getElem? {α : Type} (n : ℕ) (value : ℕ → α) (list : List α) (k : ℕ) :
    (upTo n (fun j list => list.set j (value j)) list)[k]? =
      if k < n then list[k]?.map fun _ => value k else list[k]? := by
  induction n with
  | zero => rfl
  | succ n ih =>
      rw [upTo, List.getElem?_set', ih]
      by_cases last : n = k
      · subst last
        rw [if_pos rfl, if_neg (Nat.lt_irrefl n), if_pos (Nat.lt_succ_self n)]
        rfl
      · rw [if_neg last]
        have same : k < n + 1 ↔ k < n := by omega
        rw [if_congr same rfl rfl]

theorem getD_map_range {count i : ℕ} (codes : ℕ → Byte) (below : i < count) :
    ((List.range count).map codes).getD i 0#8 = codes i := by
  rw [List.getD_eq_getElem?_getD, List.getElem?_map, List.getElem?_range below]
  rfl

theorem getLastD_map_range {count : ℕ} (codes : ℕ → Byte) (nonempty : 0 < count) :
    ((List.range count).map codes).getLastD 0#8 = codes (count - 1) := by
  have inside : count - 1 < count := Nat.sub_one_lt_of_lt nonempty
  rw [List.getLastD_eq_getLast?, List.getLast?_eq_getElem?, List.length_map, List.length_range,
    List.getElem?_map, List.getElem?_range inside]
  rfl

theorem packPayload_q4 (count : ℕ) (codes : ℕ → Byte) (k : ℕ) :
    (packPayload sqQ4Bits ((List.range count).map codes))[k]? =
      if k < (count + 1) / 2 then some (payloadByte sqQ4Bits count codes k) else none := by
  have notEight : ¬ sqQ4Bits = 8 := sqQ4Bits_ne
  unfold packPayload payloadByte
  rw [if_neg notEight, if_neg sqQ4Bits_ne]
  simp only [List.length_map, List.length_range]
  have packed := upTo_set_getElem? (count / 2) (fun j =>
    (((List.range count).map codes).getD (2 * j) 0#8 &&& 0x0F#8) |||
      (((List.range count).map codes).getD (2 * j + 1) 0#8 &&& 0x0F#8) <<< 4)
    (List.replicate ((count + 1) / 2) 0#8) k
  by_cases pair : k < count / 2
  · have inside : k < (count + 1) / 2 := by omega
    have high : 2 * k + 1 < count := by omega
    have notLast : ¬ count / 2 = k := by omega
    rw [if_pos pair, List.getElem?_replicate_of_lt inside, Option.map_some,
      getD_map_range codes (by omega), getD_map_range codes high] at packed
    rw [if_pos inside, if_pos high]
    split
    · rw [List.getElem?_set_ne notLast, packed]
    · exact packed
  rw [if_neg pair] at packed
  by_cases inside : k < (count + 1) / 2
  · have odd : count % 2 = 1 := by omega
    have last : count / 2 = k := by omega
    have index : count - 1 = 2 * k := by omega
    have noHigh : ¬ 2 * k + 1 < count := by omega
    rw [if_pos odd, if_pos inside, if_neg noHigh, last,
      getLastD_map_range codes (by omega), index]
    rw [List.getElem?_replicate_of_lt inside, last] at packed
    rw [List.getElem?_set', if_pos rfl, packed]
    simp
  · have absent : (List.replicate ((count + 1) / 2) 0#8)[k]? = none :=
      List.getElem?_eq_none (by simpa using inside)
    rw [absent] at packed
    rw [if_neg inside]
    split
    · rename_i odd
      have notLast : ¬ count / 2 = k := by omega
      rw [List.getElem?_set_ne notLast, packed]
    · exact packed

theorem packPayload_eq {bitWidth : ℕ} (supported : Supported bitWidth) (count : ℕ)
    (codes : ℕ → Byte) :
    packPayload bitWidth ((List.range count).map codes) = payloadBytes bitWidth count codes := by
  by_cases q8 : bitWidth = sqQ8Bits
  · subst q8
    rfl
  · obtain rfl := supported.eq_q4 q8
    have size : sqPayloadSize sqQ4Bits count = (count + 1) / 2 := by
      rw [sqPayloadSize, if_pos rfl]
      omega
    apply List.ext_getElem?
    intro k
    rw [packPayload_q4, payloadBytes, size, List.getElem?_map]
    by_cases inside : k < (count + 1) / 2
    · rw [if_pos inside, List.getElem?_range inside]
      rfl
    · rw [if_neg inside, List.getElem?_eq_none (by simpa using inside)]
      rfl

/-! ## The record -/

theorem wordArray_eq (words : List Word) (name : String) :
    wordArray (words.map fun word => (word.toNat : ℤ)) 32 name = .ok words := by
  have nonneg : (words.map fun word => (word.toNat : ℤ)).any (fun value => decide (value < 0)) =
      false := by
    simp
  have small : (words.map fun word => (word.toNat : ℤ)).any
      (fun value => decide (value ≥ 1 <<< 32)) = false := by
    rw [List.any_map, List.any_eq_false]
    intro word _
    have below := word.isLt
    simp
    omega
  unfold wordArray
  rw [nonneg, small, List.map_map]
  have same : (BitVec.ofInt 32 ∘ fun word : Word => (word.toNat : ℤ)) = id := by
    funext word
    simp
  rw [same, List.map_id]
  rfl

/-- The words of an array. -/
def wordsOf (words : List Word) : ℕ → Word := fun i => words.getD i 0#32

/-- The oracle draws the words of the compression. -/
theorem oracleResolveWords_eq (ids : StreamIds) {words : Option (List Word)} {count : ℕ}
    (length : ∀ list, words = some list → list.length = count) :
    (oracleResolveWords count ids.seed.toNat ids.tensorId.toNat ids.invocationId.toNat
        (words.map fun list => list.map fun word => (word.toNat : ℤ))).toOption =
      (resolveWords ids (words.map wordsOf)).toOption.map fun drawn =>
        (List.range count).map drawn := by
  cases words with
  | some list =>
      have fits := length list rfl
      unfold oracleResolveWords
      dsimp only [Option.map_some]
      rw [wordArray_eq]
      show Except.toOption (if list.length ≠ count then _ else _) = _
      rw [if_neg (not_not.mpr fits)]
      show some list = some ((List.range count).map (wordsOf list))
      congr 1
      apply List.ext_getElem
      · rw [List.length_map, List.length_range, fits]
      · intro i inside _
        simp [wordsOf, List.getD_eq_getElem?_getD, inside]
  | none =>
      unfold oracleResolveWords resolveWords
      dsimp only [Option.map_none]
      cases started : sqRngStreamInit ids.seed ids.tensorId ids.invocationId with
      | some stream =>
          rw [philoxWords_eq started]
          rfl
      | none =>
          obtain ⟨error, rejected⟩ := philoxWords_error started count
          rw [rejected]
          rfl

section

variable {ε α β : Type}

theorem toOption_eq_some {result : Except ε α} {value : α} :
    result.toOption = some value ↔ result = .ok value := by
  cases result with
  | ok found => simp [Except.toOption]
  | error failure => simp [Except.toOption]

theorem toOption_bind (call : Except ε α) (next : α → Except ε β) :
    (call >>= next).toOption = call.toOption.bind fun value => (next value).toOption := by
  cases call <;> rfl

end

section

variable [RoundedArith Format.binary32] {x : F32Array}

theorem resolveScaleFp32_ok_iff (finite : allFinite x.get x.count = true)
    (prescribedScale : Option F32) {scale : F32} :
    resolveScaleFp32 (listOf x.get x.count) (prescribedScale.map (convert Format.binary64)) =
        .ok scale ↔
      resolveScale x prescribedScale = .ok scale ∧
        encodeStatus x.get x.count scale = .ok := by
  cases prescribedScale with
  | none =>
      show scaleFp32 _ = .ok scale ↔ tensorScale x.get x.count = .ok scale ∧ _
      rw [← toOption_eq_some, scaleFp32_eq, toOption_eq_some]
      apply (and_iff_left_of_imp _).symm
      intro computed
      have sound : ScaleComputed x.get x.count (scaleOutcome (tensorScale x.get x.count)).1
          (scaleOutcome (tensorScale x.get x.count)).2 := scaleComputed_tensorScale x.fits
      rw [computed] at sound
      exact ScaleComputed.encodeStatus_eq sound
  | some prescribed =>
      unfold resolveScaleFp32 resolveScale
      dsimp only [Option.map_some]
      rw [any_listOf]
      cases bounded : isfinite prescribed with
      | false =>
          have infinite : (convert Format.binary64 prescribed).isFinite = false :=
            convert_not_finite bounded
          rw [infinite]
          constructor
          · intro impossible
            cases impossible
          · intro ⟨same, ok⟩
            obtain rfl := Except.ok.inj same
            have accepted := (encodeStatus_ok_iff.mp ok).1
            rw [bounded] at accepted
            cases accepted
      | true =>
          obtain ⟨-, widened, -⟩ := convert_widen wider_binary32_binary64 bounded
          rw [widened, convert_lt_zero wider_binary32_binary64 bounded,
            convert_convert wider_binary32_binary64 bounded, bounded]
          have accepted : encodeStatus x.get x.count prescribed = .ok ↔ _ := encodeStatus_ok_iff
          rw [bounded, finite] at accepted
          have moved : (Except.ok (ε := SqStatus) prescribed = .ok scale ∧
              encodeStatus x.get x.count scale = .ok) ↔
              (prescribed = scale ∧ encodeStatus x.get x.count prescribed = .ok) := by
            rw [Except.ok.injEq]
            apply and_congr_right
            intro same
            rw [same]
          have below : Fp.lt prescribed (Fp.zero Format.binary32) = prescribed.lt zeroF := rfl
          rw [moved, accepted, below]
          cases prescribed.lt zeroF <;> cases anyNonzero x.get x.count <;>
            cases prescribed.eq zeroF <;> simp

theorem resolveScaleFp32_eq {bitWidth : ℕ} (supported : Supported bitWidth)
    (finite : allFinite x.get x.count = true) (prescribedScale : Option F32) :
    (resolveScaleFp32 (listOf x.get x.count)
        (prescribedScale.map (convert Format.binary64))).toOption =
      (resolveScale x prescribedScale).toOption.bind fun scale =>
        if storeStatus bitWidth x scale = .ok then some scale else none := by
  apply Option.ext
  intro scale
  rw [toOption_eq_some, resolveScaleFp32_ok_iff finite, Option.bind_eq_some_iff]
  have status : ∀ s, storeStatus bitWidth x s = encodeStatus x.get x.count s :=
    fun _ => if_neg supported.ne
  simp only [status]
  constructor
  · intro ⟨resolved, ok⟩
    exact ⟨scale, toOption_eq_some.mpr resolved, by rw [if_pos ok]⟩
  · intro ⟨found, resolved, kept⟩
    split at kept
    · rename_i ok
      obtain rfl := Option.some.inj kept
      exact ⟨toOption_eq_some.mp resolved, ok⟩
    · cases kept

omit [RoundedArith Format.binary32] in
theorem tensorRecord_toOption [Arith Format.binary32] (bitWidth : ℕ) (ids : StreamIds)
    (prescribedScale : Option F32) (prescribedWords : Ptr Word) :
    (tensorRecord bitWidth x ids prescribedScale prescribedWords).toOption =
      (resolveScale x prescribedScale).toOption.bind fun scale =>
        (resolveWords ids prescribedWords).toOption.bind fun words =>
          if storeStatus bitWidth x scale = .ok then
            some ⟨scale, fun i =>
              elementCode (signedLimit bitWidth) scale (x.get i) (words i)⟩
          else none := by
  unfold tensorRecord
  cases resolveScale x prescribedScale with
  | error status => rfl
  | ok scale =>
      cases resolveWords ids prescribedWords with
      | error status => rfl
      | ok words =>
          show Except.toOption (if storeStatus bitWidth x scale = .ok then _ else _) =
            if storeStatus bitWidth x scale = .ok then _ else _
          split <;> rfl

omit [RoundedArith Format.binary32] in
theorem tensorRecord_none [Arith Format.binary32] {bitWidth : ℕ} (ids : StreamIds)
    (prescribedScale : Option F32) (prescribedWords : Ptr Word)
    (rejected : ∀ scale, storeStatus bitWidth x scale ≠ .ok) :
    (tensorRecord bitWidth x ids prescribedScale prescribedWords).toOption = none := by
  rw [tensorRecord_toOption]
  simp [rejected]

variable [RoundedArith Format.binary64]

/-- `compress_record_fp32` returns the record of the tensor. -/
theorem compressRecordFp32_eq (bitWidth : ℕ) (ids : StreamIds) (prescribedScale : Option F32)
    {words : Option (List Word)} (length : ∀ list, words = some list → list.length = x.count) :
    (compressRecordFp32 (listOf x.get x.count) bitWidth ids.seed.toNat ids.tensorId.toNat
        ids.invocationId.toNat (prescribedScale.map (convert Format.binary64))
        (words.map fun list => list.map fun word => (word.toNat : ℤ))).toOption =
      (tensorRecord bitWidth x ids prescribedScale (words.map wordsOf)).toOption.map
        (recordBytes bitWidth x.count) := by
  unfold compressRecordFp32
  simp only [toOption_bind]
  rcases signedLimitFor_eq bitWidth with ⟨supported, limit⟩ | ⟨unsupported, error, rejected⟩
  · have narrow : bitWidth < 2 ^ 8 := by
      rcases supported with rfl | rfl <;> decide
    rw [unsigned_eq narrow, valuesFp32_eq]
    show Option.bind (signedLimitFor bitWidth).toOption _ = _
    rw [limit]
    show Option.bind (Except.toOption (if allFinite x.get x.count = true then _ else _)) _ = _
    cases finite : allFinite x.get x.count with
    | false =>
        rw [tensorRecord_none]
        · rfl
        · intro scale ok
          unfold storeStatus at ok
          rw [if_neg supported.ne, encodeStatus_ok_iff, finite] at ok
          exact Bool.false_ne_true ok.2.2.1
    | true =>
        rw [if_pos rfl]
        show Option.bind (resolveScaleFp32 (listOf x.get x.count) _).toOption _ = _
        rw [resolveScaleFp32_eq supported finite, tensorRecord_toOption, Option.bind_assoc,
          Option.map_bind]
        apply congrArg
        funext scale
        rw [Function.comp_apply, Option.map_bind]
        by_cases ok : storeStatus bitWidth x scale = .ok
        · have accepted : encodeStatus x.get x.count scale = .ok := by
            unfold storeStatus at ok
            rwa [if_neg supported.ne] at ok
          have bounded := (encodeStatus_ok_iff.mp accepted).1
          rw [if_pos ok, Option.bind_some, length_listOf]
          simp only [if_pos ok]
          rw [oracleResolveWords_eq ids length, Option.bind_map]
          apply congrArg
          funext drawn
          show some _ = some _
          congr 1
          dsimp only [Function.comp_apply]
          rw [packHeader_eq supported x.count_le bounded, roundCodesFp32_eq accepted,
            packPayload_eq supported]
          rfl
        · rw [if_neg ok]
          simp [if_neg ok]
  · rw [tensorRecord_none]
    · cases checked : unsigned bitWidth 8 "bits" with
      | error failure => rfl
      | ok bits =>
          have same : bits = bitWidth := by
            unfold unsigned at checked
            split at checked
            · cases checked
            · have value := Except.ok.inj checked
              rw [← value, Int.toNat_natCast]
          rw [same]
          show Option.bind (signedLimitFor bitWidth).toOption _ = _
          rw [rejected]
          rfl
    · intro scale ok
      unfold storeStatus at ok
      split at ok
      · cases ok
      · rename_i known
        apply unsupported
        unfold Supported
        omega

theorem compressRecordFp32_ok_iff {bitWidth : ℕ} {ids : StreamIds} {prescribedScale : Option F32}
    {words : Option (List Word)} (length : ∀ list, words = some list → list.length = x.count)
    {bytes : List Byte} :
    compressRecordFp32 (listOf x.get x.count) bitWidth ids.seed.toNat ids.tensorId.toNat
        ids.invocationId.toNat (prescribedScale.map (convert Format.binary64))
        (words.map fun list => list.map fun word => (word.toNat : ℤ)) = .ok bytes ↔
      ∃ record, tensorRecord bitWidth x ids prescribedScale (words.map wordsOf) = .ok record ∧
        recordBytes bitWidth x.count record = bytes := by
  rw [← toOption_eq_some, compressRecordFp32_eq bitWidth ids prescribedScale length,
    Option.map_eq_some_iff]
  simp only [toOption_eq_some]

/-- The oracle returns a record exactly when the scalar backend succeeds, and then the same
bytes. -/
theorem compressRecordFp32_agrees (omp : OmpRuntime) {workspace : SqCpuCompressWorkspace}
    (reserved : Reserved workspace x.count) (bitWidth : ℕ) (ids : StreamIds)
    (prescribedScale : Option F32) {words : Option (List Word)}
    (length : ∀ list, words = some list → list.length = x.count) (buffer : ℕ → Byte) :
    let oracle := compressRecordFp32 (listOf x.get x.count) bitWidth ids.seed.toNat
      ids.tensorId.toNat ids.invocationId.toNat (prescribedScale.map (convert Format.binary64))
      (words.map fun list => list.map fun word => (word.toNat : ℤ))
    let scalar := sqCpuCompress omp .cpu bitWidth x.values x.count ids prescribedScale
      (words.map wordsOf) workspace (some buffer)
    ((∃ record, oracle = .ok record) ↔ scalar.1 = .ok) ∧
      ∀ record, oracle = .ok record →
        scalar.2.2.map (recordIn bitWidth x.count) = some record := by
  have stages := stagesCorrect_cpu omp x
  dsimp only
  rw [sqCpuCompress_status stages reserved]
  refine ⟨⟨?_, fun ok => ?_⟩, fun bytes returned => ?_⟩
  · rintro ⟨bytes, returned⟩
    obtain ⟨record, found, -⟩ := (compressRecordFp32_ok_iff length).mp returned
    rw [found]
    rfl
  · obtain ⟨record, found⟩ := tensorRecord_of_status ok
    exact ⟨_, (compressRecordFp32_ok_iff length).mpr ⟨record, found, rfl⟩⟩
  · obtain ⟨record, found, stored⟩ := (compressRecordFp32_ok_iff length).mp returned
    rw [← stored]
    exact sqCpuCompress_record stages reserved buffer found

end

/-- Words for thirteen elements. -/
def thirteenWords : List Word :=
  (List.range 13).map fun i => BitVec.ofNat 32 (0x9E3779B9 * (i + 1))

theorem compressRecordFp32_agrees_thirteenElements :
    letI := nearestEven Format.binary32
    letI := nearestEven Format.binary64
    let oracle := compressRecordFp32 (listOf thirteenElements.get thirteenElements.count) 4 7 0 0
      none (some (thirteenWords.map fun word => (word.toNat : ℤ)))
    let scalar := sqCpuCompress threeThreadRuntime .cpu 4 thirteenElements.values
      thirteenElements.count ⟨7#64, 0#64, 0#64⟩ none (some (wordsOf thirteenWords))
      twoBlocksWorkspace (some fun _ => 0#8)
    ((∃ record, oracle = .ok record) ↔ scalar.1 = .ok) ∧
      ∀ record, oracle = .ok record →
        scalar.2.2.map (recordIn 4 thirteenElements.count) = some record :=
  letI := nearestEven Format.binary32
  letI := nearestEven Format.binary64
  have length : ∀ list, some thirteenWords = some list →
      list.length = thirteenElements.count :=
    fun _ same => (congrArg List.length (Option.some.inj same)).symm
  compressRecordFp32_agrees threeThreadRuntime twoBlocksWorkspace_reserved_thirteen 4
    ⟨7#64, 0#64, 0#64⟩ none length (fun _ => 0#8)

end Stoquant

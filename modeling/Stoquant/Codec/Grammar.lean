import Stoquant.Record

/-!
# The record grammar

The decoder accepts exactly the byte strings of a grammar on header fields,
length, scale and codes.  A string of the grammar is determined by its bit
width, the bits of its scale and its codes.
-/

namespace Stoquant

open Ieee

/-- Byte `i` of a string, zero beyond its end. -/
def byteAt (bytes : List Byte) (i : ℕ) : Byte := bytes.getD i 0#8

theorem getElem?_eq_byteAt {bytes : List Byte} {i : ℕ} (inside : i < bytes.length) :
    bytes[i]? = some (byteAt bytes i) := by
  rw [byteAt, List.getD_eq_getElem?_getD, List.getElem?_eq_getElem inside,
    Option.getD_some]

theorem ext_byteAt {bytes bytes' : List Byte} (length : bytes.length = bytes'.length)
    (same : ∀ i < bytes.length, byteAt bytes i = byteAt bytes' i) : bytes = bytes' := by
  refine List.ext_getElem? fun i => ?_
  by_cases inside : i < bytes.length
  · rw [getElem?_eq_byteAt inside, getElem?_eq_byteAt (length ▸ inside),
      same i inside]
  · rw [List.getElem?_eq_none (by omega), List.getElem?_eq_none (by omega)]

/-- The little-endian number in `n` bytes at an offset. -/
def leAt (bytes : List Byte) (offset : ℕ) : ℕ → ℕ
  | 0 => 0
  | n + 1 => leAt bytes offset n + (byteAt bytes (offset + n)).toNat * 256 ^ n

theorem leAt_lt (bytes : List Byte) (offset n : ℕ) :
    leAt bytes offset n < 256 ^ n := by
  induction n with
  | zero => simp [leAt]
  | succ n ih =>
      have byteLt := (byteAt bytes (offset + n)).isLt
      rw [leAt, pow_succ]
      calc
        leAt bytes offset n + (byteAt bytes (offset + n)).toNat * 256 ^ n
            < 256 ^ n + (byteAt bytes (offset + n)).toNat * 256 ^ n := by omega
        _ = ((byteAt bytes (offset + n)).toNat + 1) * 256 ^ n := by ring
        _ ≤ 256 * 256 ^ n := Nat.mul_le_mul_right _ (by omega)
        _ = 256 ^ n * 256 := Nat.mul_comm _ _

/-- A little-endian number determines its bytes. -/
theorem byteAt_of_leAt {bytes bytes' : List Byte} {offset offset' n : ℕ}
    (same : leAt bytes offset n = leAt bytes' offset' n) :
    ∀ i < n, byteAt bytes (offset + i) = byteAt bytes' (offset' + i) := by
  induction n with
  | zero => intro i below; omega
  | succ n ih =>
      have lowLt := leAt_lt bytes offset n
      have lowLt' := leAt_lt bytes' offset' n
      have powPos : 0 < 256 ^ n := by positivity
      simp only [leAt] at same
      have top : (byteAt bytes (offset + n)).toNat =
          (byteAt bytes' (offset' + n)).toNat := by
        have quotient := congrArg (· / 256 ^ n) same
        simpa [Nat.add_mul_div_right _ _ powPos, Nat.div_eq_of_lt lowLt,
          Nat.div_eq_of_lt lowLt'] using quotient
      intro i below
      rcases Nat.lt_succ_iff_lt_or_eq.mp below with before | rfl
      · rw [top] at same
        exact ih (by omega) i before
      · exact BitVec.eq_of_toNat_eq top

theorem or_shift {low k : ℕ} (small : low < 2 ^ k) (high : ℕ) :
    low ||| high <<< k = low + high * 2 ^ k := by
  rw [Nat.or_comm, ← Nat.shiftLeft_add_eq_or_of_lt small, Nat.shiftLeft_eq,
    Nat.add_comm]

theorem sqLoadU32Le_eq {bytes : List Byte} {offset : ℕ}
    (inside : offset + 4 ≤ bytes.length) :
    sqLoadU32Le bytes offset = some (BitVec.ofNat 32 (leAt bytes offset 4)) := by
  unfold sqLoadU32Le
  rw [getElem?_eq_byteAt (by omega), getElem?_eq_byteAt (by omega),
    getElem?_eq_byteAt (by omega), getElem?_eq_byteAt (by omega)]
  have b0 := (byteAt bytes offset).isLt
  have b1 := (byteAt bytes (offset + 1)).isLt
  have b2 := (byteAt bytes (offset + 2)).isLt
  have b3 := (byteAt bytes (offset + 3)).isLt
  refine congrArg some (BitVec.eq_of_toNat_eq ?_)
  simp only [BitVec.toNat_or, BitVec.toNat_setWidth, BitVec.toNat_shiftLeft,
    BitVec.toNat_ofNat, leAt, Nat.add_zero]
  rw [Nat.mod_eq_of_lt (a := (byteAt bytes offset).toNat) (by omega),
    Nat.mod_eq_of_lt (a := (byteAt bytes (offset + 1)).toNat) (by omega),
    Nat.mod_eq_of_lt (a := (byteAt bytes (offset + 2)).toNat) (by omega),
    Nat.mod_eq_of_lt (a := (byteAt bytes (offset + 3)).toNat) (by omega),
    Nat.mod_eq_of_lt (a := (byteAt bytes (offset + 1)).toNat <<< 8)
      (by rw [Nat.shiftLeft_eq]; omega),
    Nat.mod_eq_of_lt (a := (byteAt bytes (offset + 2)).toNat <<< 16)
      (by rw [Nat.shiftLeft_eq]; omega),
    Nat.mod_eq_of_lt (a := (byteAt bytes (offset + 3)).toNat <<< 24)
      (by rw [Nat.shiftLeft_eq]; omega),
    or_shift (k := 8) (by omega), or_shift (k := 16) (by omega),
    or_shift (k := 24) (by omega)]
  omega

theorem sqLoadU64Le_eq {bytes : List Byte} {offset : ℕ}
    (inside : offset + 8 ≤ bytes.length) :
    sqLoadU64Le bytes offset = some (BitVec.ofNat 64 (leAt bytes offset 8)) := by
  unfold sqLoadU64Le
  rw [sqLoadU32Le_eq (by omega), sqLoadU32Le_eq (by omega)]
  have low := leAt_lt bytes offset 4
  have high := leAt_lt bytes (offset + 4) 4
  have whole : leAt bytes offset 8 =
      leAt bytes offset 4 + leAt bytes (offset + 4) 4 * 2 ^ 32 := by
    simp only [leAt, Nat.add_assoc, Nat.reduceAdd]
    omega
  refine congrArg some (BitVec.eq_of_toNat_eq ?_)
  simp only [BitVec.toNat_or, BitVec.toNat_setWidth, BitVec.toNat_shiftLeft,
    BitVec.toNat_ofNat]
  rw [Nat.mod_eq_of_lt (a := leAt bytes offset 4) (by omega),
    Nat.mod_eq_of_lt (a := leAt bytes (offset + 4) 4) (by omega),
    Nat.mod_eq_of_lt (a := leAt bytes offset 4) (by omega),
    Nat.mod_eq_of_lt (a := leAt bytes (offset + 4) 4) (by omega),
    Nat.mod_eq_of_lt (a := leAt bytes (offset + 4) 4 <<< 32)
      (by rw [Nat.shiftLeft_eq]; omega),
    or_shift (by omega), whole]
  omega

/-- The bit width a record claims. -/
def recordBits (bytes : List Byte) : ℕ := (byteAt bytes 5).toNat

/-- The element count a record claims. -/
def recordCount (bytes : List Byte) : ℕ := leAt bytes 8 8

/-- The bits of the scale of a record. -/
def recordScaleBits (bytes : List Byte) : Word := BitVec.ofNat 32 (leAt bytes 16 4)

/-- The scale of a record. -/
def recordScale (bytes : List Byte) : F32 := ofF32Bits (recordScaleBits bytes)

/-- The code of element `i` of a record. -/
def recordCode (bytes : List Byte) (i : ℕ) : Byte :=
  if recordBits bytes = sqQ4Bits then
    if i % 2 = 0 then byteAt bytes (sqHeaderSize + i / 2) &&& 0x0F#8
    else byteAt bytes (sqHeaderSize + i / 2) >>> 4
  else byteAt bytes (sqHeaderSize + i)

/-- Codes that may stand under a scale. -/
def CodesValid (limit : ℕ) (scale : F32) (codes : ℕ → Byte) (count : ℕ) : Prop :=
  ∀ i < count, (codes i).toNat ≤ 2 * limit ∧
    (scale.eq zeroF = true → (codes i).toNat = limit)

/-- The strings that are records. -/
structure RecordGrammar (bytes : List Byte) : Prop where
  header : sqHeaderSize ≤ bytes.length
  magic : ∀ i < 4, byteAt bytes i = byteAt sqMagic i
  version : byteAt bytes 4 = 1#8
  bitWidth : Supported (recordBits bytes)
  reserved : byteAt bytes 6 = 0#8 ∧ byteAt bytes 7 = 0#8
  length : bytes.length = sqHeaderSize +
    if recordBits bytes = sqQ4Bits then (recordCount bytes + 1) / 2
    else recordCount bytes
  finite : isfinite (recordScale bytes) = true
  notBelow : (recordScale bytes).lt zeroF = false
  empty : recordCount bytes = 0 → (recordScale bytes).eq zeroF = true
  padding : recordBits bytes = sqQ4Bits → recordCount bytes % 2 = 1 →
    byteAt bytes (sqHeaderSize + recordCount bytes / 2) >>> 4 = 0#8
  codes : CodesValid (signedLimit (recordBits bytes)) (recordScale bytes)
    (recordCode bytes) (recordCount bytes)

theorem recordBits_lt (bytes : List Byte) : recordBits bytes < 2 ^ 8 :=
  (byteAt bytes 5).isLt

theorem recordCount_lt (bytes : List Byte) : recordCount bytes < 2 ^ 64 :=
  leAt_lt bytes 8 8

theorem exists_count {bytes : List Byte} (long : 20 ≤ bytes.length) :
    ∃ count64, sqLoadU64Le bytes 8 = some count64 ∧
      count64.toNat = recordCount bytes := by
  refine ⟨_, sqLoadU64Le_eq (by omega), ?_⟩
  rw [BitVec.toNat_ofNat, ← recordCount, Nat.mod_eq_of_lt (recordCount_lt bytes)]

theorem exists_scale {bytes : List Byte} (long : 20 ≤ bytes.length) :
    ∃ scaleBits, sqLoadU32Le bytes 16 = some scaleBits ∧
      ofF32Bits scaleBits = recordScale bytes :=
  ⟨recordScaleBits bytes, sqLoadU32Le_eq (by omega), rfl⟩

theorem sqPayloadSize_eq (bitWidth count : ℕ) :
    sqPayloadSize bitWidth count =
      if bitWidth = sqQ4Bits then (count + 1) / 2 else count := by
  unfold sqPayloadSize
  split <;> omega

theorem codeAt_eq {bytes : List Byte} (supported : Supported (recordBits bytes))
    (length : bytes.length = sqHeaderSize +
      if recordBits bytes = sqQ4Bits then (recordCount bytes + 1) / 2
      else recordCount bytes) {i : ℕ} (below : i < recordCount bytes) :
    (if recordBits bytes = sqQ8Bits then codeAtQ8 bytes i else codeAtQ4 bytes i) =
      some (recordCode bytes i) := by
  unfold recordCode codeAtQ8 codeAtQ4
  by_cases q8 : recordBits bytes = sqQ8Bits
  · rw [q8, if_neg sqQ4Bits_ne.symm] at length
    rw [q8, if_pos rfl, if_neg sqQ4Bits_ne.symm, getElem?_eq_byteAt (by omega)]
  · have q4 := supported.eq_q4 q8
    rw [q4, if_pos rfl] at length
    rw [q4, if_neg sqQ4Bits_ne, if_pos rfl, getElem?_eq_byteAt (by omega)]
    have nibble : ∀ b : Byte, (b >>> 4) &&& 0x0F#8 = b >>> 4 := by decide
    simp only [Option.bind_eq_bind, Option.bind_some, nibble]
    rfl

section

variable [Arith Format.binary32] {limit : ℕ} {scale : F32}
  {codeAt : ℕ → Option Byte} {codes : ℕ → Byte} {n : ℕ}

variable (limit scale) in
theorem decodeCodes_spec (found : ∀ i < n, codeAt i = some (codes i)) :
    (CodesValid limit scale codes n ∧
      decodeCodes limit scale codeAt n =
        some (.ok ((List.range n).map fun i => decodeCode limit scale (codes i)))) ∨
    (¬ CodesValid limit scale codes n ∧ ∃ status ≠ SqStatus.ok,
      decodeCodes limit scale codeAt n = some (.error status)) := by
  induction n with
  | zero => exact .inl ⟨fun i below => by omega, rfl⟩
  | succ n ih =>
      have last := found n (Nat.lt_succ_self n)
      have restrict : CodesValid limit scale codes (n + 1) →
          CodesValid limit scale codes n :=
        fun valid i below => valid i (Nat.lt_succ_of_lt below)
      unfold decodeCodes
      rcases ih fun i below => found i (Nat.lt_succ_of_lt below) with
        ⟨valid, decoded⟩ | ⟨invalid, status, notOk, stopped⟩
      · rw [decoded, last]
        simp only [Option.bind_eq_bind, Option.bind_some]
        by_cases above : (codes n).toNat > 2 * limit
        · refine .inr ⟨fun valid' => ?_, .errCode, by simp, by rw [if_pos above]; rfl⟩
          have := (valid' n (Nat.lt_succ_self n)).1
          omega
        · rw [if_neg above]
          by_cases off : (scale.eq zeroF && decide ((codes n).toNat ≠ limit)) = true
          · rw [if_pos off]
            simp only [Bool.and_eq_true, decide_eq_true_eq] at off
            exact .inr ⟨fun valid' => off.2 ((valid' n (Nat.lt_succ_self n)).2 off.1),
              .errZeroScaleCode, by simp, rfl⟩
          · rw [if_neg off, List.range_succ, List.map_append]
            refine .inl ⟨fun i below => ?_, rfl⟩
            rcases Nat.lt_succ_iff_lt_or_eq.mp below with before | rfl
            · exact valid i before
            · refine ⟨by omega, fun zero => ?_⟩
              simpa [zero] using off
      · rw [stopped]
        exact .inr ⟨fun valid => invalid (restrict valid), status, notOk, rfl⟩

end

theorem byteAt_sqMagic_iff {bytes : List Byte} :
    [byteAt bytes 0, byteAt bytes 1, byteAt bytes 2, byteAt bytes 3] = sqMagic ↔
      ∀ i < 4, byteAt bytes i = byteAt sqMagic i := by
  constructor
  · intro same i below
    rw [← same]
    interval_cases i <;> rfl
  · intro same
    rw [same 0 (by norm_num), same 1 (by norm_num), same 2 (by norm_num),
      same 3 (by norm_num)]
    rfl

/-- The scale the decoder computes with: a zero loses its sign. -/
def canonicalScale (scale : F32) : F32 := if scale.eq zeroF then zeroF else scale

theorem canonicalScale_eq_zeroF (scale : F32) :
    (canonicalScale scale).eq zeroF = scale.eq zeroF := by
  unfold canonicalScale
  split
  · rename_i zero
    rw [zero]
    decide
  · rfl

/-- The values of a record. -/
def recordValues [Arith Format.binary32] (bytes : List Byte) : List F32 :=
  (List.range (recordCount bytes)).map fun i =>
    decodeCode (signedLimit (recordBits bytes)) (canonicalScale (recordScale bytes))
      (recordCode bytes i)

/-- A rejection: a status other than `SQ_OK`, no values and a zero count. -/
def Rejected (result : Option (SqStatus × Option DecodeOut)) : Prop :=
  ∃ status ≠ SqStatus.ok, result = some (status, some ⟨none, 0⟩)

section

variable [Arith Format.binary32] {bytes : List Byte}

/-- What the decoder returns on a record. -/
def decodedRecord (bytes : List Byte) : SqStatus × Option DecodeOut :=
  (.ok, some ⟨if recordCount bytes = 0 then none else some (recordValues bytes),
    recordCount bytes⟩)

theorem decodePayload_spec (supported : Supported (recordBits bytes))
    (length : bytes.length = sqHeaderSize +
      if recordBits bytes = sqQ4Bits then (recordCount bytes + 1) / 2
      else recordCount bytes) (scale : F32) :
    let limit := signedLimit (recordBits bytes)
    let accepted := (recordBits bytes = sqQ4Bits → recordCount bytes % 2 = 1 →
        byteAt bytes (sqHeaderSize + recordCount bytes / 2) >>> 4 = 0#8) ∧
      CodesValid limit scale (recordCode bytes) (recordCount bytes)
    (accepted ∧
      decodePayload (recordBits bytes) (recordCount bytes) scale bytes =
        some (.ok ((List.range (recordCount bytes)).map fun i =>
          decodeCode limit scale (recordCode bytes i)))) ∨
    (¬ accepted ∧ ∃ status ≠ SqStatus.ok,
      decodePayload (recordBits bytes) (recordCount bytes) scale bytes =
        some (.error status)) := by
  have found := fun i => codeAt_eq supported length (i := i)
  have limitQ4 : signedLimit sqQ4Bits = sqQ4SignedLimit := rfl
  unfold decodePayload
  dsimp only
  by_cases q8 : recordBits bytes = sqQ8Bits
  · simp only [q8, if_true, sqQ4Bits_ne.symm, false_imp_iff, true_and] at found ⊢
    exact decodeCodes_spec _ scale found
  · have q4 := supported.eq_q4 q8
    rw [q4, if_pos rfl] at length
    simp only [q4, sqQ4Bits_ne, if_false, limitQ4] at found ⊢
    have decoded := decodeCodes_spec sqQ4SignedLimit scale found
    by_cases odd : recordCount bytes % 2 = 1
    · rw [if_pos odd, getElem?_eq_byteAt (by omega)]
      simp only [Option.bind_eq_bind, Option.bind_some, odd, true_imp_iff]
      by_cases zero :
          byteAt bytes (sqHeaderSize + recordCount bytes / 2) >>> 4 = 0#8
      · rw [if_neg (not_not.mpr zero)]
        simpa [zero] using decoded
      · rw [if_pos zero]
        exact .inr ⟨fun accepted => zero accepted.1, _, by simp, rfl⟩
    · rw [if_neg odd]
      simpa [odd] using decoded

/-- The decoder returns the values of a record whose count fits in memory, and
rejects every string that is not a record. -/
theorem sqDecodeRecord_spec_of_count
    (bounded : RecordGrammar bytes → recordCount bytes ≤ sizeMax / 4) (out : DecodeOut) :
    (RecordGrammar bytes ∧
      sqDecodeRecord (fun _ => true) (some bytes) bytes.length (some out) =
        some (decodedRecord bytes)) ∨
    (¬ RecordGrammar bytes ∧
      Rejected
        (sqDecodeRecord (fun _ => true) (some bytes) bytes.length (some out))) := by
  unfold sqDecodeRecord
  dsimp only
  by_cases header : bytes.length < sqHeaderSize
  · rw [if_pos header]
    exact .inr ⟨fun grammar => by have := grammar.header; omega, _, by simp, rfl⟩
  have long : 20 ≤ bytes.length := Nat.not_lt.mp header
  rw [if_neg header, getElem?_eq_byteAt (by omega), getElem?_eq_byteAt (by omega),
    getElem?_eq_byteAt (by omega), getElem?_eq_byteAt (by omega),
    getElem?_eq_byteAt (by omega), getElem?_eq_byteAt (by omega),
    getElem?_eq_byteAt (by omega), getElem?_eq_byteAt (by omega)]
  obtain ⟨count64, countLoaded, count⟩ := exists_count long
  obtain ⟨scaleBits, scaleLoaded, scale⟩ := exists_scale long
  rw [countLoaded, scaleLoaded]
  simp only [Option.bind_eq_bind, Option.bind_some, count, scale]
  rw [← recordBits]
  have reject : ∀ status ≠ SqStatus.ok, Rejected (some (status, some ⟨none, 0⟩)) :=
    fun status notOk => ⟨status, notOk, rfl⟩
  by_cases magic : [byteAt bytes 0, byteAt bytes 1, byteAt bytes 2, byteAt bytes 3] =
      sqMagic
  swap
  · rw [if_pos magic]
    exact .inr ⟨fun grammar => magic (byteAt_sqMagic_iff.mpr grammar.magic),
      reject _ (by simp)⟩
  rw [if_neg (not_not.mpr magic)]
  by_cases version : byteAt bytes 4 = 1#8
  swap
  · rw [if_pos version]
    exact .inr ⟨fun grammar => version grammar.version, reject _ (by simp)⟩
  rw [if_neg (not_not.mpr version)]
  by_cases unsupported : recordBits bytes ≠ sqQ4Bits ∧ recordBits bytes ≠ sqQ8Bits
  · rw [if_pos unsupported]
    exact .inr ⟨fun grammar => grammar.bitWidth.ne unsupported, reject _ (by simp)⟩
  have supported : Supported (recordBits bytes) := by
    unfold Supported
    omega
  rw [if_neg unsupported]
  by_cases reserved : byteAt bytes 6 ≠ 0#8 ∨ byteAt bytes 7 ≠ 0#8
  · rw [if_pos reserved]
    exact .inr ⟨fun grammar => reserved.elim (· grammar.reserved.1)
      (· grammar.reserved.2), reject _ (by simp)⟩
  rw [if_neg reserved]
  by_cases huge : recordCount bytes > sizeMax - sqHeaderSize ∨
      recordCount bytes > sizeMax / 4
  · rw [if_pos huge]
    refine .inr ⟨fun grammar => ?_, reject _ (by simp)⟩
    have small := bounded grammar
    unfold sizeMax sqHeaderSize at huge
    unfold sizeMax at small
    omega
  rw [if_neg huge]
  by_cases length : bytes.length = sqHeaderSize +
      if recordBits bytes = sqQ4Bits then (recordCount bytes + 1) / 2
      else recordCount bytes
  swap
  · rw [if_pos length]
    exact .inr ⟨fun grammar => length grammar.length, reject _ (by simp)⟩
  rw [if_neg (not_not.mpr length)]
  by_cases badScale : (!isfinite (recordScale bytes) || (recordScale bytes).lt zeroF ||
      (decide (recordCount bytes = 0) && !(recordScale bytes).eq zeroF)) = true
  · rw [if_pos badScale]
    refine .inr ⟨fun grammar => ?_, reject _ (by simp)⟩
    have empty := grammar.empty
    simp only [grammar.finite, grammar.notBelow, Bool.not_true, Bool.false_or,
      Bool.and_eq_true, decide_eq_true_eq, Bool.not_eq_true'] at badScale
    rw [empty badScale.1] at badScale
    exact absurd badScale.2 (by simp)
  rw [if_neg badScale, if_neg (by simp), ← canonicalScale]
  simp only [Bool.or_eq_true, Bool.not_eq_true', Bool.and_eq_true, decide_eq_true_eq,
    not_or, not_and, Bool.not_eq_false, Bool.not_eq_true, not_not, ne_eq]
    at badScale reserved
  have codesIff : CodesValid (signedLimit (recordBits bytes))
      (canonicalScale (recordScale bytes)) (recordCode bytes) (recordCount bytes) ↔
      CodesValid (signedLimit (recordBits bytes)) (recordScale bytes)
        (recordCode bytes) (recordCount bytes) := by
    unfold CodesValid
    rw [canonicalScale_eq_zeroF]
  rcases decodePayload_spec supported length (canonicalScale (recordScale bytes)) with
    ⟨⟨padding, codes⟩, decoded⟩ | ⟨invalid, status, notOk, stopped⟩
  · rw [decoded, Option.bind_some, decodedRecord, recordValues]
    refine .inl ⟨⟨long, byteAt_sqMagic_iff.mp magic, version, supported,
      reserved, length, badScale.1.1, badScale.1.2, badScale.2, padding,
      codesIff.mp codes⟩, ?_⟩
    simp only [decodeResult, pure]
  · rw [stopped]
    exact .inr ⟨fun grammar => invalid ⟨grammar.padding, codesIff.mpr grammar.codes⟩,
      reject status notOk⟩

/-- The decoder returns the values of a record and rejects any other string. -/
theorem sqDecodeRecord_spec (short : bytes.length < 2 ^ 60) (out : DecodeOut) :
    (RecordGrammar bytes ∧
      sqDecodeRecord (fun _ => true) (some bytes) bytes.length (some out) =
        some (decodedRecord bytes)) ∨
    (¬ RecordGrammar bytes ∧
      Rejected
        (sqDecodeRecord (fun _ => true) (some bytes) bytes.length (some out))) := by
  apply sqDecodeRecord_spec_of_count
  intro grammar
  -- a larger count claims a payload longer than the string
  have length := grammar.length
  unfold sizeMax sqHeaderSize at *
  split at length
  · omega
  · omega

end

end Stoquant

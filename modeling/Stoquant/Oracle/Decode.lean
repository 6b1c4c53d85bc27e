import Stoquant.Codec.Stored
import Stoquant.Design

/-!
# The oracle's decoder

`decode_record` of `oracle.py` accepts the same byte strings as the decoder of
`codec.c` and returns the same values, although it checks and unpacks in its own
order.
-/

namespace Stoquant

open Ieee

/-- What `HEADER_STRUCT.unpack_from` returns. -/
structure UnpackedHeader where
  magic : List Byte
  version : ℕ
  bits : ℕ
  reserved : ℕ
  count : ℕ
  scale : F32

/-- `HEADER_STRUCT.unpack_from`, of the layout `<4sBBHQf`. -/
def unpackHeader (data : List Byte) : UnpackedHeader where
  magic := data.take 4
  version := leAt data 4 1
  bits := leAt data 5 1
  reserved := leAt data 6 2
  count := leAt data 8 8
  scale := ofF32Bits (BitVec.ofNat 32 (leAt data 16 4))

/-- `SIGNED_LIMITS`. -/
def signedLimits : List (ℕ × ℕ) := [(4, 7), (8, 127)]

/-- `signed_limit_for`. -/
def signedLimitFor (bits : ℕ) : Except PyError ℕ :=
  match signedLimits.lookup bits with
  | some limit => .ok limit
  | none => .error (.valueError "unsupported bit width; supported widths are 4 and 8")

/-- The nibbles of payload bytes, low before high. -/
def unpackNibbles (payloadBytes : List Byte) : List Byte :=
  payloadBytes.flatMap fun byteVal => [byteVal &&& 0x0F#8, (byteVal >>> 4) &&& 0x0F#8]

/-- The codes of a payload, after the padding of an odd 4-bit one. -/
def unpackCodes (bits count : ℕ) (payload : List Byte) : Except PyError (List Byte) :=
  if bits = 8 then .ok (payload.take count)
  else if count % 2 = 1 ∧ (payload.getLastD 0#8) >>> 4 ≠ 0#8 then
    .error (.valueError "unused padding nibble must be zero")
  else .ok ((unpackNibbles payload).take count)

/-- The values of codes under a scale. -/
def decodeValues [Arith Format.binary32] (signedLimit : ℕ) (scale : F32) (codes : List Byte) :
    Except PyError (List F32) :=
  if codes.any fun code => decide (code.toNat > 2 * signedLimit) then
    .error (.valueError "record contains an invalid code")
  else if scale.eq zeroF then
    if codes.any fun code => decide (code.toNat ≠ signedLimit) then
      .error (.valueError "zero-scale records must contain only the center code")
    else .ok (List.replicate codes.length zeroF)
  else
    .ok (codes.map fun code =>
      let signed : ℤ := (code.toNat : ℤ) - signedLimit
      let fraction := ofInt Format.binary32 signed / ofInt Format.binary32 signedLimit
      fraction * scale)

/-- `decode_record`. -/
def decodeRecord [Arith Format.binary32] (record : List Byte) : Except PyError (List F32) :=
  if record.length < 20 then
    .error (.valueError "record is shorter than the 20-byte header")
  else
    let header := unpackHeader record
    if header.magic ≠ [0x4D#8, 0x53#8, 0x51#8, 0x31#8] then
      .error (.valueError "bad record magic")
    else if header.version ≠ 1 then .error (.valueError "unsupported record version")
    else
      match signedLimitFor header.bits with
      | .error failure => .error failure
      | .ok signedLimit =>
          let expectedPayloadLength :=
            if header.bits = 4 then (header.count + 1) / 2 else header.count
          if header.reserved ≠ 0 then
            .error (.valueError "reserved header bytes must be zero")
          else if record.length - 20 ≠ expectedPayloadLength then
            .error (.valueError "payload length does not match element count")
          else if !isfinite header.scale || header.scale.lt zeroF then
            .error (.valueError "scale must be finite and non-negative")
          else if header.count = 0 ∧ header.scale.eq zeroF = false then
            .error (.valueError "empty records require zero scale")
          else
            match unpackCodes header.bits header.count (record.drop 20) with
            | .error failure => .error failure
            | .ok codes => decodeValues signedLimit header.scale codes

theorem unpackNibbles_getElem? (payload : List Byte) (i : ℕ) :
    (unpackNibbles payload)[i]? = payload[i / 2]?.map fun byteVal =>
      if i % 2 = 0 then byteVal &&& 0x0F#8 else (byteVal >>> 4) &&& 0x0F#8 := by
  induction payload generalizing i with
  | nil => simp [unpackNibbles]
  | cons byteVal rest induction =>
      have unfolded : unpackNibbles (byteVal :: rest) =
          (byteVal &&& 0x0F#8) :: ((byteVal >>> 4) &&& 0x0F#8) :: unpackNibbles rest := rfl
      rw [unfolded]
      match i with
      | 0 => rfl
      | 1 => rfl
      | i + 2 =>
          have half : (i + 2) / 2 = i / 2 + 1 := by omega
          have parity : (i + 2) % 2 = i % 2 := by omega
          rw [List.getElem?_cons_succ, List.getElem?_cons_succ, induction, half, parity,
            List.getElem?_cons_succ]

theorem getElem?_payload {bytes : List Byte} {k : ℕ} (inside : 20 + k < bytes.length) :
    (bytes.drop 20)[k]? = some (byteAt bytes (20 + k)) := by
  rw [List.getElem?_drop, getElem?_eq_byteAt inside]

/-- The length of a record of the right length. -/
def RightLength (bytes : List Byte) : Prop :=
  bytes.length = sqHeaderSize +
    if recordBits bytes = sqQ4Bits then (recordCount bytes + 1) / 2 else recordCount bytes

/-- The padding of an odd 4-bit payload. -/
def PaddingZero (bytes : List Byte) : Prop :=
  recordBits bytes = sqQ4Bits → recordCount bytes % 2 = 1 →
    byteAt bytes (sqHeaderSize + recordCount bytes / 2) >>> 4 = 0#8

theorem recordCode_q8 {bytes : List Byte} (q8 : recordBits bytes = sqQ8Bits) (i : ℕ) :
    recordCode bytes i = byteAt bytes (20 + i) := by
  rw [recordCode, q8, if_neg sqQ4Bits_ne.symm]
  rfl

theorem recordCode_q4 {bytes : List Byte} (q4 : recordBits bytes = sqQ4Bits) (i : ℕ) :
    recordCode bytes i = if i % 2 = 0 then byteAt bytes (20 + i / 2) &&& 0x0F#8
      else (byteAt bytes (20 + i / 2) >>> 4) &&& 0x0F#8 := by
  have nibble : ∀ b : Byte, (b >>> 4) &&& 0x0F#8 = b >>> 4 := by decide
  rw [recordCode, q4, if_pos rfl, nibble]
  rfl

theorem take_eq_recordCodes {bytes : List Byte} (q8 : recordBits bytes = sqQ8Bits)
    (length : bytes.length = 20 + recordCount bytes) :
    (bytes.drop 20).take (recordCount bytes) =
      (List.range (recordCount bytes)).map (recordCode bytes) := by
  apply List.ext_getElem?
  intro i
  by_cases below : i < recordCount bytes
  · rw [List.getElem?_take_of_lt below, getElem?_payload (by omega), List.getElem?_map,
      List.getElem?_range below, Option.map_some, recordCode_q8 q8]
  · rw [List.getElem?_eq_none (by simp; omega), List.getElem?_eq_none (by simp; omega)]

theorem take_unpackNibbles_eq_recordCodes {bytes : List Byte} (q4 : recordBits bytes = sqQ4Bits)
    (length : bytes.length = 20 + (recordCount bytes + 1) / 2) :
    (unpackNibbles (bytes.drop 20)).take (recordCount bytes) =
      (List.range (recordCount bytes)).map (recordCode bytes) := by
  apply List.ext_getElem?
  intro i
  by_cases below : i < recordCount bytes
  · rw [List.getElem?_take_of_lt below, unpackNibbles_getElem?, getElem?_payload (by omega),
      List.getElem?_map, List.getElem?_range below, Option.map_some, Option.map_some,
      recordCode_q4 q4]
  · have nibbles : ((unpackNibbles (bytes.drop 20)).take (recordCount bytes)).length ≤ i := by
      rw [List.length_take]
      omega
    rw [List.getElem?_eq_none nibbles, List.getElem?_eq_none (by simp; omega)]

theorem unpackCodes_eq {bytes : List Byte} (supported : Supported (recordBits bytes))
    (length : RightLength bytes) :
    (PaddingZero bytes ∧ unpackCodes (recordBits bytes) (recordCount bytes) (bytes.drop 20) =
      .ok ((List.range (recordCount bytes)).map (recordCode bytes))) ∨
    (¬ PaddingZero bytes ∧ ∃ failure,
      unpackCodes (recordBits bytes) (recordCount bytes) (bytes.drop 20) = .error failure) := by
  unfold RightLength sqHeaderSize at length
  unfold PaddingZero sqHeaderSize
  by_cases q8 : recordBits bytes = sqQ8Bits
  · have notQ4 : recordBits bytes ≠ sqQ4Bits := by
      rw [q8]
      exact sqQ4Bits_ne.symm
    rw [if_neg notQ4] at length
    refine Or.inl ⟨fun q4 => absurd q4 notQ4, ?_⟩
    have eight : recordBits bytes = 8 := q8
    rw [unpackCodes, if_pos eight, take_eq_recordCodes q8 length]
  · have q4 := supported.eq_q4 q8
    rw [if_pos q4] at length
    have notEight : recordBits bytes ≠ 8 := q8
    rw [unpackCodes, if_neg notEight]
    by_cases odd : recordCount bytes % 2 = 1
    · have last : (bytes.drop 20).getLastD 0#8 = byteAt bytes (20 + recordCount bytes / 2) := by
        have index : (bytes.drop 20).length - 1 = recordCount bytes / 2 := by
          rw [List.length_drop]
          omega
        rw [List.getLastD_eq_getLast?, List.getLast?_eq_getElem?, index,
          getElem?_payload (by omega), Option.getD_some]
      rw [last]
      by_cases padding : byteAt bytes (20 + recordCount bytes / 2) >>> 4 = 0#8
      · rw [if_neg (by simp [padding]), take_unpackNibbles_eq_recordCodes q4 length]
        exact Or.inl ⟨fun _ _ => padding, rfl⟩
      · rw [if_pos ⟨odd, padding⟩]
        exact Or.inr ⟨fun zero => padding (zero q4 odd), _, rfl⟩
    · rw [if_neg fun bad => odd bad.1, take_unpackNibbles_eq_recordCodes q4 length]
      exact Or.inl ⟨fun _ isOdd => absurd isOdd odd, rfl⟩

section

variable [RoundedArith Format.binary32]

/-- Valid codes are decoded as in `codec.c`, other codes are rejected. -/
theorem decodeValues_eq {limit count : ℕ} (positive : 0 < limit) (small : limit < 2 ^ 24)
    (scale : F32) (codes : ℕ → Byte) :
    (CodesValid limit scale codes count ∧
      decodeValues limit scale ((List.range count).map codes) =
        .ok ((List.range count).map fun i =>
          decodeCode limit (canonicalScale scale) (codes i))) ∨
    (¬ CodesValid limit scale codes count ∧ ∃ failure,
      decodeValues limit scale ((List.range count).map codes) = .error failure) := by
  have anyCode : ∀ bad : Byte → Bool, (((List.range count).map codes).any bad = true ↔
      ∃ i < count, bad (codes i) = true) := by
    intro bad
    simp
  unfold decodeValues
  by_cases large : ((List.range count).map codes).any
      (fun code => decide (code.toNat > 2 * limit)) = true
  · rw [if_pos large]
    obtain ⟨i, below, above⟩ := (anyCode _).mp large
    refine Or.inr ⟨fun valid => ?_, _, rfl⟩
    have inRange := (valid i below).1
    simp only [decide_eq_true_eq] at above
    omega
  rw [if_neg large]
  have inRange : ∀ i < count, (codes i).toNat ≤ 2 * limit := by
    intro i below
    by_contra above
    exact large ((anyCode _).mpr ⟨i, below, by simpa using above⟩)
  by_cases zero : scale.eq zeroF = true
  · rw [if_pos zero]
    by_cases off : ((List.range count).map codes).any
        (fun code => decide (code.toNat ≠ limit)) = true
    · rw [if_pos off]
      obtain ⟨i, below, different⟩ := (anyCode _).mp off
      refine Or.inr ⟨fun valid => ?_, _, rfl⟩
      exact absurd ((valid i below).2 zero) (by simpa using different)
    · rw [if_neg off]
      have centre : ∀ i < count, (codes i).toNat = limit := by
        intro i below
        by_contra different
        exact off ((anyCode _).mpr ⟨i, below, by simpa using different⟩)
      refine Or.inl ⟨fun i below => ⟨inRange i below, fun _ => centre i below⟩, ?_⟩
      congr 1
      apply List.ext_getElem
      · simp
      · intro i inZeros inValues
        have below : i < count := by simpa using inZeros
        rw [List.getElem_replicate, List.getElem_map, List.getElem_range, canonicalScale,
          if_pos zero]
        exact (decodeCode_centre positive small (centre i below)).symm
  · rw [if_neg zero]
    refine Or.inl ⟨fun i below => ⟨inRange i below, fun isZero => absurd isZero zero⟩, ?_⟩
    rw [List.map_map, canonicalScale, if_neg zero]
    rfl

omit [RoundedArith Format.binary32] in
theorem signedLimitFor_eq (bits : ℕ) :
    (Supported bits ∧ signedLimitFor bits = .ok (signedLimit bits)) ∨
      (¬ Supported bits ∧ ∃ failure, signedLimitFor bits = .error failure) := by
  by_cases q4 : bits = 4
  · subst q4
    exact Or.inl ⟨Or.inl rfl, rfl⟩
  · by_cases q8 : bits = 8
    · subst q8
      exact Or.inl ⟨Or.inr rfl, rfl⟩
    · have missing : signedLimits.lookup bits = none := by
        have four : (bits == 4) = false := by simpa using q4
        have eight : (bits == 8) = false := by simpa using q8
        simp [signedLimits, List.lookup_cons, four, eight]
      refine Or.inr ⟨fun supported => supported.elim q4 q8,
        .valueError "unsupported bit width; supported widths are 4 and 8", ?_⟩
      rw [signedLimitFor, missing]

omit [RoundedArith Format.binary32] in
theorem take_magic_iff {bytes : List Byte} (long : 20 ≤ bytes.length) :
    bytes.take 4 = [0x4D#8, 0x53#8, 0x51#8, 0x31#8] ↔
      ∀ i < 4, byteAt bytes i = byteAt sqMagic i := by
  have taken : bytes.take 4 =
      [byteAt bytes 0, byteAt bytes 1, byteAt bytes 2, byteAt bytes 3] := by
    apply List.ext_getElem?
    intro i
    by_cases below : i < 4
    · rw [List.getElem?_take_of_lt below, getElem?_eq_byteAt (by omega)]
      interval_cases i <;> rfl
    · rw [List.getElem?_eq_none (by simp; omega), List.getElem?_eq_none (by simp; omega)]
  rw [taken]
  exact byteAt_sqMagic_iff

omit [RoundedArith Format.binary32] in
theorem leAt_one (bytes : List Byte) (offset : ℕ) :
    leAt bytes offset 1 = (byteAt bytes offset).toNat := by
  simp [leAt]

omit [RoundedArith Format.binary32] in
theorem leAt_two_eq_zero_iff (bytes : List Byte) (offset : ℕ) :
    leAt bytes offset 2 = 0 ↔ byteAt bytes offset = 0#8 ∧ byteAt bytes (offset + 1) = 0#8 := by
  have zero : (0#8).toNat = 0 := rfl
  simp only [leAt, Nat.add_zero, pow_zero, pow_one, Nat.zero_add, Nat.mul_one]
  rw [← BitVec.toNat_inj, ← BitVec.toNat_inj, zero]
  omega

/-- The oracle's decoder returns the values of a record and raises on every string
that is not one. -/
theorem decodeRecord_spec (bytes : List Byte) :
    (RecordGrammar bytes ∧ decodeRecord bytes = .ok (recordValues bytes)) ∨
      (¬ RecordGrammar bytes ∧ ∃ failure, decodeRecord bytes = .error failure) := by
  unfold decodeRecord
  by_cases header : bytes.length < 20
  · rw [if_pos header]
    exact Or.inr ⟨fun grammar => absurd grammar.header (Nat.not_le.mpr header), _, rfl⟩
  have long : 20 ≤ bytes.length := Nat.not_lt.mp header
  rw [if_neg header]
  dsimp only [unpackHeader]
  rw [leAt_one, leAt_one, ← recordBits, ← recordCount, ← recordScaleBits, ← recordScale]
  by_cases magic : bytes.take 4 = [0x4D#8, 0x53#8, 0x51#8, 0x31#8]
  swap
  · rw [if_pos magic]
    exact Or.inr ⟨fun grammar => magic ((take_magic_iff long).mpr grammar.magic), _, rfl⟩
  rw [if_neg (not_not.mpr magic)]
  by_cases version : (byteAt bytes 4).toNat = 1
  swap
  · rw [if_pos version]
    refine Or.inr ⟨fun grammar => version ?_, _, rfl⟩
    rw [grammar.version]
    rfl
  rw [if_neg (not_not.mpr version)]
  rcases signedLimitFor_eq (recordBits bytes) with
    ⟨supported, limit⟩ | ⟨unsupported, failure, raised⟩
  swap
  · rw [raised]
    exact Or.inr ⟨fun grammar => unsupported grammar.bitWidth, _, rfl⟩
  rw [limit]
  dsimp only
  by_cases reserved : leAt bytes 6 2 = 0
  swap
  · rw [if_pos reserved]
    exact Or.inr ⟨fun grammar =>
      reserved ((leAt_two_eq_zero_iff bytes 6).mpr grammar.reserved), _, rfl⟩
  rw [if_neg (not_not.mpr reserved)]
  have lengthIff : bytes.length - 20 =
      (if recordBits bytes = 4 then (recordCount bytes + 1) / 2 else recordCount bytes) ↔
        RightLength bytes := by
    unfold RightLength sqHeaderSize sqQ4Bits
    omega
  by_cases length : RightLength bytes
  swap
  · rw [if_pos fun same => length (lengthIff.mp same)]
    exact Or.inr ⟨fun grammar => length grammar.length, _, rfl⟩
  rw [if_neg (not_not.mpr (lengthIff.mpr length))]
  by_cases badScale : (!isfinite (recordScale bytes) || (recordScale bytes).lt zeroF) = true
  · rw [if_pos badScale]
    refine Or.inr ⟨fun grammar => ?_, _, rfl⟩
    rw [grammar.finite, grammar.notBelow] at badScale
    exact absurd badScale (by simp)
  rw [if_neg badScale]
  by_cases empty : recordCount bytes = 0 ∧ (recordScale bytes).eq zeroF = false
  · rw [if_pos empty]
    refine Or.inr ⟨fun grammar => ?_, _, rfl⟩
    rw [grammar.empty empty.1] at empty
    exact absurd empty.2 (by simp)
  rw [if_neg empty]
  rcases unpackCodes_eq supported length with ⟨padding, codes⟩ | ⟨padding, failure, raised⟩
  swap
  · rw [raised]
    exact Or.inr ⟨fun grammar => padding grammar.padding, _, rfl⟩
  rw [codes]
  dsimp only
  rcases decodeValues_eq (signedLimit_pos (recordBits bytes))
      (signedLimit_small (recordBits bytes)) (recordScale bytes) (recordCode bytes) with
    ⟨valid, decoded⟩ | ⟨invalid, failure, raised⟩
  swap
  · rw [raised]
    exact Or.inr ⟨fun grammar => invalid grammar.codes, _, rfl⟩
  rw [decoded]
  simp only [Bool.or_eq_true, Bool.not_eq_true', not_or, Bool.not_eq_false,
    Bool.not_eq_true] at badScale
  refine Or.inl ⟨?_, rfl⟩
  exact
    { header := long
      magic := (take_magic_iff long).mp magic
      version := BitVec.eq_of_toNat_eq version
      bitWidth := supported
      reserved := (leAt_two_eq_zero_iff bytes 6).mp reserved
      length := length
      finite := badScale.1
      notBelow := badScale.2
      empty := fun none => by
        by_contra nonzero
        exact empty ⟨none, Bool.eq_false_iff.mpr nonzero⟩
      padding := padding
      codes := valid }

/-- Both decoders accept the same byte strings, whatever count a header claims, and
return the same number of values with the same bits. -/
theorem decodeRecord_agrees {bytes : List Byte} (short : bytes.length < 2 ^ 60)
    (out : DecodeOut) :
    ∃ status result,
      sqDecodeRecord (fun _ => true) (some bytes) bytes.length (some out) =
          some (status, some result) ∧
        (status = .ok ↔ ∃ values, decodeRecord bytes = .ok values) ∧
        ∀ values, decodeRecord bytes = .ok values →
          result.count = values.length ∧
            (result.values.getD []).map f32Bits = values.map f32Bits := by
  rcases sqDecodeRecord_spec short out with
    ⟨grammar, decoded⟩ | ⟨invalid, status, notOk, rejected⟩
  · rcases decodeRecord_spec bytes with ⟨-, returned⟩ | ⟨invalid, -⟩
    swap
    · exact absurd grammar invalid
    refine ⟨.ok, ⟨if recordCount bytes = 0 then none else some (recordValues bytes),
      recordCount bytes⟩, decoded, iff_of_true rfl ⟨recordValues bytes, returned⟩, ?_⟩
    intro values found
    have same : recordValues bytes = values := Except.ok.inj (returned.symm.trans found)
    rw [← same]
    constructor
    · rw [recordValues, List.length_map, List.length_range]
    · by_cases empty : recordCount bytes = 0
      · rw [if_pos empty, recordValues, empty]
        rfl
      · rw [if_neg empty, Option.getD_some]
  · rcases decodeRecord_spec bytes with ⟨grammar, -⟩ | ⟨-, failure, raised⟩
    · exact absurd grammar invalid
    refine ⟨status, ⟨none, 0⟩, rejected, ?_, ?_⟩
    · rw [raised]
      apply iff_of_false notOk
      rintro ⟨values, found⟩
      cases found
    · intro values found
      have impossible := raised.symm.trans found
      cases impossible

end

/-- The record of three 4-bit codes 0, 14 and 7 with scale 1. -/
def threeCodes : List Byte := headerBytes 4 3 (ofF32Bits 0x3F800000#32) ++ [0xE0#8, 0x07#8]

theorem decodeRecord_agrees_threeCodes :
    letI := nearestEven Format.binary32
    (decodeRecord threeCodes).toOption.map (List.map f32Bits) =
        some [0xBF800000#32, 0x3F800000#32, 0x00000000#32] ∧
      ∃ status result,
        sqDecodeRecord (fun _ => true) (some threeCodes) threeCodes.length (some ⟨none, 0⟩) =
            some (status, some result) ∧
          (status = .ok ↔ ∃ values, decodeRecord threeCodes = .ok values) ∧
          ∀ values, decodeRecord threeCodes = .ok values →
            result.count = values.length ∧
              (result.values.getD []).map f32Bits = values.map f32Bits := by
  let _ := nearestEven Format.binary32
  constructor
  · decide +kernel
  · exact decodeRecord_agrees (by decide) ⟨none, 0⟩

end Stoquant

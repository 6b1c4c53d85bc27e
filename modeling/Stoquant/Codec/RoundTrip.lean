import Stoquant.Codec.Grammar
import Stoquant.Ieee.Nearest

/-!
# Records and their fields

The bytes of a record determine its bit width, scale bits and codes, and these
determine the bytes: writing the fields that were read gives the string back,
and reading the string that was written gives the fields back.
-/

namespace Stoquant

open Ieee

theorem byteAt_append_left {front back : List Byte} {i : ℕ} (inside : i < front.length) :
    byteAt (front ++ back) i = byteAt front i := by
  unfold byteAt
  rw [List.getD_eq_getElem?_getD, List.getD_eq_getElem?_getD,
    List.getElem?_append_left inside]

theorem byteAt_append_right {front back : List Byte} {i : ℕ}
    (beyond : front.length ≤ i) :
    byteAt (front ++ back) i = byteAt back (i - front.length) := by
  unfold byteAt
  rw [List.getD_eq_getElem?_getD, List.getD_eq_getElem?_getD,
    List.getElem?_append_right beyond]

section

variable {bitWidth count : ℕ} {record : TensorRecord}

theorem recordBytes_length :
    (recordBytes bitWidth count record).length =
      sqHeaderSize + sqPayloadSize bitWidth count := by
  rw [recordBytes, List.length_append, headerBytes_length, payloadBytes_length]

theorem byteAt_header {i : ℕ} (inside : i < sqHeaderSize) :
    byteAt (recordBytes bitWidth count record) i =
      byteAt (headerBytes bitWidth count record.scale) i :=
  byteAt_append_left inside

theorem byteAt_payload {k : ℕ} (inside : k < sqPayloadSize bitWidth count) :
    byteAt (recordBytes bitWidth count record) (sqHeaderSize + k) =
      payloadByte bitWidth count record.codes k := by
  have headerLength := headerBytes_length bitWidth count record.scale
  rw [recordBytes, byteAt_append_right (by omega), headerLength,
    Nat.add_sub_cancel_left]
  simp [byteAt, payloadBytes, inside]

theorem recordBits_recordBytes (supported : Supported bitWidth) :
    recordBits (recordBytes bitWidth count record) = bitWidth := by
  rw [recordBits, byteAt_header (by decide)]
  rcases supported with rfl | rfl <;> rfl

theorem leAt_storeU32 (value : BitVec 32) (front back : List Byte) :
    leAt (front ++ (sqStoreU32Le value ++ back)) front.length 4 = value.toNat := by
  have byte : ∀ i < 4, byteAt (front ++ (sqStoreU32Le value ++ back))
      (front.length + i) = byteAt (sqStoreU32Le value) i := by
    intro i below
    rw [byteAt_append_right (by omega), Nat.add_sub_cancel_left,
      byteAt_append_left (by exact below)]
  have bound := value.isLt
  simp only [leAt, byte 0 (by norm_num), byte 1 (by norm_num), byte 2 (by norm_num),
    byte 3 (by norm_num)]
  simp only [sqStoreU32Le, byteAt, List.getD_cons_zero, List.getD_cons_succ,
    BitVec.toNat_setWidth, BitVec.toNat_ushiftRight, Nat.shiftRight_eq_div_pow]
  omega

theorem leAt_add (bytes : List Byte) (offset m n : ℕ) :
    leAt bytes offset (m + n) =
      leAt bytes offset m + leAt bytes (offset + m) n * 256 ^ m := by
  induction n with
  | zero => simp [leAt]
  | succ n ih =>
      rw [← Nat.add_assoc, leAt, ih, leAt, pow_add, Nat.add_assoc offset]
      ring

theorem recordScaleBits_recordBytes :
    recordScaleBits (recordBytes bitWidth count record) = f32Bits record.scale := by
  have stored : recordBytes bitWidth count record =
      (sqMagic ++ [1#8, BitVec.ofNat 8 bitWidth, 0#8, 0#8] ++
        sqStoreU64Le (BitVec.ofNat 64 count)) ++
        (sqStoreU32Le (f32Bits record.scale) ++
          payloadBytes bitWidth count record.codes) := by
    simp only [recordBytes, headerBytes, List.append_assoc]
  rw [recordScaleBits, stored]
  refine (congrArg _ (leAt_storeU32 (f32Bits record.scale) _ _)).trans ?_
  exact BitVec.ofNat_toNat 32 _

theorem recordScale_recordBytes :
    recordScale (recordBytes bitWidth count record) = record.scale := by
  rw [recordScale, recordScaleBits_recordBytes, ofF32Bits_f32Bits]

theorem recordCount_recordBytes (small : count < 2 ^ 64) :
    recordCount (recordBytes bitWidth count record) = count := by
  have low : recordBytes bitWidth count record =
      (sqMagic ++ [1#8, BitVec.ofNat 8 bitWidth, 0#8, 0#8]) ++
        (sqStoreU32Le ((BitVec.ofNat 64 count).setWidth 32) ++
          (sqStoreU32Le ((BitVec.ofNat 64 count >>> 32).setWidth 32) ++
            (sqStoreU32Le (f32Bits record.scale) ++
              payloadBytes bitWidth count record.codes))) := by
    simp only [recordBytes, headerBytes, sqStoreU64Le, List.append_assoc]
  have high : recordBytes bitWidth count record =
      (sqMagic ++ [1#8, BitVec.ofNat 8 bitWidth, 0#8, 0#8] ++
        sqStoreU32Le ((BitVec.ofNat 64 count).setWidth 32)) ++
        (sqStoreU32Le ((BitVec.ofNat 64 count >>> 32).setWidth 32) ++
          (sqStoreU32Le (f32Bits record.scale) ++
            payloadBytes bitWidth count record.codes)) := by
    simp only [recordBytes, headerBytes, sqStoreU64Le, List.append_assoc]
  have lowPart : leAt (recordBytes bitWidth count record) 8 4 = count % 2 ^ 32 := by
    rw [low]
    refine (leAt_storeU32 _ _ _).trans ?_
    rw [BitVec.toNat_setWidth, BitVec.toNat_ofNat, Nat.mod_eq_of_lt small]
  have highPart : leAt (recordBytes bitWidth count record) 12 4 = count / 2 ^ 32 := by
    rw [high]
    refine (leAt_storeU32 _ _ _).trans ?_
    rw [BitVec.toNat_setWidth, BitVec.toNat_ushiftRight, BitVec.toNat_ofNat,
      Nat.mod_eq_of_lt small, Nat.shiftRight_eq_div_pow, Nat.mod_eq_of_lt (by omega)]
  rw [recordCount, leAt_add _ 8 4 4, lowPart, highPart]
  omega

/-- A code fits in the space the bit width gives it. -/
def CodeFits (bitWidth : ℕ) (code : Byte) : Prop :=
  bitWidth = sqQ4Bits → code.toNat < 16

theorem CodesValid.fits {scale : F32} {codes : ℕ → Byte}
    (valid : CodesValid (signedLimit bitWidth) scale codes count) {i : ℕ}
    (below : i < count) : CodeFits bitWidth (codes i) := by
  rintro rfl
  have bound := (valid i below).1
  have limit : signedLimit sqQ4Bits = 7 := rfl
  omega

theorem nibble_of_fits {code : Byte} (fits : code.toNat < 16) :
    code &&& 0x0F#8 = code := by
  revert code
  decide

theorem low_nibble (low high : Byte) (lowFits : low.toNat < 16) :
    ((low &&& 0x0F#8) ||| (high &&& 0x0F#8) <<< 4) &&& 0x0F#8 = low := by
  conv => rhs; rw [← nibble_of_fits lowFits]
  ext i below
  interval_cases i <;> simp

theorem high_nibble (low high : Byte) (highFits : high.toNat < 16) :
    ((low &&& 0x0F#8) ||| (high &&& 0x0F#8) <<< 4) >>> 4 = high := by
  conv => rhs; rw [← nibble_of_fits highFits]
  ext i below
  interval_cases i <;> simp

theorem recordCode_recordBytes (supported : Supported bitWidth) {i : ℕ}
    (below : i < count) (fits : CodeFits bitWidth (record.codes i)) :
    recordCode (recordBytes bitWidth count record) i = record.codes i := by
  unfold recordCode
  rw [recordBits_recordBytes supported]
  by_cases q4 : bitWidth = sqQ4Bits
  · subst q4
    have inside : i / 2 < sqPayloadSize sqQ4Bits count := by
      rw [sqPayloadSize_eq, if_pos rfl]
      omega
    rw [if_pos rfl, byteAt_payload inside, payloadByte, if_neg sqQ4Bits_ne]
    by_cases even : i % 2 = 0
    · have index : 2 * (i / 2) = i := by omega
      rw [if_pos even, index]
      split
      · exact low_nibble _ _ (fits rfl)
      · have := low_nibble (record.codes i) 0#8 (fits rfl)
        simpa using this
    · have index : 2 * (i / 2) + 1 = i := by omega
      rw [if_neg even, index, if_pos below]
      exact high_nibble _ _ (fits rfl)
  · have inside : i < sqPayloadSize bitWidth count := by
      rw [sqPayloadSize_eq, if_neg q4]
      exact below
    rw [if_neg q4, byteAt_payload inside, payloadByte,
      if_pos (supported.resolve_left q4)]

/-- What a scale and codes must satisfy to stand in a record. -/
structure ContentValid (bitWidth count : ℕ) (record : TensorRecord) : Prop where
  finite : isfinite record.scale = true
  notBelow : record.scale.lt zeroF = false
  empty : count = 0 → record.scale.eq zeroF = true
  codes : CodesValid (signedLimit bitWidth) record.scale record.codes count

/-- The bytes written for valid contents are a record. -/
theorem grammar_recordBytes (supported : Supported bitWidth) (small : count < 2 ^ 64)
    (valid : ContentValid bitWidth count record) :
    RecordGrammar (recordBytes bitWidth count record) := by
  have bits : recordBits (recordBytes bitWidth count record) = bitWidth :=
    recordBits_recordBytes supported
  have stored : recordCount (recordBytes bitWidth count record) = count :=
    recordCount_recordBytes small
  have code : ∀ i < count,
      recordCode (recordBytes bitWidth count record) i = record.codes i :=
    fun i below => recordCode_recordBytes supported below (valid.codes.fits below)
  refine
    { header := by rw [recordBytes_length]; omega
      magic := fun i below => ?_
      version := byteAt_header (by decide)
      bitWidth := by rwa [bits]
      reserved := ⟨byteAt_header (by decide), byteAt_header (by decide)⟩
      length := by rw [recordBytes_length, bits, stored, sqPayloadSize_eq]
      finite := by rw [recordScale_recordBytes]; exact valid.finite
      notBelow := by rw [recordScale_recordBytes]; exact valid.notBelow
      empty := by rw [recordScale_recordBytes, stored]; exact valid.empty
      padding := ?_
      codes := ?_ }
  · rw [byteAt_header (by unfold sqHeaderSize; omega)]
    interval_cases i <;> rfl
  · rw [bits, stored]
    rintro rfl odd
    have inside : count / 2 < sqPayloadSize sqQ4Bits count := by
      rw [sqPayloadSize_eq, if_pos rfl]
      omega
    rw [byteAt_payload inside, payloadByte, if_neg sqQ4Bits_ne,
      if_neg (by omega)]
    exact high_nibble _ 0#8 (by decide)
  · intro i below
    rw [stored] at below
    rw [bits, recordScale_recordBytes, code i below]
    exact valid.codes i below

end

/-- The contents of a record. -/
def recordContent (bytes : List Byte) : TensorRecord :=
  ⟨recordScale bytes, recordCode bytes⟩

section

variable {bytes : List Byte} (grammar : RecordGrammar bytes)

include grammar

theorem RecordGrammar.content :
    ContentValid (recordBits bytes) (recordCount bytes) (recordContent bytes) :=
  ⟨grammar.finite, grammar.notBelow, grammar.empty, grammar.codes⟩

theorem RecordGrammar.payload_eq {k : ℕ}
    (inside : k < sqPayloadSize (recordBits bytes) (recordCount bytes)) :
    payloadByte (recordBits bytes) (recordCount bytes) (recordCode bytes) k =
      byteAt bytes (sqHeaderSize + k) := by
  unfold payloadByte
  by_cases q8 : recordBits bytes = sqQ8Bits
  · rw [if_pos q8, recordCode, q8, if_neg sqQ4Bits_ne.symm]
  · have q4 := grammar.bitWidth.eq_q4 q8
    have padding := grammar.padding q4
    rw [sqPayloadSize_eq, if_pos q4] at inside
    have even : 2 * k % 2 = 0 := by omega
    have odd : ¬ (2 * k + 1) % 2 = 0 := by omega
    have evenHalf : 2 * k / 2 = k := by omega
    have oddHalf : (2 * k + 1) / 2 = k := by omega
    have both : ∀ b : Byte, (b &&& 0x0F#8) &&& 0x0F#8 |||
        ((b >>> 4) &&& 0x0F#8) <<< 4 = b := by decide
    have low : ∀ b : Byte, b >>> 4 = 0#8 → (b &&& 0x0F#8) &&& 0x0F#8 |||
        0#8 <<< 4 = b := by decide
    rw [if_neg q8, recordCode, if_pos q4, if_pos even, evenHalf, recordCode, if_pos q4,
      if_neg odd, oddHalf]
    by_cases pair : 2 * k + 1 < recordCount bytes
    · rw [if_pos pair]
      exact both _
    · rw [if_neg pair]
      have last : recordCount bytes / 2 = k := by omega
      rw [last] at padding
      exact low _ (padding (by omega))

theorem RecordGrammar.bytes_eq :
    recordBytes (recordBits bytes) (recordCount bytes) (recordContent bytes) =
      bytes := by
  have bitsLt := recordBits_lt bytes
  have countLt := recordCount_lt bytes
  have length := grammar.length
  set written := recordBytes (recordBits bytes) (recordCount bytes)
    (recordContent bytes) with written_def
  have writtenLength : written.length = sqHeaderSize +
      if recordBits bytes = sqQ4Bits then (recordCount bytes + 1) / 2
      else recordCount bytes := by
    rw [written_def, recordBytes_length, sqPayloadSize_eq]
  refine ext_byteAt (writtenLength.trans length.symm) fun i inside => ?_
  rw [writtenLength] at inside
  by_cases payload : sqHeaderSize ≤ i
  · obtain ⟨k, rfl⟩ : ∃ k, i = sqHeaderSize + k := ⟨i - sqHeaderSize, by omega⟩
    have within : k < sqPayloadSize (recordBits bytes) (recordCount bytes) := by
      rw [sqPayloadSize_eq]
      omega
    rw [byteAt_payload within]
    exact grammar.payload_eq within
  have below : i < 20 := Nat.not_le.mp payload
  have same := grammar_recordBytes grammar.bitWidth countLt grammar.content
  have countSame : recordCount written = recordCount bytes :=
    recordCount_recordBytes countLt
  have scaleSame : recordScaleBits written = f32Bits (recordScale bytes) :=
    recordScaleBits_recordBytes
  have bitsSame : recordBits written = recordBits bytes :=
    recordBits_recordBytes grammar.bitWidth
  rcases Nat.lt_or_ge i 4 with magic | h
  · rw [same.magic i magic, grammar.magic i magic]
  rcases Nat.lt_or_ge i 8 with fixed | h8
  · interval_cases i
    · rw [same.version, grammar.version]
    · exact BitVec.eq_of_toNat_eq bitsSame
    · rw [same.reserved.1, grammar.reserved.1]
    · rw [same.reserved.2, grammar.reserved.2]
  rcases Nat.lt_or_ge i 16 with count | h16
  · obtain ⟨k, rfl⟩ : ∃ k, i = 8 + k := ⟨i - 8, by omega⟩
    exact byteAt_of_leAt countSame k (by omega)
  · obtain ⟨k, rfl⟩ : ∃ k, i = 16 + k := ⟨i - 16, by omega⟩
    have scaleLt := leAt_lt bytes 16 4
    have scaleLt' := leAt_lt written 16 4
    refine byteAt_of_leAt (n := 4) ?_ k (by omega)
    have bitsEq : recordScaleBits written = recordScaleBits bytes := by
      rw [scaleSame, recordScale, f32Bits_ofF32Bits]
    have numbers := congrArg BitVec.toNat bitsEq
    rw [recordScaleBits, recordScaleBits, BitVec.toNat_ofNat, BitVec.toNat_ofNat,
      Nat.mod_eq_of_lt (by omega), Nat.mod_eq_of_lt (by omega)] at numbers
    exact numbers

end

/-- What a record says: the bit width, the bits of the scale and the codes. -/
structure RecordFields where
  bitWidth : ℕ
  scaleBits : Word
  codes : List Byte
  deriving DecidableEq

namespace RecordFields

variable (fields : RecordFields)

def content : TensorRecord :=
  ⟨ofF32Bits fields.scaleBits, fun i => fields.codes.getD i 0#8⟩

/-- The rules on the fields of a record whose string is shorter than `2 ^ 60`. -/
structure Valid : Prop where
  supported : Supported fields.bitWidth
  finite : isfinite (ofF32Bits fields.scaleBits) = true
  notBelow : (ofF32Bits fields.scaleBits).lt zeroF = false
  empty : fields.codes = [] → (ofF32Bits fields.scaleBits).eq zeroF = true
  codes : ∀ code ∈ fields.codes, code.toNat ≤ 2 * signedLimit fields.bitWidth ∧
    ((ofF32Bits fields.scaleBits).eq zeroF = true →
      code.toNat = signedLimit fields.bitWidth)
  short : sqHeaderSize + sqPayloadSize fields.bitWidth fields.codes.length < 2 ^ 60

/-- `sq_header_encode` followed by packing the codes. -/
def write : List Byte :=
  match sqHeaderEncode fields.bitWidth fields.codes.length
      (ofF32Bits fields.scaleBits) (some fun _ => 0#8) with
  | (.ok, some header) =>
      (List.range sqHeaderSize).map header ++
        payloadBytes fields.bitWidth fields.codes.length fields.content.codes
  | _ => []

/-- The fields of a record. -/
def read (bytes : List Byte) : RecordFields :=
  ⟨recordBits bytes, recordScaleBits bytes,
    (List.range (recordCount bytes)).map (recordCode bytes)⟩

variable {fields}

theorem Valid.content (valid : fields.Valid) :
    ContentValid fields.bitWidth fields.codes.length fields.content := by
  refine ⟨valid.finite, valid.notBelow,
    fun none => valid.empty (List.length_eq_zero_iff.mp none), fun i below => ?_⟩
  have entry : fields.content.codes i = fields.codes[i] := by
    simp [RecordFields.content, below]
  rw [entry]
  exact valid.codes _ (List.getElem_mem below)

theorem Valid.count_lt (valid : fields.Valid) : fields.codes.length < 2 ^ 61 := by
  have short := valid.short
  rw [sqPayloadSize_eq] at short
  split at short <;> omega

theorem Valid.write_eq (valid : fields.Valid) :
    fields.write =
      recordBytes fields.bitWidth fields.codes.length fields.content := by
  have empty : ¬ (fields.codes.length = 0 ∧
      (ofF32Bits fields.scaleBits).eq zeroF = false) := by
    rintro ⟨none, nonzero⟩
    rw [valid.empty (List.length_eq_zero_iff.mp none)] at nonzero
    exact absurd nonzero (by simp)
  have header : (List.range sqHeaderSize).map (storeBytes (fun _ => 0#8)
      (headerBytes fields.bitWidth fields.codes.length
        (ofF32Bits fields.scaleBits))) =
      headerBytes fields.bitWidth fields.codes.length
        (ofF32Bits fields.scaleBits) := by
    apply List.ext_getElem
    · simp [headerBytes_length]
    · intro i inRange inside
      simp [storeBytes, inside]
  simp only [write, sqHeaderEncode, if_neg valid.supported.ne, valid.finite,
    valid.notBelow, Bool.not_true, Bool.or_self, Bool.false_eq_true, if_false,
    if_neg empty, header]
  rfl

theorem Valid.grammar (valid : fields.Valid) : RecordGrammar fields.write := by
  have countLt := valid.count_lt
  rw [valid.write_eq]
  exact grammar_recordBytes valid.supported (by omega) valid.content

theorem Valid.read_write (valid : fields.Valid) : read fields.write = fields := by
  have countLt := valid.count_lt
  have count : recordCount
      (recordBytes fields.bitWidth fields.codes.length fields.content) =
      fields.codes.length := recordCount_recordBytes (by omega)
  have bits : f32Bits fields.content.scale = fields.scaleBits :=
    f32Bits_ofF32Bits _
  rw [valid.write_eq, read, recordBits_recordBytes valid.supported,
    recordScaleBits_recordBytes, bits, count]
  have codes : (List.range fields.codes.length).map (recordCode
      (recordBytes fields.bitWidth fields.codes.length fields.content)) =
      fields.codes := by
    apply List.ext_getElem
    · simp
    · intro i inRange inside
      rw [List.getElem_map, List.getElem_range,
        recordCode_recordBytes valid.supported inside
          (valid.content.codes.fits inside)]
      simp [RecordFields.content, inside]
  rw [codes]

theorem valid_read {bytes : List Byte} (grammar : RecordGrammar bytes)
    (short : bytes.length < 2 ^ 60) : (read bytes).Valid := by
  have length := grammar.length
  refine ⟨grammar.bitWidth, grammar.finite, grammar.notBelow, fun none => ?_,
    fun code member => ?_, ?_⟩
  · apply grammar.empty
    simpa [read] using none
  · simp only [read, List.mem_map, List.mem_range] at member
    obtain ⟨i, below, rfl⟩ := member
    exact grammar.codes i below
  · rw [sqPayloadSize_eq]
    simp only [read, List.length_map, List.length_range]
    omega

theorem write_read {bytes : List Byte} (grammar : RecordGrammar bytes)
    (short : bytes.length < 2 ^ 60) : (read bytes).write = bytes := by
  have count : (read bytes).codes.length = recordCount bytes := by simp [read]
  rw [(valid_read grammar short).write_eq, count]
  refine Eq.trans ?_ grammar.bytes_eq
  have payload : payloadBytes (recordBits bytes) (recordCount bytes)
      (read bytes).content.codes =
      payloadBytes (recordBits bytes) (recordCount bytes) (recordCode bytes) := by
    refine List.map_congr_left fun k member => ?_
    refine payloadByte_congr grammar.bitWidth (List.mem_range.mp member) ?_
    intro i below
    simp [RecordFields.content, read, below]
  exact congrArg (headerBytes (recordBits bytes) (recordCount bytes)
    (recordScale bytes) ++ ·) payload

end RecordFields

/-- The decoder succeeds on a string. -/
def Accepted [Arith Format.binary32] (bytes : List Byte) : Prop :=
  ∃ result, sqDecodeRecord (fun _ => true) (some bytes) bytes.length
    (some ⟨none, 0⟩) = some (.ok, result)

section

variable [Arith Format.binary32]

theorem accepted_iff {bytes : List Byte} (short : bytes.length < 2 ^ 60) :
    Accepted bytes ↔ RecordGrammar bytes := by
  unfold Accepted
  rcases sqDecodeRecord_spec short ⟨none, 0⟩ with
    ⟨grammar, decoded⟩ | ⟨invalid, status, notOk, rejected⟩
  · rw [decoded]
    exact ⟨fun _ => grammar, fun _ => ⟨_, rfl⟩⟩
  · rw [rejected]
    refine ⟨fun ⟨result, ok⟩ => ?_, fun grammar => absurd grammar invalid⟩
    cases ok
    exact absurd rfl notOk

/-- The decoder accepts exactly the record grammar, leaves nothing behind on a
rejection and never reads outside the string; writing and reading fields are
inverse bijections between valid fields and accepted strings. -/
theorem sqDecodeRecord_accepts_grammar :
    (∀ (bytes : List Byte) (out : DecodeOut), bytes.length < 2 ^ 60 →
      ∃ status result,
        sqDecodeRecord (fun _ => true) (some bytes) bytes.length (some out) =
            some (status, some result) ∧
          (status = .ok ↔ RecordGrammar bytes) ∧
          (status ≠ .ok → result = ⟨none, 0⟩)) ∧
      Set.BijOn RecordFields.write {fields | fields.Valid}
        {bytes | bytes.length < 2 ^ 60 ∧ Accepted bytes} ∧
      Set.InvOn RecordFields.read RecordFields.write {fields | fields.Valid}
        {bytes | bytes.length < 2 ^ 60 ∧ Accepted bytes} := by
  have inverse : Set.InvOn RecordFields.read RecordFields.write
      {fields | fields.Valid} {bytes | bytes.length < 2 ^ 60 ∧ Accepted bytes} :=
    ⟨fun fields valid => RecordFields.Valid.read_write valid,
      fun bytes ⟨short, accepted⟩ =>
        RecordFields.write_read ((accepted_iff short).mp accepted) short⟩
  refine ⟨fun bytes out short => ?_, ?_, inverse⟩
  · rcases sqDecodeRecord_spec short out with
      ⟨grammar, decoded⟩ | ⟨invalid, status, notOk, rejected⟩
    · exact ⟨_, _, decoded, ⟨fun _ => grammar, fun _ => rfl⟩,
        fun notOk => absurd rfl notOk⟩
    · exact ⟨status, _, rejected, ⟨fun ok => absurd ok notOk,
        fun grammar => absurd grammar invalid⟩, fun _ => rfl⟩
  · refine inverse.bijOn ?_ ?_
    · intro fields valid
      have short : fields.write.length < 2 ^ 60 := by
        rw [RecordFields.Valid.write_eq valid, recordBytes_length]
        exact RecordFields.Valid.short valid
      exact ⟨short, (accepted_iff short).mpr (RecordFields.Valid.grammar valid)⟩
    · rintro bytes ⟨short, accepted⟩
      exact RecordFields.valid_read ((accepted_iff short).mp accepted) short

end

end Stoquant

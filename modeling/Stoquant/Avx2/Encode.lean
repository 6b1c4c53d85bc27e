import Stoquant.Avx2.Scale
import Stoquant.Quantizer.Level

/-!
# Payload of the AVX2 backend

Levels and thresholds are computed with 32-bit conversions, the draw with a
borrow, and the sign without a branch; every thread encodes whole 256-element
units.
-/

namespace Stoquant

open Ieee Loop Par

section

variable [Arith Format.binary32]

/-- `0.5f`. -/
def halfF : F32 := ofF32Bits 0x3F000000#32

/-- `2.0f`. -/
def twoF : F32 := ofF32Bits 0x40000000#32

/-- `split_scaled` for one element: the lower level and the threshold. -/
def splitScaled (x scale limit : F32) : ℤ × Word :=
  let scaled := fabsf x / scale * limit
  let scaled := if limit.lt scaled then limit else scaled
  let whole := scaled.trunc
  let t := (scaled - ofInt Format.binary32 whole) * twoPow32F
  let q := (t * halfF).trunc
  (whole,
    BitVec.ofInt 32 q * 2#32 +
      BitVec.ofInt 32 (t - twoF * ofInt Format.binary32 q).trunc)

/-- `combine_codes` for one element. -/
def combineCode (word bits : Word) (lower : ℤ) (threshold : Word) (s : ℕ) :
    Byte :=
  let below : Word :=
    ((word.setWidth 64 - threshold.setWidth 64) >>> 63).setWidth 32
  let magnitude : Word := BitVec.ofInt 32 lower + below
  let negative : Word := bits >>> 31
  (((magnitude ^^^ (0#32 - negative)) + negative) + BitVec.ofNat 32 s).setWidth 8

/-- The code of one element. -/
def avx2Code (scale : F32) (s : ℕ) (value : F32) (word : Word) : Byte :=
  let split := splitScaled value scale (ofInt Format.binary32 s)
  combineCode word (f32Bits value) split.1 split.2 s

/-- `pack_nibbles` into a payload, from a byte on. -/
def packNibbles (codes : ℕ → Byte) (n first : ℕ) : ArrayTask Byte Empty :=
  let pairs := n / 2
  .seq
    (.storeRun first pairs fun k =>
      (codes (2 * k) &&& 0x0F#8) ||| (codes (2 * k + 1) &&& 0x0F#8) <<< 4)
    (if n % 2 = 1 then .write (first + pairs) (codes (n - 1) &&& 0x0F#8) .done
    else .done)

/-- One iteration of `encode_range`, at element `base`. -/
def encodeUnit (bitWidth : ℕ) (values : ℕ → F32) (last : ℕ) (scale : F32)
    (s : ℕ) (words : ℕ → Word) (base : ℕ) : ArrayTask Byte Empty :=
  let n := if last - base < sqScaleBlockSize then last - base else sqScaleBlockSize
  let codes := fun k => avx2Code scale s (values (base + k)) (words (base + k))
  if bitWidth = sqQ8Bits then .storeRun base n codes
  else packNibbles codes n (base / 2)

/-- The parallel region of `sq_avx2_encode_payload`; a thread runs
`encode_range` over its `unit_range`. -/
def encodeRegion (bitWidth : ℕ) (values : ℕ → F32) (count : ℕ) (scale : F32)
    (s : ℕ) (words : ℕ → Word) (team : ℕ) : ArrayTask Byte Empty :=
  .team team
    (fun thread =>
      let share := unitRange count thread team
      strided share.1 sqScaleBlockSize share.2)
    fun thread base =>
      encodeUnit bitWidth values (unitRange count thread team).2 scale s words base

/-- `sq_avx2_encode_payload`, with the regions of its scan and of its loop. -/
def sqAvx2EncodePayload (scan encode : OmpRegion) (bitWidth : ℕ)
    (values : Ptr F32) (count : ℕ) (scale : F32) (words : Ptr Word)
    (payload : Ptr Byte) : SqStatus × Ptr Byte :=
  let prologue := sqEncodePayloadPrologue bitWidth values count scale words
    payload (some (scanAvx2EncodeInput scan)) (some ⟨0, false⟩)
  match prologue, values, words with
  | (.ok, some state, some bytes), some values, some words =>
      if state.skipEncoding then (.ok, some bytes)
      else
        (.ok, some
          (encode.scheduler.run
            (encodeRegion bitWidth values count scale state.signedLimit words
              encode.team) ⟨bytes, 0⟩).cell)
  | (status, _, payload), _, _ => (status, payload)

end

/-! ## The element rule -/

/-- The borrow of a 64-bit difference tells which word is smaller. -/
theorem borrow_eq (word threshold : Word) :
    ((word.setWidth 64 - threshold.setWidth 64) >>> 63).setWidth 32 =
      if word.toNat < threshold.toNat then 1#32 else 0#32 := by
  have wordLt := word.isLt
  have thresholdLt := threshold.isLt
  apply BitVec.eq_of_toNat_eq
  rw [BitVec.toNat_setWidth, BitVec.toNat_ushiftRight, BitVec.toNat_sub,
    BitVec.toNat_setWidth, BitVec.toNat_setWidth, Nat.shiftRight_eq_div_pow]
  split
  · rw [BitVec.toNat_ofNat]
    omega
  · rw [BitVec.toNat_ofNat]
    omega

theorem negative_eq (value : F32) :
    f32Bits value >>> 31 = if value.sign then 1#32 else 0#32 := by
  have magLt : value.mag < 2 ^ 31 := value.mag_lt
  have bitsLt : value.toBits < 2 ^ 32 := value.toBits_lt
  apply BitVec.eq_of_toNat_eq
  rw [BitVec.toNat_ushiftRight, f32Bits, BitVec.toNat_ofNat,
    Nat.mod_eq_of_lt bitsLt, Nat.shiftRight_eq_div_pow]
  unfold Fp.toBits
  rw [magBits_binary32]
  cases value.sign
  · simpa using magLt
  · simp only [if_true]
    rw [Nat.add_div_left _ (by norm_num), Nat.div_eq_of_lt magLt]
    rfl

/-- The branch-free negation. -/
theorem conditionalNegate (magnitude : Word) (sign : Bool) :
    (magnitude ^^^ (0#32 - if sign then 1#32 else 0#32)) +
        (if sign then 1#32 else 0#32) =
      if sign then -magnitude else magnitude := by
  cases sign
  · simp
  · have ones : (0#32 - 1#32) = BitVec.allOnes 32 := by decide
    simp only [if_true, ones, BitVec.xor_allOnes]
    rw [BitVec.neg_eq_not_add]

theorem setWidth_ofInt (z : ℤ) :
    (BitVec.ofInt 32 z).setWidth 8 = BitVec.ofInt 8 z := by
  apply BitVec.eq_of_toNat_eq
  rw [BitVec.toNat_setWidth, BitVec.toNat_ofInt, BitVec.toNat_ofInt]
  omega

/-- `combine_codes` stores the signed code with the limit added. -/
theorem combineCode_eq (word : Word) (value : F32) (lower s : ℕ)
    (threshold : Word) :
    combineCode word (f32Bits value) lower threshold s =
      let magnitude : ℤ :=
        (lower + if word.toNat < threshold.toNat then 1 else 0 : ℕ)
      BitVec.ofInt 8 ((if value.sign then -magnitude else magnitude) + s) := by
  have natural : BitVec.ofInt 32 (lower : ℤ) +
      (if word.toNat < threshold.toNat then 1#32 else 0#32) =
      BitVec.ofInt 32
        ((lower + if word.toNat < threshold.toNat then 1 else 0 : ℕ) : ℤ) := by
    rw [BitVec.ofInt_natCast, BitVec.ofInt_natCast, BitVec.ofNat_add]
    split <;> rfl
  unfold combineCode
  dsimp only
  rw [borrow_eq, negative_eq, conditionalNegate, natural]
  generalize ((lower + if word.toNat < threshold.toNat then 1 else 0 : ℕ) : ℤ) =
    magnitude
  have wide : ∀ z : ℤ, (BitVec.ofInt 32 z + BitVec.ofNat 32 s).setWidth 8 =
      BitVec.ofInt 8 (z + s) := by
    intro z
    rw [← BitVec.ofInt_natCast, ← BitVec.ofInt_add, setWidth_ofInt]
  cases value.sign
  · exact wide magnitude
  · rw [if_pos rfl, if_pos rfl, ← BitVec.ofInt_neg]
    exact wide (-magnitude)

theorem halfF_toReal : halfF.toReal = 1 / 2 := by
  have has : HasUnits halfF (2 ^ 148) := ⟨by decide +kernel, by decide +kernel⟩
  rw [has.toReal, show one Format.binary32 = 2 ^ 149 from unit_eq]
  norm_num

theorem twoF_toReal : twoF.toReal = 2 := by
  have has : HasUnits twoF (2 ^ 150) := ⟨by decide +kernel, by decide +kernel⟩
  rw [has.toReal, show one Format.binary32 = 2 ^ 149 from unit_eq]
  norm_num

theorem halfF_finite : halfF.isFinite = true := by decide +kernel

theorem twoF_finite : twoF.isFinite = true := by decide +kernel

section

variable [RoundedArith Format.binary32]

section

variable {t : F32} {n : ℕ} (has : HasUnits t (n * 2 ^ 32))

include has

theorem half_hasUnits : HasUnits (t * halfF) (n * 2 ^ 31) := by
  have twice : n * 2 ^ 32 = n * 2 ^ 31 * 2 := by ring
  have halved : Representable Format.binary32 (n * 2 ^ 31) :=
    .half (twice ▸ has.representable)
  refine .of_rounds (mul_rounds has.finite halfF_finite) halved ?_
  rw [has.toReal, halfF_toReal, twice]
  push_cast
  ring

theorem half_trunc : (t * halfF).trunc = (n * 2 ^ 32 / unit / 2 : ℕ) := by
  have value : n * 2 ^ 31 / unit = n * 2 ^ 32 / unit / 2 := by
    rw [Nat.div_div_eq_div_mul, show n * 2 ^ 32 = n * 2 ^ 31 * 2 by ring,
      Nat.mul_div_mul_right _ _ (by norm_num)]
  rw [(half_hasUnits has).trunc, value]

/-- What the first half leaves of the product. -/
theorem remainder_hasUnits :
    HasUnits (t - twoF * ofInt Format.binary32 (t * halfF).trunc)
      (n * 2 ^ 32 % (unit * 2)) := by
  have rep := has.representable
  have double : 2 ^ (Format.binary32.unitExp + 1) = unit * 2 := pow_succ _ _
  have cleared : n * 2 ^ 32 / unit / 2 * (unit * 2) =
      n * 2 ^ 32 / (unit * 2) * (unit * 2) := by
    rw [Nat.div_div_eq_div_mul]
  have clearedRep : Representable Format.binary32 (n * 2 ^ 32 / unit / 2 * (unit * 2)) := by
    rw [cleared, ← double]
    exact rep.div_mul_pow _
  have floatHas : HasUnits (ofInt Format.binary32 (n * 2 ^ 32 / unit / 2 : ℕ))
      (n * 2 ^ 32 / unit / 2 * unit) := by
    have quotient : n * 2 ^ 32 / unit / 2 = n * 2 ^ 31 / unit := by
      rw [Nat.div_div_eq_div_mul, show n * 2 ^ 32 = n * 2 ^ 31 * 2 by ring,
        Nat.mul_div_mul_right _ _ (by norm_num)]
    refine .ofInt ?_
    rw [quotient]
    exact (half_hasUnits has).representable.div_mul_pow _
  have doubleHas : HasUnits (twoF * ofInt Format.binary32 (n * 2 ^ 32 / unit / 2 : ℕ))
      (n * 2 ^ 32 / unit / 2 * (unit * 2)) := by
    refine .of_rounds (mul_rounds twoF_finite floatHas.finite) clearedRep ?_
    rw [floatHas.toReal, twoF_toReal]
    push_cast
    ring
  have rest : n * 2 ^ 32 - n * 2 ^ 32 / unit / 2 * (unit * 2) = n * 2 ^ 32 % (unit * 2) := by
    have recompose := Nat.div_add_mod' (n * 2 ^ 32) (unit * 2)
    rw [cleared]
    omega
  rw [half_trunc has, ← rest]
  refine has.sub doubleHas ?_ ?_
  · rw [cleared]
    exact Nat.div_mul_le_self _ _
  · rw [rest, ← double]
    exact rep.mod_pow _

theorem remainder_trunc :
    (t - twoF * ofInt Format.binary32 (t * halfF).trunc).trunc =
      (n * 2 ^ 32 / unit % 2 : ℕ) := by
  rw [(remainder_hasUnits has).trunc, Nat.mod_mul_right_div_self]

end

variable {s : ℕ} {scale value : F32}

/-- `split_scaled` yields the lower level and the threshold of the draw. -/
theorem splitScaled_eq (usable : ScaleUsable scale)
    (finite : isfinite value = true) (sPos : 0 < s) (sSmall : s < 2 ^ 24) :
    splitScaled value scale (ofInt Format.binary32 s) =
      ((lowerLevel s scale value : ℤ),
        BitVec.ofNat 32 (drawThreshold s scale value)) := by
  have has := scaledValue_hasUnits usable finite sPos sSmall
  have lowerSmall : lowerLevel s scale value < 2 ^ 24 :=
    lt_of_le_of_lt (lowerLevel_le usable finite sPos sSmall) sSmall
  have fraction := fraction_hasUnits usable finite sPos sSmall
    (ofInt_hasUnits lowerSmall)
  have quotient := half_trunc (scaledFraction_hasUnits fraction)
  have remainder := remainder_trunc (scaledFraction_hasUnits fraction)
  have whole : (scaledValue s scale value).trunc = lowerLevel s scale value :=
    has.trunc
  have clamp : (if (ofInt Format.binary32 s).lt
        (fabsf value / scale * ofInt Format.binary32 s) then
      ofInt Format.binary32 s
    else fabsf value / scale * ofInt Format.binary32 s) =
      scaledValue s scale value := rfl
  unfold splitScaled
  dsimp only
  rw [clamp, whole, remainder, quotient, ← drawThreshold, BitVec.ofInt_natCast,
    BitVec.ofInt_natCast]
  congr 1
  rw [← BitVec.ofNat_mul, ← BitVec.ofNat_add]
  congr 1
  omega

/-- The AVX2 backend computes the code of `quantizer.c`. -/
theorem avx2Code_eq (usable : ScaleUsable scale) (finite : isfinite value = true)
    (sPos : 0 < s) (sSmall : s < 2 ^ 24) (word : Word) :
    avx2Code scale s value word =
      BitVec.ofInt 8 (signedCode s scale value word + s) := by
  have threshold : (BitVec.ofNat 32 (drawThreshold s scale value)).toNat =
      drawThreshold s scale value := by
    rw [BitVec.toNat_ofNat, Nat.mod_eq_of_lt drawThreshold_lt]
  unfold avx2Code
  rw [splitScaled_eq usable finite sPos sSmall,
    signedCode_eq usable finite sPos sSmall]
  dsimp only
  rw [combineCode_eq, threshold]
  rfl

end

/-! ## Units of the payload -/

/-- The payload byte at which a unit begins. -/
def unitByte (bitWidth base : ℕ) : ℕ :=
  if bitWidth = sqQ8Bits then base else base / 2

/-- The number of elements of the unit at `base`. -/
def unitLength (count base : ℕ) : ℕ := min sqScaleBlockSize (count - base)

theorem within_packNibbles (codes : ℕ → Byte) (n first : ℕ) :
    (packNibbles codes n first).Within ∅
      { a | first ≤ a ∧ a < first + sqPayloadSize sqQ4Bits n } := by
  have size : sqPayloadSize sqQ4Bits n = n / 2 + n % 2 := rfl
  rw [size]
  refine ⟨(Task.within_storeRun _ _ _).mono (Set.Subset.refl _) ?_, ?_⟩
  · rintro a ⟨ge, lt⟩
    exact ⟨ge, by omega⟩
  · split
    · exact ⟨⟨Nat.le_add_right _ _, by omega⟩, trivial⟩
    · trivial

theorem packNibbles_cell (codes : ℕ → Byte) (n first : ℕ)
    (m : Mem (fun _ : ℕ => Byte) Empty) (a : ℕ) :
    ((packNibbles codes n first).eval m).cell a =
      if first ≤ a ∧ a < first + sqPayloadSize sqQ4Bits n then
        payloadByte sqQ4Bits n codes (a - first)
      else m.cell a := by
  have tail : ∀ (k : Mem (fun _ : ℕ => Byte) Empty) (v : Byte),
      (Task.eval (.write (first + n / 2) v .done) k).cell a =
        Function.update k.cell (first + n / 2) v a := fun _ _ => rfl
  unfold packNibbles payloadByte sqPayloadSize
  simp only [sqQ4Bits_ne, if_true, if_false]
  rw [Task.eval]
  by_cases odd : n % 2 = 1
  · rw [if_pos odd, tail]
    by_cases last : a = first + n / 2
    · have index : n - 1 = 2 * (a - first) := by omega
      rw [last, Function.update_self, if_pos (by omega), if_neg (by omega),
        ← last, index]
      simp
    · rw [Function.update_of_ne last, Task.storeRun_cell]
      split_ifs <;> first | rfl | omega
  · rw [if_neg odd, Task.eval, Task.storeRun_cell]
    split_ifs <;> first | rfl | omega

/-- The stores of a unit of codes, one byte or one nibble for each. -/
def storeCodes (bitWidth : ℕ) (codes : ℕ → Byte) (n first : ℕ) :
    ArrayTask Byte Empty :=
  if bitWidth = sqQ8Bits then .storeRun first n codes
  else packNibbles codes n first

theorem within_storeCodes {bitWidth : ℕ} (supported : Supported bitWidth)
    (codes : ℕ → Byte) (n first : ℕ) :
    (storeCodes bitWidth codes n first).Within ∅
      { a | first ≤ a ∧ a < first + sqPayloadSize bitWidth n } := by
  rcases supported with rfl | rfl
  · exact within_packNibbles codes n first
  · exact Task.within_storeRun first n codes

theorem raceFree_storeCodes (bitWidth : ℕ) (codes : ℕ → Byte) (n first : ℕ) :
    (storeCodes bitWidth codes n first).RaceFree := by
  unfold storeCodes packNibbles
  split
  · exact Task.raceFree_storeRun _ _ _
  · refine ⟨Task.raceFree_storeRun _ _ _, ?_⟩
    split <;> trivial

theorem storeCodes_cell {bitWidth : ℕ} (supported : Supported bitWidth)
    (codes : ℕ → Byte) (n first : ℕ) (m : Mem (fun _ : ℕ => Byte) Empty)
    (a : ℕ) :
    ((storeCodes bitWidth codes n first).eval m).cell a =
      if first ≤ a ∧ a < first + sqPayloadSize bitWidth n then
        payloadByte bitWidth n codes (a - first)
      else m.cell a := by
  rcases supported with rfl | rfl
  · exact packNibbles_cell codes n first m a
  · exact Task.storeRun_cell first n codes m a

/-- The payload bytes of the unit at `base`. -/
def unitBytes (bitWidth count base : ℕ) : Set ℕ :=
  { a | sqScaleBlockSize ∣ base ∧ unitByte bitWidth base ≤ a ∧
    a < unitByte bitWidth base + sqPayloadSize bitWidth (unitLength count base) }

section

variable {bitWidth count : ℕ} (supported : Supported bitWidth)

include supported

theorem unitBytes_apart {base base' a : ℕ} (different : base ≠ base')
    (member : a ∈ unitBytes bitWidth count base) :
    a ∉ unitBytes bitWidth count base' := by
  rintro ⟨⟨k', rfl⟩, ge', lt'⟩
  obtain ⟨⟨k, rfl⟩, ge, lt⟩ := member
  unfold unitByte unitLength sqPayloadSize sqScaleBlockSize at *
  rcases supported with rfl | rfl
  · simp only [sqQ4Bits_ne, if_true, if_false] at *
    omega
  · simp only [sqQ4Bits_ne.symm, if_true, if_false] at *
    omega

theorem exists_unitBytes {a : ℕ} (inRange : a < sqPayloadSize bitWidth count) :
    ∃ k, k < blockCount count ∧
      a ∈ unitBytes bitWidth count (k * sqScaleBlockSize) := by
  simp only [lt_blockCount_iff]
  unfold unitBytes unitByte unitLength
  rcases supported with rfl | rfl
  · refine ⟨a / 128, ?_⟩
    unfold sqPayloadSize sqScaleBlockSize at *
    simp only [sqQ4Bits_ne, if_true, if_false] at *
    refine ⟨by omega, Dvd.intro_left _ rfl, by omega, by omega⟩
  · refine ⟨a / 256, ?_⟩
    unfold sqPayloadSize sqScaleBlockSize at *
    simp only [sqQ4Bits_ne.symm, if_true, if_false] at *
    refine ⟨by omega, Dvd.intro_left _ rfl, by omega, by omega⟩

theorem payloadByte_unit {base a : ℕ} (codes : ℕ → Byte)
    (member : a ∈ unitBytes bitWidth count base) :
    payloadByte bitWidth (unitLength count base) (fun k => codes (base + k))
        (a - unitByte bitWidth base) =
      payloadByte bitWidth count codes a := by
  obtain ⟨⟨k, rfl⟩, ge, lt⟩ := member
  unfold payloadByte
  unfold unitByte unitLength sqPayloadSize sqScaleBlockSize at *
  rcases supported with rfl | rfl
  · simp only [sqQ4Bits_ne, if_true, if_false] at *
    have low : 256 * k + 2 * (a - 256 * k / 2) = 2 * a := by omega
    have high : 256 * k + (2 * (a - 256 * k / 2) + 1) = 2 * a + 1 := by omega
    rw [low, high]
    congr 2
    exact if_congr (by omega) rfl rfl
  · simp only [sqQ4Bits_ne.symm, if_true, if_false] at *
    congr 1
    omega

end

section

variable [Arith Format.binary32] {bitWidth : ℕ} (supported : Supported bitWidth)
  (values : ℕ → F32) (count : ℕ) (scale : F32) (s : ℕ) (words : ℕ → Word)
  (team : ℕ)

/-- The codes of the AVX2 backend. -/
def avx2Codes (i : ℕ) : Byte := avx2Code scale s (values i) (words i)

variable (bitWidth) in
theorem encodeUnit_eq {thread base : ℕ}
    (member : base ∈ strided (unitRange count thread team).1 sqScaleBlockSize
      (unitRange count thread team).2) :
    encodeUnit bitWidth values (unitRange count thread team).2 scale s words base =
        storeCodes bitWidth
          (fun k => avx2Codes values scale s words (base + k))
          (unitLength count base) (unitByte bitWidth base) ∧
      sqScaleBlockSize ∣ base ∧
      base / sqScaleBlockSize ∈ range (splitCut (blockCount count) team) thread := by
  rw [mem_strided (by decide)] at member
  obtain ⟨below, steps, rfl⟩ := member
  have inRange := mem_unitRange.mp ⟨Nat.le_add_right _ _, below⟩
  rw [unitRange_eq] at below inRange ⊢
  dsimp only at below inRange ⊢
  rw [← Nat.add_mul] at below inRange ⊢
  refine ⟨?_, Dvd.intro_left _ rfl, inRange.2⟩
  generalize splitCut (blockCount count) team thread + steps = k at *
  generalize splitCut (blockCount count) team (thread + 1) = cut at *
  have length : (if min (cut * sqScaleBlockSize) count - k * sqScaleBlockSize <
        sqScaleBlockSize then
      min (cut * sqScaleBlockSize) count - k * sqScaleBlockSize
    else sqScaleBlockSize) = unitLength count (k * sqScaleBlockSize) := by
    unfold unitLength sqScaleBlockSize at *
    split_ifs <;> omega
  unfold encodeUnit storeCodes unitByte
  dsimp only
  rw [length]
  split <;> rfl

include supported in
theorem encodeTeam :
    Task.Team team
      (fun thread =>
        let share := unitRange count thread team
        strided share.1 sqScaleBlockSize share.2)
      (fun thread base =>
        encodeUnit bitWidth values (unitRange count thread team).2 scale s words
          base)
      ∅ (unitBytes bitWidth count) fun _ => ∅ where
  nodup _ _ := strided_nodup _ _ _
  disjoint t _ u _ different base member member' := by
    have left := (encodeUnit_eq bitWidth values count scale s
      words team member).2.2
    have right := (encodeUnit_eq bitWidth values count scale s
      words team member').2.2
    exact range_disjoint (splitCut_mono _ _) different left right
  within t _ base member := by
    obtain ⟨same, divides, -⟩ := encodeUnit_eq bitWidth values
      count scale s words team member
    rw [same]
    refine (within_storeCodes supported _ _ _).mono (Set.Subset.refl _) ?_
    rintro a ⟨ge, lt⟩
    exact .inl ⟨divides, ge, lt⟩
  free t _ base member := by
    rw [(encodeUnit_eq bitWidth values count scale s words team
      member).1]
    exact raceFree_storeCodes _ _ _ _
  inputs_kept _ input := input.elim
  outputs_apart _ _ different _ := unitBytes_apart supported different
  scratch_apart _ _ _ _ scratch := scratch.elim
  scratch_private _ _ _ _ scratch := scratch

include supported in
theorem encodeRegion_eq (region : OmpRegion) (payload : ℕ → Byte) :
    (region.scheduler.run
        (encodeRegion bitWidth values count scale s words region.team)
        ⟨payload, 0⟩).cell =
      packCodes bitWidth count (avx2Codes values scale s words) payload := by
  have team := encodeTeam supported values count scale s words region.team
  unfold encodeRegion
  rw [region.scheduler.run_eq team.raceFree]
  funext a
  unfold packCodes
  split
  · rename_i inRange
    obtain ⟨k, kBound, member⟩ := exists_unitBytes supported inRange
    obtain ⟨t, tBound, share⟩ := exists_split region.team_pos kBound
    have below := lt_blockCount_iff.mp kBound
    have unitMember : k * sqScaleBlockSize ∈
        strided (unitRange count t region.team).1 sqScaleBlockSize
          (unitRange count t region.team).2 := by
      rw [mem_strided (by decide)]
      have div : k * sqScaleBlockSize / sqScaleBlockSize = k :=
        Nat.mul_div_cancel _ (by decide)
      obtain ⟨ge, lt⟩ := mem_unitRange.mpr ⟨below, div.symm ▸ share⟩
      refine ⟨lt, k - splitCut (blockCount count) region.team t, ?_⟩
      have cutLe := (mem_range.mp share).1
      rw [unitRange_eq, ← Nat.add_mul]
      congr 1
      omega
    refine team.cell tBound unitMember member _ fun m _ => ?_
    rw [(encodeUnit_eq bitWidth values count scale s words
      region.team unitMember).1, storeCodes_cell supported, if_pos member.2]
    exact payloadByte_unit supported _ member
  · rename_i outside
    refine team.frame ?_ (fun _ _ scratch => scratch) _
    rintro t - base member' ⟨-, ge, lt⟩
    have below : base < count := by
      have := (mem_strided (by decide)).mp member'
      rw [unitRange_eq] at this
      exact lt_of_lt_of_le this.1 (Nat.min_le_right _ _)
    unfold unitByte unitLength sqPayloadSize sqScaleBlockSize at *
    rcases supported with rfl | rfl
    · simp only [sqQ4Bits_ne, if_true, if_false] at *
      omega
    · simp only [sqQ4Bits_ne.symm, if_true, if_false] at *
      omega

end

section

variable [RoundedArith Format.binary32]

/-- `sq_avx2_encode_payload` does what `sq_encode_payload` does, whatever the
teams and the order of their threads. -/
theorem sqAvx2EncodePayload_eq {bitWidth : ℕ} (supported : Supported bitWidth)
    (scan encode : OmpRegion) (values : ℕ → F32) (count : ℕ) (scale : F32)
    (words : ℕ → Word) (payload : ℕ → Byte) :
    sqAvx2EncodePayload scan encode bitWidth (some values) count scale
        (some words) (some payload) =
      sqEncodePayload bitWidth (some values) count scale (some words)
        (some payload) := by
  rw [sqEncodePayload_eq supported]
  unfold sqAvx2EncodePayload
  dsimp only
  rw [sqEncodePayloadPrologue_eq supported values count scale words payload
    (scanAvx2EncodeInput_correct scan)]
  by_cases ok : encodeStatus values count scale = .ok
  · by_cases zero : scale.eq zeroF = true
    · simp [ok, zero, centrePayload_eq supported, elementCode]
    · have usable := ScaleUsable.of_status ok (by simpa using zero)
      have finite := (encodeStatus_ok_iff.mp ok).2.2.1
      simp only [ok, zero, Bool.and_false, Bool.false_eq_true, and_false, if_false,
        if_true, decide_true]
      rw [encodeRegion_eq supported]
      refine congrArg (fun p => (SqStatus.ok, some p))
        (packCodes_congr supported _ fun i below => ?_)
      rw [elementCode, if_neg zero, avx2Codes,
        avx2Code_eq usable (allFinite_iff.mp finite i below)
          (signedLimit_pos bitWidth) (signedLimit_small bitWidth)]
  · cases status : encodeStatus values count scale <;> simp_all

end

end Stoquant

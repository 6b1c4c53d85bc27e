import Stoquant.Avx2.Encode
import Stoquant.Ieee.Nearest

/-!
# The vectorised draw

`split_scaled` converts to 32-bit integers only, so it truncates the threshold in
two halves, and `combine_codes` compares and negates without a branch.  Both are
exact: level, threshold and code are those of the scalar encoder.
-/

namespace Stoquant

open Ieee

section

variable [Arith Format.binary32]

/-- `split_scaled` after its clamp. -/
def splitClamped (scaled : F32) : ℤ × Word :=
  let whole := scaled.trunc
  let t := (scaled - ofInt Format.binary32 whole) * twoPow32F
  let q := (t * halfF).trunc
  (whole,
    BitVec.ofInt 32 q * 2#32 +
      BitVec.ofInt 32 (t - twoF * ofInt Format.binary32 q).trunc)

/-- The operands of the three conversions to `int32_t` in `split_scaled`. -/
def splitConversions (scaled : F32) : List F32 :=
  let t := (scaled - ofInt Format.binary32 scaled.trunc) * twoPow32F
  [scaled, t * halfF, t - twoF * ofInt Format.binary32 (t * halfF).trunc]

/-- A float whose conversion to `int32_t` is defined. -/
def ConvertsToInt32 (x : F32) : Prop :=
  x.isFinite = true ∧ -(2 ^ 31) ≤ x.trunc ∧ x.trunc < 2 ^ 31

theorem splitScaled_eq_clamped (x scale limit : F32) :
    splitScaled x scale limit =
      splitClamped (if limit.lt (fabsf x / scale * limit) then limit
        else fabsf x / scale * limit) := rfl

/-- The code that the scalar encoder stores for a level and a threshold. -/
def scalarCode (negative : Bool) (lower : ℤ) (word : Word) (threshold s : ℕ) : Byte :=
  let magnitude : ℤ := lower + if word.toNat < threshold then 1 else 0
  let signedCode := if negative && decide (magnitude ≠ 0) then -magnitude else magnitude
  BitVec.ofInt 8 (signedCode + s)

/-- The element rule of `sq_encode_payload` in these terms. -/
theorem signedCode_eq_scalarCode (s : ℕ) (scale value : F32) (word : Word) :
    BitVec.ofInt 8 (signedCode s scale value word + s) =
      scalarCode (signbit value) (floorf (scaledValue s scale value)).trunc word
        (sqBernoulliThreshold
          (scaledValue s scale value - floorf (scaledValue s scale value))) s := rfl

end

theorem signBit_eq (bits : Word) : bits >>> 31 = if bits.msb then 1#32 else 0#32 := by
  have bound := bits.isLt
  apply BitVec.eq_of_toNat_eq
  rw [BitVec.toNat_ushiftRight, Nat.shiftRight_eq_div_pow]
  by_cases negative : bits.msb = true
  · have large := BitVec.msb_eq_true_iff_two_mul_ge.mp negative
    rw [if_pos negative]
    norm_num
    omega
  · have small := BitVec.msb_eq_false_iff_two_mul_lt.mp (by simpa using negative)
    rw [if_neg negative]
    norm_num
    omega

theorem combineCode_eq_scalarCode (word bits : Word) (lower : ℤ) (threshold : Word) (s : ℕ) :
    combineCode word bits lower threshold s =
      scalarCode bits.msb lower word threshold.toNat s := by
  have drawn : BitVec.ofInt 32 lower +
      (if word.toNat < threshold.toNat then 1#32 else 0#32) =
        BitVec.ofInt 32 (lower + if word.toNat < threshold.toNat then 1 else 0) := by
    rw [BitVec.ofInt_add]
    split_ifs <;> rfl
  have wide : ∀ z : ℤ, (BitVec.ofInt 32 z + BitVec.ofNat 32 s).setWidth 8 =
      BitVec.ofInt 8 (z + s) := by
    intro z
    rw [← BitVec.ofInt_natCast, ← BitVec.ofInt_add, setWidth_ofInt]
  unfold combineCode scalarCode
  dsimp only
  rw [borrow_eq, signBit_eq, conditionalNegate, drawn]
  generalize (lower + if word.toNat < threshold.toNat then 1 else 0 : ℤ) = magnitude
  cases bits.msb with
  | false => exact wide magnitude
  | true =>
      rw [if_pos rfl, ← BitVec.ofInt_neg, wide, Bool.true_and]
      by_cases zero : magnitude = 0
      · simp [zero]
      · rw [if_pos (decide_eq_true zero)]

section

variable [RoundedArith Format.binary32]

/-- Level, threshold and conversions of a nonnegative float below `2 ^ 24`. -/
theorem splitClamped_spec {scaled : F32} {n s : ℕ} (has : HasUnits scaled n)
    (le : n ≤ s * unit) (small : s < 2 ^ 24) :
    (splitClamped scaled).1 = (floorf scaled).trunc ∧
      (splitClamped scaled).2.toNat = sqBernoulliThreshold (scaled - floorf scaled) ∧
      ∀ x ∈ splitConversions scaled, ConvertsToInt32 x := by
  have level : scaled.trunc = (n / unit : ℕ) := has.trunc
  have levelLe : n / unit ≤ s := Nat.div_le_of_le_mul (le.trans_eq (Nat.mul_comm _ _))
  have floorLevel : (floorf scaled).trunc = (n / unit : ℕ) := by
    have floorHas : HasUnits (floorf scaled) (n / unit * unit) := has.floor
    rw [floorHas.trunc, Nat.mul_div_cancel _ unit_pos]
  have fraction := fractionPart_hasUnits has (ofInt_hasUnits (levelLe.trans_lt small))
  rw [← level] at fraction
  have product := mul_twoPow32F_hasUnits fraction
  have quotient := half_trunc product
  have remainder := remainder_trunc product
  have threshold := sqBernoulliThreshold_fraction has
  have below : n % unit * 2 ^ 32 / unit < 2 ^ 32 := by
    rw [Nat.div_lt_iff_lt_mul unit_pos, Nat.mul_comm (2 ^ 32)]
    have fractionLt := Nat.mod_lt n unit_pos
    omega
  refine ⟨?_, ?_, ?_⟩
  · rw [floorLevel]
    exact level
  · unfold splitClamped
    dsimp only
    rw [threshold, remainder, quotient, BitVec.ofInt_natCast, BitVec.ofInt_natCast,
      ← BitVec.ofNat_mul, ← BitVec.ofNat_add, BitVec.toNat_ofNat]
    generalize n % unit * 2 ^ 32 / unit = whole at *
    omega
  · intro x member
    rcases List.mem_cons.mp member with rfl | member
    · have nonneg : (0 : ℤ) ≤ (n / unit : ℕ) := Int.natCast_nonneg _
      have bound : ((n / unit : ℕ) : ℤ) < 2 ^ 24 := by exact_mod_cast levelLe.trans_lt small
      refine ⟨has.finite, ?_, ?_⟩
      · rw [level]
        linarith
      · rw [level]
        linarith
    rcases List.mem_cons.mp member with rfl | member
    · refine ⟨(half_hasUnits product).finite, ?_, ?_⟩
      · rw [quotient]
        omega
      · rw [quotient]
        omega
    · rw [List.mem_singleton.mp member]
      refine ⟨(remainder_hasUnits product).finite, ?_, ?_⟩
      · rw [remainder]
        omega
      · rw [remainder]
        omega

omit [RoundedArith Format.binary32] in
theorem hasUnits_of_between {scaled : F32} {s : ℕ} (finite : scaled.isFinite = true)
    (nonneg : 0 ≤ scaled.toReal) (le : scaled.toReal ≤ s) :
    ∃ n, HasUnits scaled n ∧ n ≤ s * unit := by
  have unitPos : (0 : ℝ) < unit := by exact_mod_cast unit_pos
  have value : scaled.toReal = (scaled.toUnits : ℝ) / unit := by
    unfold Fp.toReal Fp.toRat
    push_cast
    rfl
  have units : (0 : ℝ) ≤ scaled.toUnits := by
    rwa [value, le_div_iff₀ unitPos, zero_mul] at nonneg
  have natural : 0 ≤ scaled.toUnits := by exact_mod_cast units
  refine ⟨scaled.toUnits.toNat, ⟨finite, (Int.toNat_of_nonneg natural).symm⟩, ?_⟩
  rw [value, div_le_iff₀ unitPos] at le
  have bound : scaled.toUnits ≤ s * unit := by exact_mod_cast le
  omega

/-- The vectorised draw is exact: for every float in `[0, s]` level and threshold are those
of the scalar encoder and no conversion is out of range, and for every word, sign, level
and threshold the code is that of the scalar encoder. -/
theorem splitScaled_combineCodes_exact {s : ℕ} (limit : s = 7 ∨ s = 127) :
    (∀ scaled : F32, scaled.isFinite = true → 0 ≤ scaled.toReal → scaled.toReal ≤ s →
      (splitClamped scaled).1 = (floorf scaled).trunc ∧
      (splitClamped scaled).2.toNat = sqBernoulliThreshold (scaled - floorf scaled) ∧
      ∀ x ∈ splitConversions scaled, ConvertsToInt32 x) ∧
    ∀ (word bits : Word) (lower : ℤ) (threshold : Word),
      combineCode word bits lower threshold s =
        scalarCode bits.msb lower word threshold.toNat s := by
  have small : s < 2 ^ 24 := by
    rcases limit with rfl | rfl
    · norm_num
    · norm_num
  refine ⟨?_, fun word bits lower threshold =>
    combineCode_eq_scalarCode word bits lower threshold s⟩
  intro scaled finite nonneg le
  obtain ⟨n, has, bound⟩ := hasUnits_of_between finite nonneg le
  exact splitClamped_spec has bound small

end

/-- The 4-bit limit, and the float `6.5f`. -/
theorem splitScaled_combineCodes_exact_sixAndHalf :
    letI := nearestEven Format.binary32
    (splitClamped (ofF32Bits 0x40D00000#32)).1 = (floorf (ofF32Bits 0x40D00000#32)).trunc ∧
      combineCode 0x80000000#32 0#32 6 0x80000000#32 7 = scalarCode false 6 0x80000000#32
        (0x80000000#32).toNat 7 := by
  let _ := nearestEven Format.binary32
  obtain ⟨split, combine⟩ := splitScaled_combineCodes_exact (s := 7) (.inl rfl)
  have has : HasUnits (ofF32Bits 0x40D00000#32) (13 * 2 ^ 148) :=
    ⟨by decide +kernel, by decide +kernel⟩
  have value : (ofF32Bits 0x40D00000#32).toReal = 13 / 2 := by
    rw [has.toReal, show one Format.binary32 = 2 ^ 149 from unit_eq]
    norm_num
  refine ⟨(split _ has.finite ?_ ?_).1, combine _ _ _ _⟩
  · rw [value]
    norm_num
  · rw [value]
    norm_num

end Stoquant

import Stoquant.Ieee.Nearest
import Stoquant.Quantizer.LevelError

/-!
# The FP64 reference and its error bounds

`reference_fp64` and `fp64_error_bounds` of `oracle.py`, in exact reals.  The scale and the
decoded values of every record stay within the bounds.
-/

namespace Stoquant

open Ieee

/-! ## The reference -/

/-- `scale_fp64`, of an array that `_values_fp32` accepts. -/
noncomputable def scaleFp64 (array : List ℝ) : ℝ :=
  if array.length = 0 then 0
  else
    let maxAbs := (array.map fun value => |value|).foldl max 0
    if maxAbs = 0 then 0
    else
      let ratios := array.map fun value => |value| / maxAbs
      maxAbs * Real.sqrt (ratios.map fun ratio => ratio * ratio).sum

/-- One element of `reference_fp64`. -/
noncomputable def referenceValue (signedLimit : ℕ) (scale : ℝ) (value : F32) (word : Word) : ℝ :=
  let scaled := min (|value.toReal| / scale * signedLimit) signedLimit
  let lower : ℤ := ⌊scaled⌋
  let fraction := scaled - lower
  let threshold : ℤ := ⌊fraction * (1 <<< 32 : ℕ)⌋
  let rounded := decide ((word.toNat : ℤ) < threshold)
  let magnitude := lower + if rounded then 1 else 0
  let signed := if signbit value && decide (magnitude ≠ 0) then -magnitude else magnitude
  (signed : ℝ) / signedLimit * scale

/-- `reference_fp64`. -/
noncomputable def referenceFp64 (values : List F32) (bits seed tensorId invocationId : ℤ)
    (words : Option (List ℤ)) : Except PyError (ℝ × List ℝ) := do
  let bits ← unsigned bits 8 "bits"
  let signedLimit ← signedLimitFor bits
  let array ← valuesFp32 values
  let scale := scaleFp64 (array.map Fp.toReal)
  let randomWords ← oracleResolveWords array.length seed tensorId invocationId words
  if scale = 0 then return (scale, List.replicate array.length 0)
  return (scale, List.zipWith (referenceValue signedLimit scale) array randomWords)

/-- `fp64_error_bounds`. -/
noncomputable def fp64ErrorBounds (count : ℤ) (bits : ℕ) (fp64Scale : ℝ) :
    Except PyError (ℝ × ℝ) :=
  if count < 1 then
    .error (.valueError "the FP64 error bound is undefined for empty input")
  else if fp64Scale ≤ 0 then
    .error (.valueError "the FP64 error bound is undefined for a zero or non-finite scale")
  else do
    let s ← signedLimitFor bits
    let blockCount := (count + sqScaleBlockSize - 1) / sqScaleBlockSize
    let operations := 12 + bitLength (blockCount - 1)
    let unitRoundoff : ℝ := 1 / (2 ^ 24 : ℕ)
    let underflow : ℝ := 1 / (2 ^ 149 : ℕ)
    let depth : ℝ := operations * unitRoundoff / (1 - operations * unitRoundoff)
    let epsilon := depth + ((4 : ℕ) * count * underflow + underflow / ((2 : ℕ) * fp64Scale))
    let scaleBound := fp64Scale * epsilon
    let reconstructionBound := fp64Scale *
      ((2 : ℕ) / s + (2 : ℕ) * epsilon / (1 - epsilon) + (5 : ℕ) * unitRoundoff)
    return (scaleBound, reconstructionBound)

/-! ## The scale -/

section

variable {values : ℕ → F32} {count : ℕ}

theorem magF_toReal_max {m n : ℕ} (mSmall : m < Format.binary32.infMag)
    (nSmall : n < Format.binary32.infMag) :
    (magF (max m n)).toReal = max (magF m).toReal (magF n).toReal := by
  have mono : ∀ {j k : ℕ}, k < Format.binary32.infMag → j ≤ k →
      (magF j).toReal ≤ (magF k).toReal := by
    intro j k kSmall le
    apply Fp.toReal_le_iff.mpr
    have jSmall := lt_of_le_of_lt le kSmall
    rw [Fp.key, Fp.key, sign_magF, sign_magF, mag_magF jSmall, mag_magF kSmall,
      if_neg Bool.false_ne_true, if_neg Bool.false_ne_true]
    exact_mod_cast le
  rcases le_total m n with le | le
  · rw [max_eq_right le, max_eq_right (mono nSmall le)]
  · rw [max_eq_left le, max_eq_left (mono mSmall le)]

theorem foldl_max_eq (finite : allFinite values count = true) :
    (((listOf values count).map Fp.toReal).map fun value => |value|).foldl max 0 =
      (maxAbsF values count).toReal := by
  induction count with
  | zero => exact (Fp.toReal_eq_zero_iff.mpr Fp.mag_zero).symm
  | succ n ih =>
      rw [allFinite_succ, Bool.and_eq_true] at finite
      obtain ⟨before, last⟩ := finite
      have snoc : listOf values (n + 1) = listOf values n ++ [values n] := by
        simp [listOf, List.range_succ]
      rw [snoc, List.map_append, List.map_append, List.foldl_append, ih before]
      show max (maxAbsF values n).toReal |(values n).toReal| = _
      rw [← fabsf_toReal, fabsf_eq last]
      exact (magF_toReal_max (allFinite_iff_maxMag.mp before) (Fp.isFinite_iff.mp last)).symm

theorem scaleFp64_eq (input : NonzeroInput values count) :
    scaleFp64 ((listOf values count).map Fp.toReal) = exactScale values count := by
  have nonempty : ¬ ((listOf values count).map Fp.toReal).length = 0 := by
    rw [List.length_map, length_listOf]
    intro empty
    exact input.nonzero (by rw [empty]; rfl)
  have sum : ((((listOf values count).map Fp.toReal).map fun value =>
      |value| / (maxAbsF values count).toReal).map fun ratio => ratio * ratio).sum =
        exactSum values count := by
    have squares : exactSum values count =
        ((List.range count).map fun i => exactRatio values count i ^ 2).sum := rfl
    rw [squares, listOf, List.map_map, List.map_map, List.map_map]
    apply congrArg
    apply List.map_congr_left
    intro i _
    exact (pow_two _).symm
  unfold scaleFp64
  rw [if_neg nonempty, foldl_max_eq input.finite]
  dsimp only
  rw [if_neg input.maxAbs_pos.ne', sum]
  rfl

theorem eta_le_maxAbs (input : NonzeroInput values count) :
    eta ≤ (maxAbsF values count).toReal := by
  have has := HasUnits.of_sign input.maxAbs_finite (sign_magF _)
  have positive : 1 ≤ units Format.binary32 (maxAbsF values count).mag := by
    rw [input.maxAbs_mag]
    exact Nat.one_le_iff_ne_zero.mpr fun zero => input.nonzero (units_eq_zero_iff.mp zero)
  rw [has.toReal, eta, leastPositive]
  apply div_le_div_of_nonneg_right _ one_pos.le
  exact_mod_cast positive

/-- The relative bound is never vacuous. -/
theorem scaleEpsilon_lt_one (input : NonzeroInput values count) (fits : count ≤ sizeMax / 4) :
    scaleEpsilon count (exactScale values count) < 1 := by
  have few := scaleOperations_small fits
  have depth : relativeBound (scaleOperations count) roundoff ≤ 1 / 99 := by
    unfold relativeBound
    rw [div_le_div_iff₀ (by linarith) (by norm_num)]
    linarith
  have scalePos := input.exactScale_pos
  have large := (eta_le_maxAbs input).trans input.maxAbs_le_exactScale
  have last : eta / ((2 : ℕ) * exactScale values count) ≤ 1 / 2 := by
    rw [div_le_div_iff₀ (by positivity) (by norm_num)]
    push_cast
    linarith
  have total : 4 * (count : ℝ) * eta ≤ 1 / 100 := by
    have bound : (count : ℝ) ≤ 2 ^ 62 := by
      have small : count ≤ 2 ^ 62 := by
        unfold sizeMax at fits
        omega
      exact_mod_cast small
    rw [eta_eq]
    have := mul_le_mul_of_nonneg_right bound (by positivity : (0 : ℝ) ≤ 4 * (1 / 2 ^ 149))
    calc
      4 * (count : ℝ) * (1 / 2 ^ 149) = count * (4 * (1 / 2 ^ 149)) := by ring
      _ ≤ 2 ^ 62 * (4 * (1 / 2 ^ 149)) := this
      _ ≤ 1 / 100 := by norm_num
  unfold scaleEpsilon
  linarith

theorem le_scaleEpsilon (fits : count ≤ sizeMax / 4) (scale : ℝ) :
    12 * roundoff + eta / (2 * scale) ≤ scaleEpsilon count scale := by
  have few := scaleOperations_small fits
  have twelve : (12 : ℝ) ≤ scaleOperations count := by
    have many : 12 ≤ scaleOperations count := by
      unfold scaleOperations sumDepth
      omega
    exact_mod_cast many
  have depth : 12 * roundoff ≤ relativeBound (scaleOperations count) roundoff := by
    have more := mul_le_mul_of_nonneg_right twelve roundoff_pos.le
    have nonneg : 0 ≤ (scaleOperations count : ℝ) * roundoff := by
      have := roundoff_pos
      positivity
    unfold relativeBound
    apply more.trans
    rw [le_div_iff₀ (by linarith)]
    nlinarith
  have total : 0 ≤ 4 * (count : ℝ) * eta := by
    have := eta_pos
    positivity
  unfold scaleEpsilon
  push_cast
  linarith

theorem fp64ErrorBounds_eq {bitWidth : ℕ} (supported : Supported bitWidth)
    (input : NonzeroInput values count) :
    fp64ErrorBounds count bitWidth (exactScale values count) = .ok
      (exactScale values count * scaleEpsilon count (exactScale values count),
        exactScale values count * (2 / signedLimit bitWidth +
          2 * scaleEpsilon count (exactScale values count) /
            (1 - scaleEpsilon count (exactScale values count)) + 5 * roundoff)) := by
  have limit : signedLimitFor bitWidth = .ok (signedLimit bitWidth) := by
    rcases signedLimitFor_eq bitWidth with ⟨-, found⟩ | ⟨unsupported, -⟩
    · exact found
    · exact absurd supported unsupported
  have nonempty : 0 < count := by
    apply Nat.pos_of_ne_zero
    intro empty
    exact input.nonzero (by rw [empty]; rfl)
  have blocks : ((count : ℤ) + sqScaleBlockSize - 1) / sqScaleBlockSize =
      (blockCount count : ℕ) := by
    rw [blockCount_eq_ceil]
    unfold sqScaleBlockSize
    push_cast
    omega
  have operations : 12 + bitLength ((blockCount count : ℤ) - 1) = scaleOperations count := by
    have present := blockCount_pos nonempty.ne'
    have pred : ((blockCount count : ℤ) - 1).natAbs = blockCount count - 1 := by omega
    have padded := size_pred_eq_clog present
    unfold scaleOperations sumDepth paddedBits
    rw [bitLength, pred, padded]
    omega
  have unitRoundoff : (1 : ℝ) / (2 ^ 24 : ℕ) = roundoff := rfl
  have underflow : (1 : ℝ) / (2 ^ 149 : ℕ) = eta := by
    rw [eta_eq]
    norm_num
  unfold fp64ErrorBounds
  rw [if_neg (by omega), if_neg (not_le.mpr input.exactScale_pos), limit]
  dsimp only [bind, Except.bind, pure, Except.pure]
  rw [blocks, operations, unitRoundoff, underflow]
  unfold scaleEpsilon relativeBound
  push_cast
  rfl

end

/-! ## The elements -/

theorem step_error {u η ε scale exact limit v grid level value reference : ℝ}
    (uNonneg : 0 ≤ u) (ηPos : 0 < η) (ηSmall : η ≤ u / 1000000000) (uSmall : u ≤ 1 / 10000000)
    (exactPos : 0 < exact) (limitLarge : 7 ≤ limit) (vLe : v ≤ exact)
    (εSmall : ε < 1) (εLarge : 12 * u + η / (2 * exact) ≤ ε)
    (drift : |scale - exact| ≤ exact * ε)
    (scalePos : 0 < scale)
    (gridNear : |grid * scale / limit - v| ≤ (2 * u + u ^ 2) * v + η * scale)
    (levelNear : |level - grid| ≤ 1)
    (valueNear : |value - level / limit * scale| ≤ 2 * u * scale + η / 2 * scale + η / 2)
    (referenceNear : |reference - v| ≤ exact / limit) :
    |value - reference| ≤ exact * (2 / limit + 2 * ε / (1 - ε) + 5 * u) := by
  have limitPos : 0 < limit := by linarith
  have upper : scale ≤ exact * (1 + ε) := by
    have := (abs_le.mp drift).2
    linarith
  have εNonneg : 0 ≤ ε := by
    have : 0 ≤ η / (2 * exact) := by positivity
    linarith
  have stepDown : |(level - grid) * (scale / limit)| ≤ exact * (1 + ε) / limit := by
    rw [abs_mul, abs_of_pos (div_pos scalePos limitPos)]
    calc
      |level - grid| * (scale / limit) ≤ 1 * (scale / limit) :=
        mul_le_mul_of_nonneg_right levelNear (div_pos scalePos limitPos).le
      _ ≤ exact * (1 + ε) / limit := by
        rw [one_mul]
        exact div_le_div_of_nonneg_right upper limitPos.le
  have split : value - reference = (value - level / limit * scale) +
      (level - grid) * (scale / limit) + (grid * scale / limit - v) - (reference - v) := by
    field_simp
    ring
  have bounded : |value - reference| ≤ (2 * u * scale + η / 2 * scale + η / 2) +
      exact * (1 + ε) / limit + ((2 * u + u ^ 2) * v + η * scale) + exact / limit := by
    have first := abs_le.mp valueNear
    have second := abs_le.mp stepDown
    have third := abs_le.mp gridNear
    have last := abs_le.mp referenceNear
    rw [split, abs_le]
    constructor
    · linarith [first.1, second.1, third.1, last.1, first.2, second.2, third.2, last.2]
    · linarith [first.1, second.1, third.1, last.1, first.2, second.2, third.2, last.2]
  have halfEta : η / 2 ≤ exact * (ε - 12 * u) := by
    have scaled := mul_le_mul_of_nonneg_left εLarge exactPos.le
    have cancel : exact * (12 * u + η / (2 * exact)) = exact * (12 * u) + η / 2 := by
      field_simp
    rw [cancel] at scaled
    linarith
  have growth : 2 * ε ≤ 2 * ε / (1 - ε) := by
    rw [le_div_iff₀ (by linarith)]
    nlinarith
  have double : scale ≤ 2 * exact := by
    have := mul_le_mul_of_nonneg_left εSmall.le exactPos.le
    linarith
  have relative : 2 * u * scale ≤ 4 * (u * exact) := by
    have := mul_le_mul_of_nonneg_left double uNonneg
    linarith
  have absolute : η * scale ≤ u * exact := by
    have first := mul_le_mul_of_nonneg_left double ηPos.le
    have second := mul_le_mul_of_nonneg_right ηSmall exactPos.le
    have nonneg := mul_nonneg uNonneg exactPos.le
    linarith
  have grid : (2 * u + u ^ 2) * v ≤ 3 * (u * exact) := by
    have square : u ^ 2 ≤ u := by nlinarith
    calc
      (2 * u + u ^ 2) * v ≤ (2 * u + u ^ 2) * exact :=
        mul_le_mul_of_nonneg_left vLe (by positivity)
      _ ≤ (2 * u + u) * exact := mul_le_mul_of_nonneg_right (by linarith) exactPos.le
      _ = 3 * (u * exact) := by ring
  have steps : exact * (1 + ε) / limit + exact / limit ≤ exact * (2 / limit) + exact * ε / 7 := by
    have seventh : exact * ε / limit ≤ exact * ε / 7 :=
      div_le_div_of_nonneg_left (mul_nonneg exactPos.le εNonneg) (by norm_num) limitLarge
    have spread : exact * (1 + ε) / limit + exact / limit =
        exact * (2 / limit) + exact * ε / limit := by ring
    linarith
  have budget := mul_le_mul_of_nonneg_left growth exactPos.le
  have εExact := mul_nonneg exactPos.le εNonneg
  have uExact := mul_nonneg uNonneg exactPos.le
  rw [mul_add, mul_add]
  linarith

section

variable {s : ℕ} {scale : ℝ} {x : F32}

/-- The magnitude that the reference draws. -/
noncomputable def referenceMagnitude (s : ℕ) (scale : ℝ) (x : F32) (word : Word) : ℤ :=
  let scaled := min (|x.toReal| / scale * s) s
  let threshold : ℤ := ⌊(scaled - ⌊scaled⌋) * (1 <<< 32 : ℕ)⌋
  ⌊scaled⌋ + if decide ((word.toNat : ℤ) < threshold) then 1 else 0

theorem referenceValue_eq (word : Word) : referenceValue s scale x word =
    if x.sign then -((referenceMagnitude s scale x word : ℝ) / s * scale)
    else (referenceMagnitude s scale x word : ℝ) / s * scale := by
  show (((if signbit x && decide (referenceMagnitude s scale x word ≠ 0) then
      -referenceMagnitude s scale x word
    else referenceMagnitude s scale x word : ℤ) : ℝ) / s * scale) = _
  unfold signbit
  cases x.sign with
  | false => rfl
  | true =>
      by_cases zero : referenceMagnitude s scale x word = 0
      · simp [zero]
      · simp [zero, neg_div, neg_mul]

theorem referenceMagnitude_near (sPos : 0 < s) (scalePos : 0 < scale) (le : |x.toReal| ≤ scale)
    (word : Word) :
    |((referenceMagnitude s scale x word : ℝ) / s * scale - |x.toReal|)| ≤ scale / s := by
  have limitPos : (0 : ℝ) < s := by exact_mod_cast sPos
  have quotient : |x.toReal| / scale ≤ 1 := (div_le_one scalePos).mpr le
  have clamped : min (|x.toReal| / scale * s) (s : ℝ) = |x.toReal| / scale * s :=
    min_eq_left (mul_le_of_le_one_left limitPos.le quotient)
  have back : |x.toReal| / scale * s / s * scale = |x.toReal| := by
    field_simp
  have near : |(referenceMagnitude s scale x word : ℝ) - |x.toReal| / scale * s| ≤ 1 := by
    unfold referenceMagnitude
    rw [clamped]
    generalize |x.toReal| / scale * s = scaled
    have floorLe := Int.floor_le scaled
    have ltFloor := Int.lt_floor_add_one scaled
    dsimp only
    rw [abs_le]
    split
    · push_cast
      constructor <;> linarith
    · push_cast
      constructor <;> linarith
  have split : (referenceMagnitude s scale x word : ℝ) / s * scale - |x.toReal| =
      ((referenceMagnitude s scale x word : ℝ) - |x.toReal| / scale * s) * (scale / s) := by
    rw [sub_mul, ← mul_div_assoc, mul_div_right_comm, ← mul_div_assoc, mul_div_right_comm, back]
  rw [split, abs_mul, abs_of_pos (div_pos scalePos limitPos)]
  exact mul_le_of_le_one_left (div_pos scalePos limitPos).le near

end

section

variable [SymmetricArith Format.binary32] {s : ℕ} {scale x : F32}

theorem levelValue_zero (usable : ScaleUsable scale) (sPos : 0 < s) (sSmall : s < 2 ^ 24) :
    (levelValue s scale 0).toReal = 0 := by
  have zeroHas : HasUnits (ofInt Format.binary32 ((0 : ℕ) : ℤ)) (0 * unit) :=
    ofInt_hasUnits (Nat.two_pow_pos 24)
  have zeroReal : (ofInt Format.binary32 ((0 : ℕ) : ℤ)).toReal = 0 := by
    rw [ofInt_toReal (Nat.two_pow_pos 24), Nat.cast_zero]
  have ratio : Within 0 0 (ofInt Format.binary32 ((0 : ℕ) : ℤ) / ofInt Format.binary32 s) := by
    apply Within.of_rounds (div_rounds zeroHas.finite (ofInt_hasUnits sSmall).finite
      (ofInt_nonzero sPos sSmall)) isFloat_zero isFloat_zero
    · rw [zeroReal, zero_div]
    · rw [zeroReal, zero_div]
  have ratioReal := le_antisymm ratio.upper ratio.lower
  have product : Within 0 0 (levelValue s scale 0) := by
    apply Within.of_rounds (mul_rounds ratio.finite usable.finite) isFloat_zero isFloat_zero
    · rw [ratioReal, zero_mul]
    · rw [ratioReal, zero_mul]
  exact le_antisymm product.upper product.lower

theorem decodeCode_toReal (usable : ScaleUsable scale) (finite : isfinite x = true)
    (sPos : 0 < s) (sByte : s ≤ 127) (word : Word) :
    (decodeCode s scale (elementCode s scale x word)).toReal =
      if x.sign then -(levelValue s scale (codeMagnitude s scale x word)).toReal
      else (levelValue s scale (codeMagnitude s scale x word)).toReal := by
  have sSmall : s < 2 ^ 24 := lt_of_le_of_lt sByte (by norm_num)
  have level := storedLevel_eq usable finite sPos sByte word
  have within := codeMagnitude_le usable finite sPos sSmall word
  have decoded : decodeCode s scale (elementCode s scale x word) =
      ofInt Format.binary32 (storedLevel s scale x word) / ofInt Format.binary32 s * scale := rfl
  rw [decoded, level, decoded_signed usable sPos sSmall within]
  cases x.sign with
  | false => rfl
  | true =>
      by_cases zero : codeMagnitude s scale x word = 0
      · rw [zero, levelValue_zero usable sPos sSmall]
        simp [levelValue_zero usable sPos sSmall]
      · simp [zero]

end

/-! ## Records -/

section

variable {bitWidth : ℕ} {x : F32Array} {scale : F32}

theorem referenceFp64_eq (supported : Supported bitWidth) (input : NonzeroInput x.get x.count)
    (ids : StreamIds) {words : Option (List Word)}
    (length : ∀ list, words = some list → list.length = x.count) {drawn : ℕ → Word}
    (resolved : resolveWords ids (words.map wordsOf) = .ok drawn) :
    referenceFp64 (listOf x.get x.count) bitWidth ids.seed.toNat ids.tensorId.toNat
        ids.invocationId.toNat (words.map fun list => list.map fun word => (word.toNat : ℤ)) =
      .ok (exactScale x.get x.count, (List.range x.count).map fun i =>
        referenceValue (signedLimit bitWidth) (exactScale x.get x.count) (x.get i) (drawn i)) := by
  have narrow : bitWidth < 2 ^ 8 := by
    rcases supported with rfl | rfl <;> decide
  have limit : signedLimitFor bitWidth = .ok (signedLimit bitWidth) := by
    rcases signedLimitFor_eq bitWidth with ⟨-, found⟩ | ⟨unsupported, -⟩
    · exact found
    · exact absurd supported unsupported
  have same := oracleResolveWords_eq ids length
  rw [resolved] at same
  have drawnWords := toOption_eq_some.mp same
  unfold referenceFp64
  rw [unsigned_eq narrow, valuesFp32_eq, if_pos input.finite]
  dsimp only [bind, Except.bind, pure, Except.pure]
  rw [limit]
  dsimp only
  rw [scaleFp64_eq input, length_listOf, drawnWords]
  dsimp only
  rw [if_neg input.exactScale_pos.ne', listOf, List.zipWith_map, List.zipWith_self]

variable [SymmetricArith Format.binary32] (accurate : (rounding Format.binary32).Accurate)

include accurate in
theorem decodeCode_near_reference (supported : Supported bitWidth)
    (input : NonzeroInput x.get x.count) (computed : tensorScale x.get x.count = .ok scale) {i : ℕ}
    (below : i < x.count) (word : Word) :
    |(decodeCode (signedLimit bitWidth) scale
          (elementCode (signedLimit bitWidth) scale (x.get i) word)).toReal -
        referenceValue (signedLimit bitWidth) (exactScale x.get x.count) (x.get i) word| ≤
      exactScale x.get x.count * (2 / signedLimit bitWidth +
        2 * scaleEpsilon x.count (exactScale x.get x.count) /
          (1 - scaleEpsilon x.count (exactScale x.get x.count)) + 5 * roundoff) := by
  have fits := x.fits
  have sPos := signedLimit_pos bitWidth
  have sByte := signedLimit_le bitWidth
  have sSmall : signedLimit bitWidth < 2 ^ 24 := lt_of_le_of_lt sByte (by norm_num)
  have sLarge : 7 ≤ signedLimit bitWidth := by
    rcases supported with rfl | rfl <;> decide
  have stored := input.tensorScale_eq
  rw [computed] at stored
  have finite : isfinite (scaleF x.get x.count) = true := by
    by_contra infinite
    rw [if_neg infinite] at stored
    cases stored
  rw [if_pos finite] at stored
  obtain rfl := Except.ok.inj stored
  have usable : ScaleUsable (scaleF x.get x.count) :=
    ScaleUsable.of_pos finite (input.maxAbs_pos.trans_le (input.maxAbs_le_scale fits))
  have valueFinite := input.value_finite below
  have magnitude := input.magnitude_le below
  have error := step_error roundoff_pos.le eta_pos eta_small roundoff_small input.exactScale_pos
    (by exact_mod_cast sLarge) (magnitude.trans input.maxAbs_le_exactScale)
    (scaleEpsilon_lt_one input fits) (le_scaleEpsilon fits _)
    (input.scale_error accurate fits finite) usable.toReal_pos
    (scaledValue_error accurate usable valueFinite sPos sSmall (by omega)
      (magnitude.trans (input.maxAbs_le_scale fits)))
    (codeMagnitude_near usable valueFinite sPos sSmall word)
    (levelValue_error accurate usable sPos sSmall
      (codeMagnitude_le usable valueFinite sPos sSmall word))
    (referenceMagnitude_near sPos input.exactScale_pos
      (magnitude.trans input.maxAbs_le_exactScale) word)
  rw [decodeCode_toReal usable valueFinite sPos sByte, referenceValue_eq]
  cases (x.get i).sign with
  | false => exact error
  | true =>
      rw [if_pos rfl, if_pos rfl, ← neg_sub_neg, neg_neg, neg_neg, abs_sub_comm]
      exact error

end

section

variable {bitWidth : ℕ} {x : F32Array} {ids : StreamIds} {record : TensorRecord}

/-- The oracle decodes a stored record. -/
theorem decodeRecord_recordBytes [RoundedArith Format.binary32] {prescribedScale : Option F32}
    {prescribedWords : Ptr Word}
    (found : tensorRecord bitWidth x ids prescribedScale prescribedWords = .ok record) :
    decodeRecord (recordBytes bitWidth x.count record) = .ok ((List.range x.count).map fun i =>
      decodeCode (signedLimit bitWidth) (canonicalScale record.scale) (record.codes i)) := by
  obtain ⟨supported, -, -, -⟩ := tensorRecord_ok found
  have valid := contentValid_of_tensorRecord found
  have fits := x.fits
  have small : x.count < 2 ^ 64 := by
    unfold sizeMax at fits
    omega
  have values : recordValues (recordBytes bitWidth x.count record) =
      (List.range x.count).map fun i =>
        decodeCode (signedLimit bitWidth) (canonicalScale record.scale) (record.codes i) := by
    rw [recordValues, recordCount_recordBytes small, recordBits_recordBytes supported,
      recordScale_recordBytes]
    apply List.map_congr_left
    intro i inside
    have below := List.mem_range.mp inside
    rw [recordCode_recordBytes supported below (valid.codes.fits below)]
  rcases decodeRecord_spec (recordBytes bitWidth x.count record) with ⟨-, decoded⟩ | ⟨invalid, -⟩
  · rw [decoded, values]
  · exact absurd (grammar_recordBytes supported small valid) invalid

/-- The scale and every decoded value of a stored record are within the bounds of the oracle, for
the reference with the same words. -/
theorem tensorRecord_within_bounds [SymmetricArith Format.binary32]
    (accurate : (rounding Format.binary32).Accurate) {words : Option (List Word)}
    (length : ∀ list, words = some list → list.length = x.count)
    (found : tensorRecord bitWidth x ids none (words.map wordsOf) = .ok record)
    (nonzero : SomeNonzero x.get x.count) :
    ∃ fp64Scale reference scaleBound reconstructionBound decoded,
      referenceFp64 (listOf x.get x.count) bitWidth ids.seed.toNat ids.tensorId.toNat
          ids.invocationId.toNat
          (words.map fun list => list.map fun word => (word.toNat : ℤ)) =
        .ok (fp64Scale, reference) ∧
      fp64ErrorBounds x.count bitWidth fp64Scale = .ok (scaleBound, reconstructionBound) ∧
      decodeRecord (recordBytes bitWidth x.count record) = .ok decoded ∧
      reference.length = x.count ∧ decoded.length = x.count ∧
      |record.scale.toReal - fp64Scale| ≤ scaleBound ∧
      ∀ i < x.count,
        |(decoded.getD i zeroF).toReal - reference.getD i 0| ≤ reconstructionBound := by
  obtain ⟨supported, ok, scaled, drawn, resolved, codes⟩ := tensorRecord_ok found
  have finite := (encodeStatus_ok_iff.mp ok).2.2.1
  have input : NonzeroInput x.get x.count := ⟨finite, maxMag_ne_zero_iff.mpr nonzero⟩
  have computed : tensorScale x.get x.count = .ok record.scale := scaled
  have fits := x.fits
  have positive : 0 < record.scale.toReal ∧ isfinite record.scale = true ∧
      record.scale = scaleF x.get x.count := by
    have stored := input.tensorScale_eq
    rw [computed] at stored
    split at stored
    · rename_i bounded
      have same := Except.ok.inj stored
      rw [same]
      exact ⟨input.maxAbs_pos.trans_le (input.maxAbs_le_scale fits), bounded, rfl⟩
    · cases stored
  obtain ⟨scalePos, bounded, same⟩ := positive
  have usable := ScaleUsable.of_pos bounded scalePos
  have canonical : canonicalScale record.scale = record.scale := by
    unfold canonicalScale
    rw [if_neg]
    rw [eq_zeroF_iff]
    exact usable.nonzero
  refine ⟨exactScale x.get x.count, _, _, _, _,
    referenceFp64_eq supported input ids length resolved, fp64ErrorBounds_eq supported input,
    decodeRecord_recordBytes found, ?_, ?_, ?_, ?_⟩
  · rw [List.length_map, List.length_range]
  · rw [List.length_map, List.length_range]
  · rw [same]
    exact input.scale_error accurate fits (same ▸ bounded)
  · intro i below
    rw [List.getD_eq_getElem?_getD, List.getD_eq_getElem?_getD, List.getElem?_map,
      List.getElem?_map, List.getElem?_range below, Option.map_some, Option.map_some,
      Option.getD_some, Option.getD_some, canonical, codes]
    exact decodeCode_near_reference accurate supported input computed below (drawn i)

end

end Stoquant

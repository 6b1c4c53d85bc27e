import Stoquant.Codec.Stored

/-!
# Order of the codes

For a fixed scale and random word the code of an element does not decrease with
the element, and the code of the negated element lies opposite the centre.  The
payload stores at each place the code of the element of that place.
-/

namespace Stoquant

open Ieee

/-! ## Levels of a magnitude -/

/-- The level that a random word selects for a magnitude in units. -/
def gridLevel (units word : ℕ) : ℕ :=
  units / unit + if word < units % unit * 2 ^ 32 / unit then 1 else 0

theorem gridLevel_mono {units units' : ℕ} (le : units ≤ units') (word : ℕ) :
    gridLevel units word ≤ gridLevel units' word := by
  have quotients : units / unit ≤ units' / unit := Nat.div_le_div_right le
  unfold gridLevel
  rcases Nat.eq_or_lt_of_le quotients with same | below
  · -- in one cell the fraction grows, and with it the threshold
    have fractions : units % unit ≤ units' % unit := by
      have parts := Nat.div_add_mod units unit
      have parts' := Nat.div_add_mod units' unit
      rw [same] at parts
      omega
    have thresholds : units % unit * 2 ^ 32 / unit ≤ units' % unit * 2 ^ 32 / unit :=
      Nat.div_le_div_right (Nat.mul_le_mul_right _ fractions)
    rw [same]
    split
    · rename_i drawn
      rw [if_pos (drawn.trans_le thresholds)]
    · exact Nat.add_le_add_left (Nat.zero_le _) _
  · -- across a cell border one draw reaches at most the next level
    calc
      units / unit + (if word < units % unit * 2 ^ 32 / unit then 1 else 0) ≤
          units / unit + 1 := by
        apply Nat.add_le_add_left
        split <;> omega
      _ ≤ units' / unit := below
      _ ≤ units' / unit + if word < units' % unit * 2 ^ 32 / unit then 1 else 0 :=
        Nat.le_add_right _ _

theorem gridLevel_antitone (units : ℕ) {word word' : ℕ} (le : word ≤ word') :
    gridLevel units word' ≤ gridLevel units word := by
  unfold gridLevel
  apply Nat.add_le_add_left
  split
  · rename_i drawn
    rw [if_pos (lt_of_le_of_lt le drawn)]
  · exact Nat.zero_le _

theorem gridLevel_zero (word : ℕ) : gridLevel 0 word = 0 := by
  simp [gridLevel]

/-! ## Magnitudes on the grid -/

section

variable [RoundedArith Format.binary32] {s : ℕ} {scale x y : F32}

theorem codeMagnitude_eq (s : ℕ) (scale value : F32) (word : Word) :
    codeMagnitude s scale value word = gridLevel (scaledUnits s scale value) word.toNat := rfl

omit [RoundedArith Format.binary32] in
theorem toReal_fabsf_le (le : x.mag ≤ y.mag) : (fabsf x).toReal ≤ (fabsf y).toReal := by
  apply Fp.toReal_le_iff.mpr
  rw [fabsf, fabsf, Fp.key_abs, Fp.key_abs]
  exact_mod_cast le

omit [RoundedArith Format.binary32] in
theorem ScaleUsable.toReal_pos (usable : ScaleUsable scale) : 0 < scale.toReal := by
  apply Fp.toReal_pos_iff.mpr
  have nonzero := usable.nonzero
  rw [Fp.key, usable.sign, if_neg Bool.false_ne_true]
  omega

/-- Division by the scale keeps the order of magnitudes. -/
theorem ratio_mono (usable : ScaleUsable scale) (xFinite : isfinite x = true)
    (yFinite : isfinite y = true) (le : x.mag ≤ y.mag) :
    (fabsf x / scale).key ≤ (fabsf y / scale).key := by
  have xAbs : (fabsf x).isFinite = true := xFinite
  have yAbs : (fabsf y).isFinite = true := yFinite
  rw [(div_rounds xAbs usable.finite usable.nonzero).key,
    (div_rounds yAbs usable.finite usable.nonzero).key]
  apply (rounding Format.binary32).mono
  exact div_le_div_of_nonneg_right (toReal_fabsf_le le) usable.toReal_pos.le

/-- The clamped magnitude on the grid keeps the order of magnitudes. -/
theorem scaledValue_mono (usable : ScaleUsable scale) (xFinite : isfinite x = true)
    (yFinite : isfinite y = true) (sPos : 0 < s) (sSmall : s < 2 ^ 24) (le : x.mag ≤ y.mag) :
    (scaledValue s scale x).key ≤ (scaledValue s scale y).key := by
  have limitHas := ofInt_hasUnits sSmall
  have xBelow := (scaledValue_spec usable xFinite sPos sSmall).2.2
  by_cases above : (ofInt Format.binary32 s).lt
      (fabsf y / scale * ofInt Format.binary32 s) = true
  · have clamped : scaledValue s scale y = ofInt Format.binary32 s := if_pos above
    rw [clamped]
    exact xBelow
  have yValue : scaledValue s scale y = fabsf y / scale * ofInt Format.binary32 s :=
    if_neg above
  have ratios := ratio_mono usable xFinite yFinite le
  have yRatio := ratio_isFinite usable yFinite sPos sSmall above
  have xRatio : (fabsf x / scale).isFinite = true := by
    have sign := ratio_sign usable xFinite
    have nonneg : 0 ≤ (fabsf x / scale).key := by
      rw [Fp.key, sign, if_neg Bool.false_ne_true]
      omega
    have infPos := Format.binary32.infMag_pos
    have upper := (Fp.isFinite_iff_key.mp yRatio).2
    apply Fp.isFinite_iff_key.mpr
    omega
  have products : (fabsf x / scale * ofInt Format.binary32 s).key ≤
      (fabsf y / scale * ofInt Format.binary32 s).key := by
    rw [(mul_rounds xRatio limitHas.finite).key, (mul_rounds yRatio limitHas.finite).key]
    apply (rounding Format.binary32).mono
    apply mul_le_mul_of_nonneg_right (Fp.toReal_le_iff.mpr ratios)
    exact Fp.toReal_nonneg_iff.mpr limitHas.key_nonneg
  have xValue : scaledValue s scale x = fabsf x / scale * ofInt Format.binary32 s := by
    apply if_neg
    intro xAbove
    have yLimit := (scaledValue_spec usable yFinite sPos sSmall).2.2
    rw [yValue] at yLimit
    simp only [Fp.lt, Bool.and_eq_true, decide_eq_true_eq] at xAbove
    omega
  rw [xValue, yValue]
  exact products

theorem scaledUnits_mono (usable : ScaleUsable scale) (xFinite : isfinite x = true)
    (yFinite : isfinite y = true) (sPos : 0 < s) (sSmall : s < 2 ^ 24) (le : x.mag ≤ y.mag) :
    scaledUnits s scale x ≤ scaledUnits s scale y :=
  ((scaledValue_hasUnits usable xFinite sPos sSmall).key_le
    (scaledValue_hasUnits usable yFinite sPos sSmall)).mp
      (scaledValue_mono usable xFinite yFinite sPos sSmall le)

theorem scaledUnits_of_zero (usable : ScaleUsable scale) (finite : isfinite x = true)
    (sSmall : s < 2 ^ 24) (zero : x.mag = 0) : scaledUnits s scale x = 0 := by
  have absFinite : (fabsf x).isFinite = true := finite
  have limitHas := ofInt_hasUnits sSmall
  have absZero : (fabsf x).toReal = 0 := Fp.toReal_eq_zero_iff.mpr zero
  have zeroValue : (Fp.zero Format.binary32).toReal = 0 :=
    Fp.toReal_eq_zero_iff.mpr Fp.mag_zero
  have ratioZero : SameValue (fabsf x / scale) (Fp.zero Format.binary32) := by
    apply (div_rounds absFinite usable.finite usable.nonzero).of_exact Fp.isFinite_zero
    rw [absZero, zeroValue, zero_div]
  have ratioFinite : (fabsf x / scale).isFinite = true := by
    rw [ratioZero.isFinite]
    exact Fp.isFinite_zero
  have productZero : SameValue (fabsf x / scale * ofInt Format.binary32 s)
      (Fp.zero Format.binary32) := by
    apply (mul_rounds ratioFinite limitHas.finite).of_exact Fp.isFinite_zero
    rw [Fp.toReal_eq_zero_iff.mpr (ratioZero.mag.trans Fp.mag_zero), zeroValue, zero_mul]
  have value : scaledValue s scale x = fabsf x / scale * ofInt Format.binary32 s := by
    apply if_neg
    intro above
    have nonneg := limitHas.key_nonneg
    simp only [Fp.lt, Bool.and_eq_true, decide_eq_true_eq] at above
    rw [productZero.key, Fp.key_zero] at above
    omega
  rw [scaledUnits, value, productZero.mag, Fp.mag_zero, units_zero]

/-! ## Codes -/

/-- The stored code of an element, as a number. -/
theorem elementCode_add (usable : ScaleUsable scale) (finite : isfinite x = true)
    (sPos : 0 < s) (sByte : s ≤ 127) (word : Word) :
    ((elementCode s scale x word).toNat : ℤ) =
      s + if x.sign then -(codeMagnitude s scale x word : ℤ) else codeMagnitude s scale x word := by
  have sSmall : s < 2 ^ 24 := lt_of_le_of_lt sByte (by norm_num)
  rw [elementCode_toNat usable finite sPos sByte, signedCode_eq usable finite sPos sSmall,
    add_comm]

theorem elementCode_mono (usable : ScaleUsable scale) (xFinite : isfinite x = true)
    (yFinite : isfinite y = true) (sPos : 0 < s) (sByte : s ≤ 127) (le : x.key ≤ y.key)
    (word : Word) :
    (elementCode s scale x word).toNat ≤ (elementCode s scale y word).toNat := by
  have sSmall : s < 2 ^ 24 := lt_of_le_of_lt sByte (by norm_num)
  have xCode := elementCode_add usable xFinite sPos sByte word
  have yCode := elementCode_add usable yFinite sPos sByte word
  have larger : x.mag ≤ y.mag → codeMagnitude s scale x word ≤ codeMagnitude s scale y word :=
    fun mags => gridLevel_mono (scaledUnits_mono usable xFinite yFinite sPos sSmall mags) _
  have smaller : y.mag ≤ x.mag → codeMagnitude s scale y word ≤ codeMagnitude s scale x word :=
    fun mags => gridLevel_mono (scaledUnits_mono usable yFinite xFinite sPos sSmall mags) _
  have centre : ∀ {z : F32}, isfinite z = true → z.mag = 0 →
      codeMagnitude s scale z word = 0 := by
    intro z finite zero
    rw [codeMagnitude_eq, scaledUnits_of_zero usable finite sSmall zero, gridLevel_zero]
  unfold Fp.key at le
  cases xSign : x.sign with
  | true =>
      rw [xSign, if_pos rfl] at xCode le
      cases ySign : y.sign with
      | true =>
          rw [ySign, if_pos rfl] at yCode le
          have mags := smaller (by omega)
          omega
      | false =>
          rw [ySign, if_neg Bool.false_ne_true] at yCode
          omega
  | false =>
      rw [xSign, if_neg Bool.false_ne_true] at xCode le
      cases ySign : y.sign with
      | true =>
          -- a negative element is not below a positive one unless both are zeros
          rw [ySign, if_pos rfl] at yCode le
          have xZero := centre xFinite (by omega)
          have yZero := centre yFinite (by omega)
          omega
      | false =>
          rw [ySign, if_neg Bool.false_ne_true] at yCode le
          have mags := larger (by omega)
          omega

theorem elementCode_neg (usable : ScaleUsable scale) (finite : isfinite x = true)
    (sPos : 0 < s) (sByte : s ≤ 127) (word : Word) :
    (elementCode s scale x.neg word).toNat + (elementCode s scale x word).toNat = 2 * s := by
  have negFinite : isfinite x.neg = true := finite
  have code := elementCode_add usable finite sPos sByte word
  have negCode := elementCode_add usable negFinite sPos sByte word
  have same : codeMagnitude s scale x.neg word = codeMagnitude s scale x word := rfl
  rw [same, Fp.sign_neg] at negCode
  cases sign : x.sign with
  | true =>
      simp only [sign] at code negCode
      simp at code negCode
      omega
  | false =>
      simp only [sign] at code negCode
      simp at code negCode
      omega

theorem elementCode_antitone (usable : ScaleUsable scale) (finite : isfinite x = true)
    (sPos : 0 < s) (sByte : s ≤ 127) {word word' : Word} (le : word.toNat ≤ word'.toNat) :
    |((elementCode s scale x word').toNat : ℤ) - s| ≤
      |((elementCode s scale x word).toNat : ℤ) - s| := by
  have distance : ∀ w, |((elementCode s scale x w).toNat : ℤ) - s| = codeMagnitude s scale x w := by
    intro w
    rw [elementCode_add usable finite sPos sByte, add_sub_cancel_left]
    split
    · rw [abs_neg, Nat.abs_cast]
    · rw [Nat.abs_cast]
  rw [distance, distance]
  exact_mod_cast gridLevel_antitone _ le

end

/-! ## Stored codes -/

/-- The code of an element in a payload: a byte, or a nibble with the low one first. -/
def storedCode (bitWidth : ℕ) (payload : ℕ → Byte) (i : ℕ) : Byte :=
  if bitWidth = sqQ8Bits then payload i
  else if i % 2 = 0 then payload (i / 2) &&& 0x0F#8
  else payload (i / 2) >>> 4

theorem storedCode_packCodes {bitWidth count i : ℕ} (supported : Supported bitWidth)
    {codes : ℕ → Byte} (payload : ℕ → Byte) (below : i < count)
    (fits : bitWidth ≠ sqQ8Bits → (codes i).toNat < 16) :
    storedCode bitWidth (packCodes bitWidth count codes payload) i = codes i := by
  unfold storedCode
  by_cases q8 : bitWidth = sqQ8Bits
  · rw [if_pos q8, q8, packCodes_q8]
    exact if_pos below
  · have inside : i / 2 < sqPayloadSize bitWidth count := by
      rw [sqPayloadSize_eq, if_pos (supported.eq_q4 q8)]
      omega
    rw [if_neg q8, packCodes, if_pos inside, payloadByte, if_neg q8]
    by_cases even : i % 2 = 0
    · have index : 2 * (i / 2) = i := by omega
      rw [if_pos even, index]
      split
      · exact low_nibble _ _ (fits q8)
      · have alone := low_nibble (codes i) 0#8 (fits q8)
        simpa using alone
    · have index : 2 * (i / 2) + 1 = i := by omega
      rw [if_neg even, index, if_pos below]
      exact high_nibble _ _ (fits q8)

section

variable [RoundedArith Format.binary32]

theorem elementCode_le (bitWidth : ℕ) {scale x : F32} (finite : isfinite scale = true)
    (notBelow : scale.lt zeroF = false) (xFinite : isfinite x = true) (word : Word) :
    (elementCode (signedLimit bitWidth) scale x word).toNat ≤ 2 * signedLimit bitWidth := by
  cases zero : scale.eq zeroF with
  | true =>
      rw [elementCode_zero zero (signedLimit_le bitWidth)]
      omega
  | false =>
      have usable := ScaleUsable.of_checks finite notBelow zero
      have opposite := elementCode_neg usable xFinite (signedLimit_pos bitWidth)
        (signedLimit_le bitWidth) word
      omega

theorem storedCode_sqEncodePayload {bitWidth count : ℕ} {values : ℕ → F32} {scale : F32}
    {words : ℕ → Word} {payload out : ℕ → Byte}
    (accepted : sqEncodePayload bitWidth (some values) count scale (some words)
      (some payload) = (.ok, some out)) {i : ℕ} (below : i < count) :
    storedCode bitWidth out i =
      elementCode (signedLimit bitWidth) scale (values i) (words i) := by
  by_cases supported : Supported bitWidth
  swap
  · have unsupported : bitWidth ≠ sqQ4Bits ∧ bitWidth ≠ sqQ8Bits :=
      not_or.mp supported
    simp [sqEncodePayload, sqEncodePayloadPrologue, unsupported] at accepted
  rw [sqEncodePayload_eq supported] at accepted
  obtain ⟨ok, stored⟩ := Prod.ext_iff.mp accepted
  dsimp only at ok stored
  rw [if_pos ok] at stored
  obtain ⟨finite, notBelow, allFinite, -⟩ := encodeStatus_ok_iff.mp ok
  rw [← Option.some.inj stored]
  apply storedCode_packCodes supported payload below
  intro notQ8
  have q4 := supported.eq_q4 notQ8
  have bound := elementCode_le bitWidth finite notBelow
    (allFinite_iff.mp allFinite i below) (words i)
  have limit : signedLimit bitWidth = 7 := by
    rw [q4]
    rfl
  omega

/-- `x <= y` on floats. -/
def lessEqual (x y : F32) : Bool := x.lt y || x.eq y

omit [RoundedArith Format.binary32] in
theorem key_le_of_lessEqual {x y : F32} (le : lessEqual x y = true) : x.key ≤ y.key := by
  simp only [lessEqual, Fp.lt, Fp.eq, Bool.or_eq_true, Bool.and_eq_true,
    decide_eq_true_eq] at le
  omega

/-- The encoder is monotone, odd and local, and its draws move codes towards the centre
as the random word grows. -/
theorem encoder_monotone_odd_local :
    (∀ (bitWidth : ℕ) (scale : F32), isfinite scale = true → zeroF.lt scale = true →
      let s := signedLimit bitWidth
      (∀ x y word, isfinite x = true → isfinite y = true → lessEqual x y = true →
        (elementCode s scale x word).toNat ≤ (elementCode s scale y word).toNat) ∧
      (∀ x word, isfinite x = true →
        (elementCode s scale x.neg word).toNat = 2 * s - (elementCode s scale x word).toNat ∧
          (elementCode s scale x word).toNat ≤ 2 * s) ∧
      (∀ x (word word' : Word), isfinite x = true → word.toNat ≤ word'.toNat →
        |((elementCode s scale x word').toNat : ℤ) - s| ≤
          |((elementCode s scale x word).toNat : ℤ) - s|)) ∧
    (∀ (bitWidth count : ℕ) (values : ℕ → F32) (scale : F32) (words : ℕ → Word)
      (payload out : ℕ → Byte),
      sqEncodePayload bitWidth (some values) count scale (some words) (some payload) =
          (.ok, some out) →
        ∀ i < count, storedCode bitWidth out i =
          elementCode (signedLimit bitWidth) scale (values i) (words i)) := by
  constructor
  · intro bitWidth scale finite positive
    have sPos := signedLimit_pos bitWidth
    have sByte := signedLimit_le bitWidth
    have usable : ScaleUsable scale := by
      simp only [Fp.lt, zeroF, Fp.key_zero, Bool.and_eq_true, decide_eq_true_eq] at positive
      have above := positive.2
      have sign : scale.sign = false := by
        cases negative : scale.sign with
        | false => rfl
        | true =>
            rw [Fp.key, negative, if_pos rfl] at above
            omega
      refine ⟨finite, sign, ?_⟩
      rw [Fp.key, sign, if_neg Bool.false_ne_true] at above
      omega
    refine ⟨?_, ?_, ?_⟩
    · intro x y word xFinite yFinite le
      exact elementCode_mono usable xFinite yFinite sPos sByte (key_le_of_lessEqual le) word
    · intro x word xFinite
      have opposite := elementCode_neg usable xFinite sPos sByte word
      constructor
      · omega
      · omega
    · intro x word word' xFinite le
      exact elementCode_antitone usable xFinite sPos sByte le
  · intro bitWidth count values scale words payload out accepted i below
    exact storedCode_sqEncodePayload accepted below

end

/-- `1.0f`. -/
def oneF : F32 := ofF32Bits 0x3F800000#32

/-- `0.3f`. -/
def threeTenthsF : F32 := ofF32Bits 0x3E99999A#32

theorem encodeStatus_threeTenths : encodeStatus (fun _ => threeTenthsF) 3 oneF = .ok := by
  decide +kernel

theorem encoder_monotone_odd_local_threeTenths :
    letI := nearestEven Format.binary32
    let code := elementCode 127 oneF threeTenthsF 7#32
    (elementCode 127 oneF threeTenthsF.neg 7#32).toNat = 2 * 127 - code.toNat ∧
      storedCode sqQ8Bits (packCodes sqQ8Bits 3 (fun _ => code) fun _ => 0#8) 2 = code := by
  let _ := nearestEven Format.binary32
  have accepted : sqEncodePayload sqQ8Bits (some fun _ => threeTenthsF) 3 oneF
      (some fun _ => 7#32) (some fun _ => 0#8) = (.ok, some (packCodes sqQ8Bits 3
        (fun _ => elementCode 127 oneF threeTenthsF 7#32) fun _ => 0#8)) := by
    rw [sqEncodePayload_eq (Or.inr rfl), encodeStatus_threeTenths, if_pos rfl]
    rfl
  constructor
  · exact ((encoder_monotone_odd_local.1 sqQ8Bits oneF (by decide +kernel)
      (by decide +kernel)).2.1 threeTenthsF 7#32 (by decide +kernel)).1
  · exact encoder_monotone_odd_local.2 sqQ8Bits 3 _ oneF _ _ _ accepted 2 (by decide)

end Stoquant

import Stoquant.Codec
import Stoquant.Rng.Philox
import Stoquant.Quantizer.Magnitude

/-!
# Encoding of a payload

The element rule of the quantizer, the checks shared by the CPU backends, and
the scalar encoder of `quantizer.c`.
-/

namespace Stoquant

open Ieee Loop

/-- `sq_validate_input`. -/
def sqValidateInput (values : Ptr F32) (count : ℕ) : SqStatus :=
  match values with
  | none => if count ≠ 0 then .errArgument else .ok
  | some values =>
      if (List.range count).all fun i => isfinite (values i) then .ok
      else .errNonfinite

/-- `sq_encode_input_scan`: the status and whether some value is nonzero. -/
abbrev SqEncodeInputScan := (ℕ → F32) → ℕ → SqStatus × Bool

/-- `scan_scalar_encode_input`. -/
def scanScalarEncodeInput : SqEncodeInputScan := fun values count =>
  let status := sqValidateInput (some values) count
  if status ≠ .ok then (status, false)
  else (.ok, (List.range count).any fun i => !(values i).eq zeroF)

/-- `sq_encode_payload_state`. -/
structure SqEncodePayloadState where
  signedLimit : ℕ
  skipEncoding : Bool

/-- The payload of a zero scale: every code is the centre. -/
def centrePayload (bitWidth count limit : ℕ) (payload : ℕ → Byte) : ℕ → Byte :=
  if bitWidth = sqQ8Bits then
    upTo count
      (fun i payload => Function.update payload i (BitVec.ofNat 8 limit)) payload
  else
    let pairs := count / 2
    let centre : Byte := BitVec.ofNat 8 limit &&& 0x0F#8
    let payload := upTo pairs
      (fun i payload => Function.update payload i (centre ||| centre <<< 4)) payload
    if count % 2 = 1 then Function.update payload pairs centre else payload

/-- `sq_encode_payload_prologue`: the status, the state and the payload. -/
def sqEncodePayloadPrologue (bitWidth : ℕ) (values : Ptr F32) (count : ℕ)
    (scale : F32) (words : Ptr Word) (payload : Ptr Byte)
    (scan : Option SqEncodeInputScan) (state : Option SqEncodePayloadState) :
    SqStatus × Option SqEncodePayloadState × Ptr Byte :=
  match state with
  | none => (.errArgument, none, payload)
  | some state =>
      let state := { state with skipEncoding := false }
      if bitWidth ≠ sqQ4Bits ∧ bitWidth ≠ sqQ8Bits then
        (.errBitWidth, some state, payload)
      else
        let state := { state with signedLimit := signedLimit bitWidth }
        if count ≠ 0 ∧ (values = none ∨ words = none ∨ payload = none) then
          (.errArgument, some state, payload)
        else if !isfinite scale || scale.lt zeroF then
          (.errScale, some state, payload)
        else if count = 0 ∧ scale.eq zeroF = false then
          (.errScale, some state, payload)
        else if count = 0 then
          (.ok, some { state with skipEncoding := true }, payload)
        else
          match scan, values, payload with
          | some scan, some values, some bytes =>
              let (status, hasNonzero) := scan values count
              if status ≠ .ok then (status, some state, payload)
              else if !hasNonzero && !scale.eq zeroF then
                (.errScale, some state, payload)
              else if scale.eq zeroF then
                if hasNonzero then (.errScale, some state, payload)
                else
                  (.ok, some { state with skipEncoding := true },
                    some (centrePayload bitWidth count state.signedLimit bytes))
              else (.ok, some state, payload)
          | _, _, _ => (.errArgument, some state, payload)

section

variable [Arith Format.binary32]

/-- The magnitude on the grid, clamped to the signed limit. -/
def scaledValue (s : ℕ) (scale value : F32) : F32 :=
  let limit := ofInt Format.binary32 s
  let scaled := fabsf value / scale * limit
  if limit.lt scaled then limit else scaled

/-- The signed code of an element: the level below or the one above, as the
random word decides, with the sign of the element. -/
def signedCode (s : ℕ) (scale value : F32) (word : Word) : ℤ :=
  let scaled := scaledValue s scale value
  let lowerFloat := floorf scaled
  let probability := scaled - lowerFloat
  let magnitude := lowerFloat.trunc + sqBernoulli word probability
  if signbit value && decide (magnitude ≠ 0) then -magnitude else magnitude

/-- The 8-bit loop of `sq_encode_payload`. -/
def encodeQ8 (values : ℕ → F32) (count : ℕ) (scale : F32) (words : ℕ → Word)
    (s : ℕ) (payload : ℕ → Byte) : ℕ → Byte :=
  upTo count
    (fun i payload => Function.update payload i
      (BitVec.ofInt 8 (signedCode s scale (values i) (words i) + s))) payload

/-- The 4-bit loop of `sq_encode_payload` and its odd last element. -/
def encodeQ4 (values : ℕ → F32) (count : ℕ) (scale : F32) (words : ℕ → Word)
    (s : ℕ) (payload : ℕ → Byte) : ℕ → Byte :=
  let pairs := count / 2
  let payload := upTo pairs
    (fun i payload =>
      let sc0 := signedCode s scale (values (2 * i)) (words (2 * i))
      let sc1 := signedCode s scale (values (2 * i + 1)) (words (2 * i + 1))
      Function.update payload i
        ((BitVec.ofInt 8 (sc0 + s) &&& 0x0F#8) |||
          (BitVec.ofInt 8 (sc1 + s) &&& 0x0F#8) <<< 4)) payload
  if count % 2 = 1 then
    let sc := signedCode s scale (values (count - 1)) (words (count - 1))
    Function.update payload pairs (BitVec.ofInt 8 (sc + s) &&& 0x0F#8)
  else payload

/-- `sq_encode_payload`: the status and the payload. -/
def sqEncodePayload (bitWidth : ℕ) (values : Ptr F32) (count : ℕ) (scale : F32)
    (words : Ptr Word) (payload : Ptr Byte) : SqStatus × Ptr Byte :=
  let prologue := sqEncodePayloadPrologue bitWidth values count scale words
    payload (some scanScalarEncodeInput) (some ⟨0, false⟩)
  match prologue, values, words with
  | (.ok, some state, some bytes), some values, some words =>
      if state.skipEncoding then (.ok, some bytes)
      else
        (.ok, some
          (if bitWidth = sqQ8Bits then
            encodeQ8 values count scale words state.signedLimit bytes
          else encodeQ4 values count scale words state.signedLimit bytes))
  | (status, _, payload), _, _ => (status, payload)

/-- The code stored for an element. -/
def elementCode (s : ℕ) (scale value : F32) (word : Word) : Byte :=
  if scale.eq zeroF then BitVec.ofNat 8 s
  else BitVec.ofInt 8 (signedCode s scale value word + s)

end

/-- Byte `k` of the payload that holds given codes. -/
def payloadByte (bitWidth count : ℕ) (codes : ℕ → Byte) (k : ℕ) : Byte :=
  if bitWidth = sqQ8Bits then codes k
  else
    (codes (2 * k) &&& 0x0F#8) |||
      (if 2 * k + 1 < count then codes (2 * k + 1) &&& 0x0F#8 else 0#8) <<< 4

/-- A payload buffer after the codes have been stored in it. -/
def packCodes (bitWidth count : ℕ) (codes : ℕ → Byte) (payload : ℕ → Byte) :
    ℕ → Byte :=
  fun k =>
    if k < sqPayloadSize bitWidth count then payloadByte bitWidth count codes k
    else payload k

/-- The status of encoding values under a scale. -/
def encodeStatus (values : ℕ → F32) (count : ℕ) (scale : F32) : SqStatus :=
  if !isfinite scale || scale.lt zeroF then .errScale
  else if count = 0 then if scale.eq zeroF then .ok else .errScale
  else if !allFinite values count then .errNonfinite
  else if anyNonzero values count = scale.eq zeroF then .errScale
  else .ok

/-- Encoding succeeds on finite values under a scale that is zero exactly when
all values are. -/
theorem encodeStatus_ok_iff {values : ℕ → F32} {count : ℕ} {scale : F32} :
    encodeStatus values count scale = .ok ↔
      isfinite scale = true ∧ scale.lt zeroF = false ∧
        allFinite values count = true ∧
        anyNonzero values count = !scale.eq zeroF := by
  unfold encodeStatus
  by_cases empty : count = 0
  · subst empty
    have finite : allFinite values 0 = true := rfl
    have zero : anyNonzero values 0 = false := rfl
    cases isfinite scale <;> cases scale.lt zeroF <;>
      cases scale.eq zeroF <;> simp [finite, zero]
  · cases isfinite scale <;> cases scale.lt zeroF <;>
      cases allFinite values count <;> cases anyNonzero values count <;>
      cases scale.eq zeroF <;> simp [empty]

/-- A scan that reports values that are not finite, and else nonzero ones. -/
def ScanCorrect (scan : SqEncodeInputScan) : Prop :=
  ∀ values count,
    if allFinite values count then
      scan values count = (.ok, anyNonzero values count)
    else (scan values count).1 = .errNonfinite

theorem scanScalarEncodeInput_correct : ScanCorrect scanScalarEncodeInput := by
  intro values count
  unfold scanScalarEncodeInput sqValidateInput allFinite anyNonzero
  dsimp only
  split <;> simp

/-- The supported bit widths. -/
def Supported (bitWidth : ℕ) : Prop := bitWidth = sqQ4Bits ∨ bitWidth = sqQ8Bits

theorem Supported.ne {bitWidth : ℕ} (supported : Supported bitWidth) :
    ¬ (bitWidth ≠ sqQ4Bits ∧ bitWidth ≠ sqQ8Bits) := by
  rcases supported with rfl | rfl <;> simp

theorem Supported.eq_q4 {bitWidth : ℕ} (supported : Supported bitWidth)
    (notQ8 : bitWidth ≠ sqQ8Bits) : bitWidth = sqQ4Bits :=
  supported.resolve_right notQ8

/-- The prologue of an encoder with a correct scan settles the status, and the
whole payload of a zero scale. -/
theorem sqEncodePayloadPrologue_eq {bitWidth : ℕ} (supported : Supported bitWidth)
    (values : ℕ → F32) (count : ℕ) (scale : F32) (words : ℕ → Word)
    (payload : ℕ → Byte) {scan : SqEncodeInputScan} (correct : ScanCorrect scan)
    (state : SqEncodePayloadState) :
    sqEncodePayloadPrologue bitWidth (some values) count scale (some words)
        (some payload) (some scan) (some state) =
      (encodeStatus values count scale,
        some ⟨signedLimit bitWidth,
          decide (encodeStatus values count scale = .ok) && scale.eq zeroF⟩,
        some (if encodeStatus values count scale = .ok ∧ scale.eq zeroF then
            centrePayload bitWidth count (signedLimit bitWidth) payload
          else payload)) := by
  have scanned := correct values count
  unfold sqEncodePayloadPrologue encodeStatus
  dsimp only
  rw [if_neg supported.ne, if_neg (by simp)]
  by_cases badScale : (!isfinite scale || scale.lt zeroF) = true
  · simp [badScale]
  simp only [badScale]
  by_cases empty : count = 0
  · subst empty
    have unchanged : centrePayload bitWidth 0 (signedLimit bitWidth) payload =
        payload := by
      unfold centrePayload
      split <;> simp [upTo]
    by_cases zero : scale.eq zeroF = true
    · simp [zero, unchanged]
    · simp [zero]
  by_cases finite : allFinite values count = true
  · rw [if_pos finite] at scanned
    simp only [empty, scanned, finite]
    cases zero : scale.eq zeroF <;> cases nonzero : anyNonzero values count <;>
      simp
  · rw [if_neg finite] at scanned
    simp [empty, scanned, finite]

theorem sqQ4Bits_ne : sqQ4Bits ≠ sqQ8Bits := by decide

theorem packCodes_q8 (count : ℕ) (codes : ℕ → Byte) (payload : ℕ → Byte) :
    packCodes sqQ8Bits count codes payload =
      fun k => if k < count then codes k else payload k := rfl

theorem packCodes_q4 (count : ℕ) (codes : ℕ → Byte) (payload : ℕ → Byte) :
    packCodes sqQ4Bits count codes payload =
      let pairs : ℕ → Byte := fun k =>
        if k < count / 2 then
          (codes (2 * k) &&& 0x0F#8) ||| (codes (2 * k + 1) &&& 0x0F#8) <<< 4
        else payload k
      if count % 2 = 1 then
        Function.update pairs (count / 2) (codes (count - 1) &&& 0x0F#8)
      else pairs := by
  funext k
  unfold packCodes payloadByte sqPayloadSize
  simp only [sqQ4Bits_ne, if_true, if_false]
  by_cases odd : count % 2 = 1
  · rw [if_pos odd]
    by_cases last : k = count / 2
    · have index : count - 1 = 2 * (count / 2) := by omega
      rw [last, Function.update_self, if_pos (by omega), if_neg (by omega), index]
      simp
    · rw [Function.update_of_ne last]
      split_ifs <;> first | rfl | omega
  · rw [if_neg odd]
    split_ifs <;> first | rfl | omega

/-- Only the codes of elements in range matter. -/
theorem payloadByte_congr {bitWidth count k : ℕ} (supported : Supported bitWidth)
    {codes codes' : ℕ → Byte} (inRange : k < sqPayloadSize bitWidth count)
    (same : ∀ i < count, codes i = codes' i) :
    payloadByte bitWidth count codes k = payloadByte bitWidth count codes' k := by
  unfold payloadByte
  unfold sqPayloadSize at inRange
  rcases supported with rfl | rfl
  · simp only [sqQ4Bits_ne, if_true, if_false] at inRange ⊢
    rw [same (2 * k) (by omega)]
    by_cases high : 2 * k + 1 < count
    · rw [same _ high]
    · rw [if_neg high, if_neg high]
  · simp only [sqQ4Bits_ne.symm, if_true, if_false] at inRange ⊢
    exact same k inRange

theorem packCodes_congr {bitWidth count : ℕ} (supported : Supported bitWidth)
    {codes codes' : ℕ → Byte} (payload : ℕ → Byte)
    (same : ∀ i < count, codes i = codes' i) :
    packCodes bitWidth count codes payload =
      packCodes bitWidth count codes' payload := by
  funext k
  unfold packCodes
  split
  · rename_i inRange
    exact payloadByte_congr supported inRange same
  · rfl

theorem centrePayload_eq {bitWidth : ℕ} (supported : Supported bitWidth)
    (count limit : ℕ) (payload : ℕ → Byte) :
    centrePayload bitWidth count limit payload =
      packCodes bitWidth count (fun _ => BitVec.ofNat 8 limit) payload := by
  unfold centrePayload
  by_cases q8 : bitWidth = sqQ8Bits
  · rw [if_pos q8, q8, packCodes_q8, upTo_store]
  · rw [if_neg q8, supported.eq_q4 q8, packCodes_q4]
    dsimp only
    rw [upTo_store]

section

variable [Arith Format.binary32]

theorem encodeQ8_eq (values : ℕ → F32) (count : ℕ) (scale : F32)
    (words : ℕ → Word) (s : ℕ) (payload : ℕ → Byte) :
    encodeQ8 values count scale words s payload =
      packCodes sqQ8Bits count
        (fun i => BitVec.ofInt 8 (signedCode s scale (values i) (words i) + s))
        payload := by
  rw [encodeQ8, packCodes_q8, upTo_store]

theorem encodeQ4_eq (values : ℕ → F32) (count : ℕ) (scale : F32)
    (words : ℕ → Word) (s : ℕ) (payload : ℕ → Byte) :
    encodeQ4 values count scale words s payload =
      packCodes sqQ4Bits count
        (fun i => BitVec.ofInt 8 (signedCode s scale (values i) (words i) + s))
        payload := by
  rw [encodeQ4, packCodes_q4]
  dsimp only
  rw [upTo_store]

/-- `sq_encode_payload` stores the element codes when the status is `SQ_OK`
and leaves the payload alone otherwise. -/
theorem sqEncodePayload_eq {bitWidth : ℕ} (supported : Supported bitWidth)
    (values : ℕ → F32) (count : ℕ) (scale : F32) (words : ℕ → Word)
    (payload : ℕ → Byte) :
    sqEncodePayload bitWidth (some values) count scale (some words)
        (some payload) =
      (encodeStatus values count scale,
        some (if encodeStatus values count scale = .ok then
          packCodes bitWidth count
            (fun i => elementCode (signedLimit bitWidth) scale (values i) (words i))
            payload
        else payload)) := by
  unfold sqEncodePayload
  dsimp only
  rw [sqEncodePayloadPrologue_eq supported values count scale words payload
    scanScalarEncodeInput_correct]
  by_cases ok : encodeStatus values count scale = .ok
  · by_cases zero : scale.eq zeroF = true
    · simp [ok, zero, centrePayload_eq supported, elementCode]
    · by_cases q8 : bitWidth = sqQ8Bits
      · simp [ok, zero, q8, encodeQ8_eq, elementCode]
      · have q4 := supported.eq_q4 q8
        simp [ok, zero, q4, sqQ4Bits_ne, encodeQ4_eq, elementCode]
  · cases status : encodeStatus values count scale <;>
      simp_all

end

end Stoquant

import Stoquant.Avx2.Encode

/-!
# Encoding is all or nothing

Both encoders settle their status before they store anything, in one order of
checks, and a call that succeeds stores every byte of the payload and no other.
-/

namespace Stoquant

open Ieee

/-- The status of encoding: the bit width, null arguments, the scale, the values, and
then whether the scale suits them. -/
def payloadStatus (bitWidth : ℕ) (values : Ptr F32) (count : ℕ) (scale : F32)
    (words : Ptr Word) (payload : Ptr Byte) : SqStatus :=
  let elements := values.getD fun _ => zeroF
  if bitWidth ≠ sqQ4Bits ∧ bitWidth ≠ sqQ8Bits then .errBitWidth
  else if count ≠ 0 ∧ (values = none ∨ words = none ∨ payload = none) then .errArgument
  else if !isfinite scale || scale.lt zeroF then .errScale
  else if count = 0 then if scale.eq zeroF then .ok else .errScale
  else if !allFinite elements count then .errNonfinite
  else if anyNonzero elements count = scale.eq zeroF then .errScale
  else .ok

/-- A buffer after its first bytes have been stored. -/
def storedBytes (size : ℕ) (written buffer : ℕ → Byte) : ℕ → Byte :=
  fun k => if k < size then written k else buffer k

/-- What an encoder leaves behind: a status, and the bytes stored under `SQ_OK`. -/
def encodeOutcome (status : SqStatus) (size : ℕ) (written : ℕ → Byte) (payload : Ptr Byte) :
    SqStatus × Ptr Byte :=
  (status, if status = .ok then payload.map (storedBytes size written) else payload)

theorem encodeOutcome_failed {status : SqStatus} (failed : status ≠ .ok) (size : ℕ)
    (written : ℕ → Byte) (payload : Ptr Byte) :
    encodeOutcome status size written payload = (status, payload) := by
  rw [encodeOutcome, if_neg failed]

theorem encodeOutcome_empty (status : SqStatus) (written : ℕ → Byte) (payload : Ptr Byte) :
    encodeOutcome status 0 written payload = (status, payload) := by
  have nothing : storedBytes 0 written = id := rfl
  rw [encodeOutcome, nothing, Option.map_id, id, ite_self]

theorem sqPayloadSize_empty (bitWidth : ℕ) : sqPayloadSize bitWidth 0 = 0 := by
  unfold sqPayloadSize
  split
  · rfl
  · rfl

theorem payloadStatus_some {bitWidth : ℕ} (supported : Supported bitWidth) (values : ℕ → F32)
    (count : ℕ) (scale : F32) (words : ℕ → Word) (payload : ℕ → Byte) :
    payloadStatus bitWidth (some values) count scale (some words) (some payload) =
      encodeStatus values count scale := by
  unfold payloadStatus
  rw [if_neg supported.ne, if_neg (by simp)]
  rfl

/-- The arguments with which no byte is stored whatever the values are. -/
def StoresNothing (bitWidth : ℕ) (values : Ptr F32) (words : Ptr Word)
    (payload : Ptr Byte) : Prop :=
  ¬ Supported bitWidth ∨ values = none ∨ words = none ∨ payload = none

theorem sqEncodePayloadPrologue_early {bitWidth : ℕ} {values : Ptr F32} {count : ℕ}
    {words : Ptr Word} {payload : Ptr Byte}
    (early : StoresNothing bitWidth values words payload) (scale : F32)
    (scan : SqEncodeInputScan) (state : SqEncodePayloadState) :
    ∃ after : SqEncodePayloadState,
      sqEncodePayloadPrologue bitWidth values count scale words payload (some scan)
          (some state) =
        (payloadStatus bitWidth values count scale words payload, some after, payload) ∧
      (payloadStatus bitWidth values count scale words payload = .ok →
        after.skipEncoding = true ∧ count = 0) := by
  unfold sqEncodePayloadPrologue payloadStatus
  dsimp only
  by_cases width : bitWidth ≠ sqQ4Bits ∧ bitWidth ≠ sqQ8Bits
  · rw [if_pos width, if_pos width]
    exact ⟨_, rfl, fun impossible => by cases impossible⟩
  rw [if_neg width, if_neg width]
  by_cases null : count ≠ 0 ∧ (values = none ∨ words = none ∨ payload = none)
  · rw [if_pos null, if_pos null]
    exact ⟨_, rfl, fun impossible => by cases impossible⟩
  rw [if_neg null, if_neg null]
  have empty : count = 0 := by
    by_contra nonempty
    rcases early with unsupported | pointers
    · exact width (not_or.mp unsupported)
    · exact null ⟨nonempty, pointers⟩
  by_cases badScale : (!isfinite scale || scale.lt zeroF) = true
  · rw [if_pos badScale, if_pos badScale]
    exact ⟨_, rfl, fun impossible => by cases impossible⟩
  rw [if_neg badScale, if_neg badScale]
  subst empty
  rw [if_pos rfl]
  cases zero : scale.eq zeroF with
  | false =>
      rw [if_pos ⟨rfl, rfl⟩, if_neg Bool.false_ne_true]
      exact ⟨_, rfl, fun impossible => by cases impossible⟩
  | true =>
      rw [if_neg (by simp), if_pos rfl, if_pos rfl]
      exact ⟨_, rfl, fun _ => ⟨rfl, rfl⟩⟩

section

variable [Arith Format.binary32] {bitWidth : ℕ} {values : Ptr F32} {count : ℕ} {scale : F32}
  {words : Ptr Word} {payload : Ptr Byte} {status : SqStatus} {after : SqEncodePayloadState}

theorem sqEncodePayload_settled
    (settled : sqEncodePayloadPrologue bitWidth values count scale words payload
      (some scanScalarEncodeInput) (some ⟨0, false⟩) = (status, some after, payload))
    (skips : status = .ok → after.skipEncoding = true) :
    sqEncodePayload bitWidth values count scale words payload = (status, payload) := by
  unfold sqEncodePayload
  dsimp only
  rw [settled]
  split
  · rename_i same
    cases same
    rw [if_pos (skips rfl)]
  · rename_i same _
    cases same
    rfl

theorem sqAvx2EncodePayload_settled {scan encode : OmpRegion}
    (settled : sqEncodePayloadPrologue bitWidth values count scale words payload
      (some (scanAvx2EncodeInput scan)) (some ⟨0, false⟩) = (status, some after, payload))
    (skips : status = .ok → after.skipEncoding = true) :
    sqAvx2EncodePayload scan encode bitWidth values count scale words payload =
      (status, payload) := by
  unfold sqAvx2EncodePayload
  dsimp only
  rw [settled]
  split
  · rename_i same
    cases same
    rw [if_pos (skips rfl)]
  · rename_i same _
    cases same
    rfl

end

section

variable [RoundedArith Format.binary32]

/-- Encoding is all or nothing: whatever the arguments, the teams and the order of their
threads, both encoders return one status, store nothing unless it is `SQ_OK`, and then
store every byte of the payload and none beyond. -/
theorem encodePayload_allOrNothing (scan encode : OmpRegion) (bitWidth : ℕ)
    (values : Ptr F32) (count : ℕ) (scale : F32) (words : Ptr Word) :
    ∃ written : ℕ → Byte, ∀ payload : Ptr Byte,
      let outcome := encodeOutcome (payloadStatus bitWidth values count scale words payload)
        (sqPayloadSize bitWidth count) written payload
      sqEncodePayload bitWidth values count scale words payload = outcome ∧
        sqAvx2EncodePayload scan encode bitWidth values count scale words payload = outcome := by
  refine ⟨payloadByte bitWidth count fun i =>
    elementCode (signedLimit bitWidth) scale ((values.getD fun _ => zeroF) i)
      ((words.getD fun _ => 0#32) i), ?_⟩
  intro payload
  dsimp only
  by_cases early : StoresNothing bitWidth values words payload
  · obtain ⟨after, scalar, skips⟩ := sqEncodePayloadPrologue_early early scale
      scanScalarEncodeInput ⟨0, false⟩
    obtain ⟨afterAvx2, vector, skipsAvx2⟩ := sqEncodePayloadPrologue_early early scale
      (scanAvx2EncodeInput scan) ⟨0, false⟩
    rw [sqEncodePayload_settled scalar fun ok => (skips ok).1,
      sqAvx2EncodePayload_settled vector fun ok => (skipsAvx2 ok).1, and_self]
    by_cases ok : payloadStatus bitWidth values count scale words payload = .ok
    · rw [(skips ok).2, sqPayloadSize_empty, encodeOutcome_empty]
    · rw [encodeOutcome_failed ok]
  · simp only [StoresNothing, not_or, not_not] at early
    obtain ⟨supported, valuesGiven, wordsGiven, payloadGiven⟩ := early
    obtain ⟨elements, rfl⟩ := Option.ne_none_iff_exists'.mp valuesGiven
    obtain ⟨drawn, rfl⟩ := Option.ne_none_iff_exists'.mp wordsGiven
    obtain ⟨buffer, rfl⟩ := Option.ne_none_iff_exists'.mp payloadGiven
    rw [sqAvx2EncodePayload_eq supported, sqEncodePayload_eq supported, and_self,
      payloadStatus_some supported, encodeOutcome]
    congr 1
    split
    · rfl
    · rfl

end

end Stoquant

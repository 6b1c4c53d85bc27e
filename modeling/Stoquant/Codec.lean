import Stoquant.Status

/-!
# Record codec

The twenty-byte record header and the record decoder of `codec.c`, with the
little-endian accessors of `byteorder.h`.  The decoder reads its input through
checked accesses: a result of `none` is a read outside the byte string.
-/

namespace Stoquant

open Ieee

def sqHeaderSize : ℕ := 20

def sqQ8Bits : ℕ := 8

def sqQ4Bits : ℕ := 4

def sqQ8SignedLimit : ℕ := 127

def sqQ4SignedLimit : ℕ := 7

/-- The largest signed level of a bit width the codec supports. -/
def signedLimit (bitWidth : ℕ) : ℕ :=
  if bitWidth = sqQ4Bits then sqQ4SignedLimit else sqQ8SignedLimit

/-- `sq_payload_size`. -/
def sqPayloadSize (bitWidth count : ℕ) : ℕ :=
  if bitWidth = sqQ4Bits then count / 2 + count % 2 else count

/-- `sq_magic`. -/
def sqMagic : List Byte := [0x4D#8, 0x53#8, 0x51#8, 0x31#8]

/-- `sq_store_u32_le`. -/
def sqStoreU32Le (value : BitVec 32) : List Byte :=
  [value.setWidth 8, (value >>> 8).setWidth 8, (value >>> 16).setWidth 8,
    (value >>> 24).setWidth 8]

/-- `sq_store_u64_le`. -/
def sqStoreU64Le (value : BitVec 64) : List Byte :=
  sqStoreU32Le (value.setWidth 32) ++ sqStoreU32Le ((value >>> 32).setWidth 32)

/-- The bytes `sq_header_encode` stores on success. -/
def headerBytes (bitWidth count : ℕ) (scale : F32) : List Byte :=
  sqMagic ++ [1#8, BitVec.ofNat 8 bitWidth, 0#8, 0#8] ++
    sqStoreU64Le (BitVec.ofNat 64 count) ++ sqStoreU32Le (f32Bits scale)

/-- Store bytes from offset zero on. -/
def storeBytes (buffer : ℕ → Byte) (bytes : List Byte) : ℕ → Byte :=
  fun i => bytes.getD i (buffer i)

/-- `sq_header_encode`: the status and the header buffer. -/
def sqHeaderEncode (bitWidth count : ℕ) (scale : F32) (header : Ptr Byte) :
    SqStatus × Ptr Byte :=
  match header with
  | none => (.errArgument, none)
  | some buffer =>
      if bitWidth ≠ sqQ4Bits ∧ bitWidth ≠ sqQ8Bits then
        (.errBitWidth, some buffer)
      else if !isfinite scale || scale.lt zeroF then (.errScale, some buffer)
      else if count = 0 ∧ scale.eq zeroF = false then (.errScale, some buffer)
      else (.ok, some (storeBytes buffer (headerBytes bitWidth count scale)))

/-- `sq_load_u32_le` at an offset. -/
def sqLoadU32Le (bytes : List Byte) (offset : ℕ) : Option (BitVec 32) := do
  let b0 ← bytes[offset]?
  let b1 ← bytes[offset + 1]?
  let b2 ← bytes[offset + 2]?
  let b3 ← bytes[offset + 3]?
  return b0.setWidth 32 ||| b1.setWidth 32 <<< 8 ||| b2.setWidth 32 <<< 16 |||
    b3.setWidth 32 <<< 24

/-- `sq_load_u64_le` at an offset. -/
def sqLoadU64Le (bytes : List Byte) (offset : ℕ) : Option (BitVec 64) := do
  let low ← sqLoadU32Le bytes offset
  let high ← sqLoadU32Le bytes (offset + 4)
  return low.setWidth 64 ||| high.setWidth 64 <<< 32

/-- What the output pointers `values` and `count` refer to. -/
structure DecodeOut where
  values : Option (List F32)
  count : ℕ
  deriving DecidableEq

/-- The code of element `i` in an 8-bit payload. -/
def codeAtQ8 (record : List Byte) (i : ℕ) : Option Byte :=
  record[sqHeaderSize + i]?

/-- The code of element `i` in a 4-bit payload: low nibble first. -/
def codeAtQ4 (record : List Byte) (i : ℕ) : Option Byte := do
  let byteVal ← record[sqHeaderSize + i / 2]?
  return if i % 2 = 0 then byteVal &&& 0x0F#8 else (byteVal >>> 4) &&& 0x0F#8

section

variable [Arith Format.binary32]

/-- The value of a stored code. -/
def decodeCode (limit : ℕ) (scale : F32) (code : Byte) : F32 :=
  let signedCode : ℤ := (code.toNat : ℤ) - limit
  (ofInt Format.binary32 signedCode / ofInt Format.binary32 limit) * scale

/-- The decoding loop over the first `n` codes, stopping at the first one that
is out of range or, under a zero scale, off centre. -/
def decodeCodes (limit : ℕ) (scale : F32) (codeAt : ℕ → Option Byte) :
    ℕ → Option (Except SqStatus (List F32))
  | 0 => some (.ok [])
  | n + 1 => do
      match ← decodeCodes limit scale codeAt n with
      | .error status => return .error status
      | .ok decoded =>
          let code ← codeAt n
          if code.toNat > 2 * limit then return .error .errCode
          else if scale.eq zeroF && decide (code.toNat ≠ limit) then
            return .error .errZeroScaleCode
          else return .ok (decoded ++ [decodeCode limit scale code])

/-- The codes of a payload, after the padding of an odd 4-bit one. -/
def decodePayload (bitWidth n : ℕ) (scale : F32) (bytes : List Byte) :
    Option (Except SqStatus (List F32)) :=
  if bitWidth = sqQ8Bits then
    decodeCodes sqQ8SignedLimit scale (codeAtQ8 bytes) n
  else if n % 2 = 1 then do
    let lastByte ← bytes[sqHeaderSize + n / 2]?
    if lastByte >>> 4 ≠ 0#8 then return .error .errPaddingNibble
    else decodeCodes sqQ4SignedLimit scale (codeAtQ4 bytes) n
  else decodeCodes sqQ4SignedLimit scale (codeAtQ4 bytes) n

/-- The results of the decoder: nothing on an error status. -/
def decodeResult (n : ℕ) : Except SqStatus (List F32) → SqStatus × Option DecodeOut
  | .error status => (status, some ⟨none, 0⟩)
  | .ok decoded => (.ok, some ⟨if n = 0 then none else some decoded, n⟩)

/-- `sq_decode_record`.  `mallocOk` tells whether an allocation of so many bytes
succeeds; `out` is absent when an output pointer is null. -/
def sqDecodeRecord (mallocOk : ℕ → Bool) (record : Option (List Byte))
    (recordSize : ℕ) (out : Option DecodeOut) :
    Option (SqStatus × Option DecodeOut) :=
  let rejected : DecodeOut := ⟨none, 0⟩
  match out, record with
  | none, _ => some (.errArgument, none)
  | some out, none =>
      if recordSize ≠ 0 then some (.errArgument, some out)
      else some (.errPayloadLength, some rejected)
  | some _, some bytes => do
      if recordSize < sqHeaderSize then
        return (.errPayloadLength, some rejected)
      let m0 ← bytes[0]?
      let m1 ← bytes[1]?
      let m2 ← bytes[2]?
      let m3 ← bytes[3]?
      if [m0, m1, m2, m3] ≠ sqMagic then return (.errMagic, some rejected)
      let version ← bytes[4]?
      if version ≠ 1#8 then return (.errVersion, some rejected)
      let bits ← bytes[5]?
      let bitWidth := bits.toNat
      if bitWidth ≠ sqQ4Bits ∧ bitWidth ≠ sqQ8Bits then
        return (.errBitWidth, some rejected)
      let r0 ← bytes[6]?
      let r1 ← bytes[7]?
      if r0 ≠ 0#8 ∨ r1 ≠ 0#8 then return (.errReserved, some rejected)
      let count64 ← sqLoadU64Le bytes 8
      let n := count64.toNat
      if n > sizeMax - sqHeaderSize ∨ n > sizeMax / 4 then
        return (.errCount, some rejected)
      let payloadLen := if bitWidth = sqQ4Bits then (n + 1) / 2 else n
      if recordSize ≠ sqHeaderSize + payloadLen then
        return (.errPayloadLength, some rejected)
      let scaleBits ← sqLoadU32Le bytes 16
      let stored := ofF32Bits scaleBits
      if !isfinite stored || stored.lt zeroF ||
          (decide (n = 0) && !stored.eq zeroF) then
        return (.errScale, some rejected)
      let scale := if stored.eq zeroF then zeroF else stored
      if n ≠ 0 ∧ mallocOk (n * 4) = false then
        return (.errMemory, some rejected)
      let codes ← decodePayload bitWidth n scale bytes
      return decodeResult n codes

end

end Stoquant

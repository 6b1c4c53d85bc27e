import Stoquant.Ieee.Rounding

/-!
# Shared vocabulary of the native code

Status codes, machine words and the buffers that pointers refer to.  A pointer
is absent when it is null; a buffer is a function of the element index, and the
element count travels beside it as it does in the source.
-/

namespace Stoquant

open Ieee

/-- `sq_status`. -/
inductive SqStatus where
  | ok
  | errArgument
  | errMagic
  | errVersion
  | errBitWidth
  | errReserved
  | errCount
  | errPayloadLength
  | errScale
  | errCode
  | errZeroScaleCode
  | errPaddingNibble
  | errNonfinite
  | errScaleOverflow
  | errIdOverflow
  | errMemory
  | errIo
  | errCudaUnavailable
  | errCuda
  | errTimingsBackend
  | errClock
  | errAvx2Unavailable
  deriving DecidableEq, Repr

/-- `float`. -/
abbrev F32 := Fp Format.binary32

/-- `uint32_t` used as a random word or as raw bits. -/
abbrev Word := BitVec 32

/-- `uint8_t`. -/
abbrev Byte := BitVec 8

/-- A pointer to elements, absent when null. -/
abbrev Ptr (α : Type) := Option (ℕ → α)

/-- `SIZE_MAX` of a 64-bit target. -/
def sizeMax : ℕ := 2 ^ 64 - 1

/-- `UINT32_MAX`. -/
def uint32Max : ℕ := 2 ^ 32 - 1

/-- `0.0f`. -/
def zeroF : F32 := Fp.zero Format.binary32

/-- `isfinite`. -/
def isfinite (x : F32) : Bool := x.isFinite

/-- `signbit`. -/
def signbit (x : F32) : Bool := x.sign

/-- `fabsf`. -/
def fabsf (x : F32) : F32 := x.abs

/-- `floorf`. -/
def floorf (x : F32) : F32 := x.floor

/-- The bit pattern of a float, as `memcpy` to a `uint32_t` gives it. -/
def f32Bits (x : F32) : Word := BitVec.ofNat 32 x.toBits

/-- The float of a bit pattern. -/
def ofF32Bits (bits : Word) : F32 := Fp.ofBits Format.binary32 bits.toNat

/-- An input array as callers pass it: the pointer is null only when the array
is empty, and the elements fit in memory. -/
structure F32Array where
  values : Ptr F32
  count : ℕ
  present : count ≠ 0 → values.isSome = true
  fits : count ≤ sizeMax / 4

/-- The elements of an array. -/
def F32Array.get (x : F32Array) : ℕ → F32 := x.values.getD fun _ => zeroF

theorem F32Array.values_eq (x : F32Array) (nonempty : x.count ≠ 0) :
    x.values = some x.get := by
  obtain ⟨values, found⟩ := Option.isSome_iff_exists.mp (x.present nonempty)
  rw [F32Array.get, found]
  rfl

theorem magBits_binary32 : Format.binary32.magBits = 31 := rfl

theorem infMag_binary32 : Format.binary32.infMag = 0x7F800000 := by decide +kernel

theorem unitExp_binary32 : Format.binary32.unitExp = 149 := by decide +kernel

@[simp] theorem ofF32Bits_f32Bits (x : F32) : ofF32Bits (f32Bits x) = x := by
  have bound : x.toBits < 2 ^ 32 := x.toBits_lt
  rw [ofF32Bits, f32Bits, BitVec.toNat_ofNat, Nat.mod_eq_of_lt bound]
  exact Fp.ofBits_toBits x

@[simp] theorem f32Bits_ofF32Bits (bits : Word) :
    f32Bits (ofF32Bits bits) = bits := by
  have bound : bits.toNat < 2 ^ (Format.binary32.magBits + 1) := bits.isLt
  rw [ofF32Bits, f32Bits, Fp.toBits_ofBits bound]
  exact BitVec.ofNat_toNat 32 bits

end Stoquant

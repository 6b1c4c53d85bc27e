import Stoquant.Codec.Stored
import Stoquant.Quantizer.ScaleSound

/-!
# Accepted compressions

A tensor has a record exactly for a supported width, finite elements, a usable scale and
identifiers that fit where words are drawn.
-/

namespace Stoquant

open Ieee

/-- A call that is accepted: a supported width, finite elements, a prescribed scale that is
zero exactly for zero elements or a computed one that does not overflow, and identifiers that
fit where words are drawn. -/
structure Compressible [Arith Format.binary32] (bitWidth : ℕ) (x : F32Array) (ids : StreamIds)
    (prescribedScale : Option F32) (prescribedWords : Ptr Word) : Prop where
  width : Supported bitWidth
  finite : ∀ i < x.count, isfinite (x.get i) = true
  prescribed : ∀ scale, prescribedScale = some scale →
    isfinite scale = true ∧ scale.lt zeroF = false ∧
      (scale.eq zeroF = true ↔ ∀ i < x.count, (x.get i).eq zeroF = true)
  computed : prescribedScale = none →
    tensorScale x.get x.count ≠ .error .errScaleOverflow
  fits : prescribedWords = none →
    ids.tensorId.toNat ≤ uint32Max ∧ ids.invocationId.toNat ≤ uint32Max

section

variable {x : F32Array} {bitWidth : ℕ} {ids : StreamIds} {prescribedScale : Option F32}
  {prescribedWords : Ptr Word}

theorem anyNonzero_eq_false_iff {values : ℕ → F32} {count : ℕ} :
    anyNonzero values count = false ↔ ∀ i < count, (values i).eq zeroF = true := by
  simp [anyNonzero]

theorem encodeStatus_ok_iff_zero {values : ℕ → F32} {count : ℕ} {scale : F32} :
    encodeStatus values count scale = .ok ↔
      (isfinite scale = true ∧ scale.lt zeroF = false ∧
        (scale.eq zeroF = true ↔ ∀ i < count, (values i).eq zeroF = true)) ∧
      ∀ i < count, isfinite (values i) = true := by
  rw [encodeStatus_ok_iff, allFinite_iff, ← anyNonzero_eq_false_iff]
  cases anyNonzero values count <;> cases scale.eq zeroF <;> simp <;> tauto

variable [RoundedArith Format.binary32]

/-- The record of a tensor exists exactly for an accepted call. -/
theorem tensorRecord_exists_iff :
    (∃ record, tensorRecord bitWidth x ids prescribedScale prescribedWords = .ok record) ↔
      Compressible bitWidth x ids prescribedScale prescribedWords := by
  constructor
  · rintro ⟨record, found⟩
    obtain ⟨supported, encoded, scaled, words, drawn, -⟩ := tensorRecord_ok found
    obtain ⟨usable, finite⟩ := encodeStatus_ok_iff_zero.mp encoded
    refine ⟨supported, finite, ?_, ?_, resolveWords_ok_iff.mp ⟨words, drawn⟩⟩
    · rintro scale rfl
      obtain rfl := Except.ok.inj scaled
      exact usable
    · rintro rfl overflow
      cases overflow.symm.trans scaled
  · intro accepted
    obtain ⟨scale, scaled, encoded⟩ : ∃ scale, resolveScale x prescribedScale = .ok scale ∧
        encodeStatus x.get x.count scale = .ok := by
      cases prescribed : prescribedScale with
      | some scale =>
          exact ⟨scale, rfl,
            encodeStatus_ok_iff_zero.mpr ⟨accepted.prescribed scale prescribed, accepted.finite⟩⟩
      | none =>
          have sound := @scaleComputed_tensorScale _ x.get x.count x.fits
          cases computed : tensorScale x.get x.count with
          | ok scale =>
              rw [computed] at sound
              exact ⟨scale, computed, sound.encodeStatus_eq⟩
          | error status =>
              rw [computed] at sound
              have bounded : status ≠ .errScaleOverflow := by
                rintro rfl
                exact accepted.computed prescribed computed
              have finite : status ≠ .errNonfinite := by
                intro nonfinite
                obtain ⟨i, below, bad⟩ := sound.nonfinite_iff.mp nonfinite
                cases bad.symm.trans (accepted.finite i below)
              exact absurd (sound.otherwise finite bounded) (tensorScale_error computed)
    obtain ⟨words, drawn⟩ := resolveWords_ok_iff.mpr accepted.fits
    have stored : storeStatus bitWidth x scale = .ok := by
      rw [storeStatus, if_neg accepted.width.ne]
      exact encoded
    refine ⟨⟨scale, fun i =>
      elementCode (signedLimit bitWidth) scale (x.get i) (words i)⟩, ?_⟩
    simp only [tensorRecord, scaled, drawn, stored, if_true]

end

end Stoquant

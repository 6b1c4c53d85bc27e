import Stoquant.Cuda.Geometry
import Stoquant.Design
import Stoquant.Quantizer.ScaleSound
import Stoquant.Tree.Strided

/-!
# The scale of the oracle

`scale_fp32` of `oracle.py` squares the ratios of one block at a time, pads to a power of
two by the bit length of the count, and halves arrays by their even and odd positions.  Its
result is the scale of the tensor.
-/

namespace Stoquant

open Ieee Par Tree

/-- `_values_fp32` of an array of `np.float32`. -/
def valuesFp32 (values : List F32) : Except PyError (List F32) :=
  if !values.all isfinite then .error (.valueError "input contains a non-finite FP32 value")
  else .ok values

/-- `np.maximum` of two elements. -/
def npMaximum (a b : F32) : F32 :=
  if b.lt a || a.eq b || a.isNaN then a else b

section

variable [Arith Format.binary32]

/-- `_pairwise_sum_fp32`. -/
def pairwiseSumFp32 (values : List F32) : F32 :=
  let count := values.length
  let work := values ++ List.replicate (pairwisePaddedCount count - count) zeroF
  (reducePairs (· + ·) work).headD zeroF

/-- The sum of one block in `scale_fp32`. -/
def blockPartial (maxAbs : F32) (block : List F32) : F32 :=
  let ratios := block.map fun value => value / maxAbs
  let squares := ratios.map fun ratio => ratio * ratio
  pairwiseSumFp32 (squares ++ List.replicate (sqScaleBlockSize - squares.length) zeroF)

/-- `scale_fp32`. -/
def scaleFp32 (values : List F32) : Except PyError F32 := do
  let array ← valuesFp32 values
  let count := array.length
  if count = 0 then return zeroF
  let absValues := array.map fabsf
  let maxAbs := absValues.foldl npMaximum zeroF
  if maxAbs.eq zeroF then return zeroF
  let partials := (oracleBlockStarts count).map fun start =>
    blockPartial maxAbs ((absValues.drop start).take sqScaleBlockSize)
  let total := pairwiseSumFp32 partials
  let scale := maxAbs * sqrt total
  if !isfinite scale then throw (.overflowError "FP32 L2 scale overflow")
  return scale

end

/-- The array of the first `count` values. -/
def listOf (values : ℕ → F32) (count : ℕ) : List F32 := (List.range count).map values

variable {values : ℕ → F32} {count : ℕ}

@[simp] theorem length_listOf : (listOf values count).length = count := by
  simp [listOf]

theorem listOf_getElem? (i : ℕ) :
    (listOf values count)[i]? = if i < count then some (values i) else none := by
  unfold listOf
  rw [List.getElem?_map]
  by_cases below : i < count
  · rw [if_pos below, List.getElem?_range below]
    rfl
  · rw [if_neg below, List.getElem?_eq_none (by simpa using below)]
    rfl

theorem any_listOf : (listOf values count).any (fun value => !value.eq zeroF) =
    anyNonzero values count := by
  unfold listOf anyNonzero
  rw [List.any_map]
  rfl

theorem valuesFp32_eq : valuesFp32 (listOf values count) =
    if allFinite values count then .ok (listOf values count)
    else .error (.valueError "input contains a non-finite FP32 value") := by
  have same : (listOf values count).all isfinite = allFinite values count := by
    unfold listOf allFinite
    rw [List.all_map]
    rfl
  unfold valuesFp32
  rw [same]
  cases allFinite values count <;> rfl

theorem pairwisePaddedCount_pow {n : ℕ} (positive : 0 < n) :
    pairwisePaddedCount n = 2 ^ Nat.clog 2 n := by
  have magnitude : ((n : ℤ) - 1).natAbs = n - 1 := by omega
  rw [pairwisePaddedCount, bitLength, magnitude, size_pred_eq_clog positive, Nat.zero_max,
    Nat.one_shiftLeft]

theorem strided_getElem? {first stride bound : ℕ} (positive : 0 < stride) (k : ℕ) :
    (strided first stride bound)[k]? =
      if first + k * stride < bound then some (first + k * stride) else none := by
  induction k generalizing first with
  | zero =>
      rw [strided, Nat.zero_mul, Nat.add_zero]
      by_cases more : first < bound
      · rw [if_pos ⟨more, positive⟩, if_pos more]
        rfl
      · rw [if_neg (fun both => more both.1), if_neg more]
        rfl
  | succ k ih =>
      have next : first + (k + 1) * stride = first + stride + k * stride := by ring
      rw [strided, next]
      by_cases more : first < bound
      · rw [if_pos ⟨more, positive⟩, List.getElem?_cons_succ, ih]
      · rw [if_neg (fun both => more both.1), if_neg (by omega)]
        rfl

theorem npMaximum_magF {m n : ℕ} (mSmall : m < Format.binary32.infMag)
    (nSmall : n < Format.binary32.infMag) : npMaximum (magF m) (magF n) = magF (max m n) := by
  have mNan := Fp.not_isNaN_of_isFinite (isFinite_magF mSmall)
  have nNan := Fp.not_isNaN_of_isFinite (isFinite_magF nSmall)
  have equal : (magF m).eq (magF n) = decide (m = n) := by
    simp [Fp.eq, mNan, nNan, Fp.key, sign_magF, mag_magF mSmall, mag_magF nSmall]
  unfold npMaximum
  rw [magF_lt nSmall mSmall, equal, mNan]
  by_cases le : n ≤ m
  · rw [if_pos, Nat.max_eq_left le]
    simp
    omega
  · rw [if_neg, Nat.max_eq_right (Nat.le_of_not_le le)]
    simp
    omega

theorem foldl_npMaximum (finite : allFinite values count = true) :
    ((listOf values count).map fabsf).foldl npMaximum zeroF = magF (maxMag values count) := by
  induction count with
  | zero => rfl
  | succ n ih =>
      rw [allFinite_succ, Bool.and_eq_true] at finite
      obtain ⟨before, last⟩ := finite
      have snoc : listOf values (n + 1) = listOf values n ++ [values n] := by
        simp [listOf, List.range_succ]
      rw [snoc, List.map_append, List.foldl_append, ih before]
      show npMaximum (magF (maxMag values n)) (fabsf (values n)) = _
      rw [fabsf_eq last, npMaximum_magF (allFinite_iff_maxMag.mp before)
        (Fp.isFinite_iff.mp last)]
      rfl

section

variable [Arith Format.binary32]

theorem pairwiseSumFp32_eq {array : List F32} (nonempty : 0 < array.length) :
    pairwiseSumFp32 array =
      tree (· + ·) (Nat.clog 2 array.length) fun i => array.getD i zeroF := by
  have fits : array.length ≤ 2 ^ Nat.clog 2 array.length :=
    Nat.le_pow_clog Nat.one_lt_two _
  have reduced : reducePairs (· + ·)
      (array ++ List.replicate (2 ^ Nat.clog 2 array.length - array.length) zeroF) =
        [tree (· + ·) (Nat.clog 2 array.length) fun i => array.getD i zeroF] := by
    apply reducePairs_eq
    · rw [List.length_append, List.length_replicate]
      omega
    intro i below
    rw [List.getElem?_append, List.getD_eq_getElem?_getD]
    by_cases inside : i < array.length
    · rw [if_pos inside, List.getElem?_eq_getElem inside]
      rfl
    · rw [if_neg inside, List.getElem?_eq_none (Nat.le_of_not_lt inside),
        List.getElem?_replicate, if_pos (by omega)]
      rfl
  unfold pairwiseSumFp32
  dsimp only
  rw [pairwisePaddedCount_pow nonempty, reduced]
  rfl

theorem pairwiseSumFp32_pow {k : ℕ} {array : List F32} {leaf : ℕ → F32}
    (length : array.length = 2 ^ k) (holds : ∀ i < 2 ^ k, array[i]? = some (leaf i)) :
    pairwiseSumFp32 array = tree (· + ·) k leaf := by
  have nonempty : 0 < array.length := by
    rw [length]
    exact Nat.two_pow_pos k
  rw [pairwiseSumFp32_eq nonempty, length, Nat.clog_pow 2 k Nat.one_lt_two]
  apply tree_congr
  intro i below
  rw [List.getD_eq_getElem?_getD, holds i below]
  rfl

theorem blockPartial_eq (maxAbs : F32) (block : ℕ) :
    blockPartial maxAbs ((((listOf values count).map fabsf).drop
        (block * sqScaleBlockSize)).take sqScaleBlockSize) =
      blockTree values count maxAbs block := by
  unfold blockPartial blockTree
  dsimp only
  apply pairwiseSumFp32_pow
  · simp only [List.length_append, List.length_replicate, List.length_map, List.length_take]
    show _ = sqScaleBlockSize
    omega
  · intro r below
    have inBlock : r < sqScaleBlockSize := below
    simp only [List.getElem?_append, List.length_map, List.length_take, List.length_drop,
      List.getElem?_map, List.getElem?_take_of_lt inBlock, List.getElem?_drop,
      listOf_getElem?, length_listOf, List.getElem?_replicate]
    unfold scaleTerm
    by_cases inside : block * sqScaleBlockSize + r < count
    · rw [if_pos (by omega), if_pos inside, if_pos inside]
      rfl
    · rw [if_neg (by omega), if_neg inside, if_pos (by omega)]

theorem partials_eq (maxAbs : F32) (nonempty : count ≠ 0) :
    pairwiseSumFp32 ((oracleBlockStarts count).map fun start => blockPartial maxAbs
        ((((listOf values count).map fabsf).drop start).take sqScaleBlockSize)) =
      squareSum values count maxAbs := by
  have blockPos : 0 < sqScaleBlockSize := Nat.succ_pos 255
  have blocks : (oracleBlockStarts count).length = blockCount count := by
    rw [oracleBlockStarts, length_strided 0 blockPos, Nat.sub_zero]
    exact ceilDiv_eq_blockCount count
  have present := blockCount_pos nonempty
  rw [← blocks] at present
  rw [pairwiseSumFp32_eq (by rwa [List.length_map]), List.length_map, blocks]
  apply tree_congr
  intro block below
  rw [List.getD_eq_getElem?_getD, List.getElem?_map, oracleBlockStarts,
    strided_getElem? blockPos, Nat.zero_add]
  unfold partialLeaf
  by_cases inside : block < blockCount count
  · rw [if_pos inside, if_pos (lt_blockCount_iff.mp inside), ← blockPartial_eq]
    rfl
  · rw [if_neg inside, if_neg (mt lt_blockCount_iff.mpr inside)]
    rfl

/-- `scale_fp32` returns the scale of the tensor, and raises where it has none. -/
theorem scaleFp32_eq :
    (scaleFp32 (listOf values count)).toOption = (tensorScale values count).toOption := by
  unfold scaleFp32 tensorScale
  rw [valuesFp32_eq, scanMaxAbs_eq]
  cases finite : allFinite values count with
  | false => rfl
  | true =>
      rw [if_pos rfl, if_pos rfl]
      show Except.toOption (if (listOf values count).length = 0 then _ else _) = _
      rw [foldl_npMaximum finite, length_listOf]
      by_cases empty : count = 0
      · subst empty
        rfl
      rw [if_neg empty]
      dsimp only
      generalize magF (maxMag values count) = maxAbs
      cases zero : maxAbs.eq zeroF with
      | true => rfl
      | false =>
          rw [if_neg Bool.false_ne_true, if_neg Bool.false_ne_true, partials_eq maxAbs empty]
          generalize maxAbs * sqrt (squareSum values count maxAbs) = scale
          cases bounded : isfinite scale <;> rfl

end

end Stoquant

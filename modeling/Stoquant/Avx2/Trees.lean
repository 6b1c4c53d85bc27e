import Stoquant.Avx2.Scale

/-!
# Two orders of one tree

`halves_tree` over bit-reversed storage and the adjacent pairs of `quantizer.c`
build the same expression, for any operation.  So the two backends sum the terms
of a block, and the partial sums of the blocks, in the same tree.
-/

namespace Stoquant

open Ieee Loop Par

section

variable {α : Type} (op : α → α → α)

/-- `halves_tree`, for any operation. -/
def halvesTreeOf (terms : ℕ → α) (n : ℕ) : ℕ → α :=
  (halvings (n / 2)).foldl
    (fun terms half =>
      upTo half (fun j terms => Function.update terms j (op (terms j) (terms (half + j))))
        terms)
    terms

/-- The loops over adjacent pairs of `quantizer.c`, for any operation. -/
def pairsTreeOf (terms : ℕ → α) (n : ℕ) : ℕ → α :=
  (halvings (n / 2)).foldl
    (fun terms stride =>
      upTo stride
        (fun i terms => Function.update terms i (op (terms (2 * i)) (terms (2 * i + 1))))
        terms)
    terms

theorem halvesTreeOf_eq_pairsTreeOf (k : ℕ) {leaf stored : ℕ → α}
    (reversed : ∀ i < 2 ^ k, stored (reverseBits i k) = leaf i) :
    halvesTreeOf op stored (2 ^ k) 0 = pairsTreeOf op leaf (2 ^ k) 0 := by
  have storedAt : ∀ j < 2 ^ k, stored j = leaf (Tree.reversed k j) := by
    intro j below
    have found := reversed (Tree.reversed k j) (Tree.reversed_lt k j)
    rwa [reverseBits_eq, Tree.reversed_reversed below] at found
  calc
    halvesTreeOf op stored (2 ^ k) 0 = Tree.tree op k leaf := Tree.foldl_halves op k storedAt
    _ = pairsTreeOf op leaf (2 ^ k) 0 := (Tree.foldl_pairs op k leaf).symm

end

section

variable [Arith Format.binary32]

theorem halvesTree_eq_of (terms : ℕ → F32) (n : ℕ) :
    halvesTree terms n = halvesTreeOf (· + ·) terms n := rfl

/-- The partial sums of `quantizer.c`, zero behind the last block. -/
def scalarPartialSums (values : ℕ → F32) (count : ℕ) (maxAbs : F32) (array : ℕ → F32) :
    ℕ → F32 :=
  let array := upTo (sqScaleWorkspaceElements count)
    (fun i array => Function.update array i zeroF) array
  upTo (blockCount count)
    (fun i array =>
      Function.update array i (reduceBlock values count (i * sqScaleBlockSize) maxAbs)) array

/-- The partial sums of the AVX2 backend, on a team of threads. -/
def avx2PartialSums (sums : OmpRegion) (values : ℕ → F32) (count : ℕ) (maxAbs : F32)
    (array : ℕ → F32) : ℕ → F32 :=
  let array := upTo (sqScaleWorkspaceElements count)
    (fun i array => Function.update array i zeroF) array
  let bits := countPaddedBits (sqScaleWorkspaceElements count) 0
  (sums.scheduler.run
    (blockSumsRegion values count maxAbs (fun i => reverseBits i 8) bits sums.team)
    ⟨array, 0⟩).cell

end

theorem maxBits_float {maxBits : Word} (nonzero : maxBits ≠ 0#32)
    (below : maxBits < nonfiniteBits) :
    (ofF32Bits maxBits).isFinite = true ∧ (ofF32Bits maxBits).mag ≠ 0 ∧
      (ofF32Bits maxBits).sign = false := by
  have small : maxBits.toNat < 0x7F800000 := BitVec.lt_def.mp below
  have positive : maxBits.toNat ≠ 0 := fun zero => nonzero (BitVec.eq_of_toNat_eq zero)
  have mag : (ofF32Bits maxBits).mag = maxBits.toNat := by
    show maxBits.toNat % 2 ^ Format.binary32.magBits = maxBits.toNat
    rw [magBits_binary32]
    omega
  have sign : (ofF32Bits maxBits).sign = decide (maxBits.toNat / 2 ^ 31 % 2 = 1) := rfl
  refine ⟨?_, ?_, ?_⟩
  · rw [Fp.isFinite_iff, mag, infMag_binary32]
    exact small
  · rwa [mag]
  · rw [sign, decide_eq_false_iff_not]
    omega

section

variable [RoundedArith Format.binary32]

theorem avx2PartialSums_reversed (sums : OmpRegion) (values : ℕ → F32) {count : ℕ}
    (nonempty : count ≠ 0) (bound : count ≤ sizeMax) {maxAbs : F32}
    (finite : maxAbs.isFinite = true) (nonzero : maxAbs.mag ≠ 0)
    (sign : maxAbs.sign = false) (array array' : ℕ → F32) :
    ∀ i < 2 ^ paddedBits count,
      avx2PartialSums sums values count maxAbs array (reverseBits i (paddedBits count)) =
        scalarPartialSums values count maxAbs array' i := by
  have elements := sqScaleWorkspaceElements_eq nonempty bound
  have enough : blockCount count ≤ 2 ^ paddedBits count := Nat.le_pow_clog (by norm_num) _
  intro i below
  have inRange := Tree.reversed_lt (paddedBits count) i
  unfold avx2PartialSums scalarPartialSums
  rw [elements, countPaddedBits_pow (Nat.zero_le _), reverseBits_eq,
    blockSumsRegion_cell sums values count _ _ enough _ inRange,
    Tree.reversed_reversed below, upTo_store, upTo_store, upTo_store]
  dsimp only
  rw [blockSum_eq values count i finite nonzero sign, reduceBlock_eq, if_pos inRange]
  by_cases present : i < blockCount count
  · rw [if_pos present, if_pos present]
  · rw [if_neg present, if_neg present, if_pos below]

/-- The halves of bit-reversed storage and the adjacent pairs are one expression, for
every operation; so are the block sums and the trees over the padded partial sums of the
two backends. -/
theorem halvesTree_eq_pairsTree :
    (∀ (α : Type) (op : α → α → α) (k : ℕ) (leaf stored : ℕ → α),
      (∀ i < 2 ^ k, stored (reverseBits i k) = leaf i) →
      halvesTreeOf op stored (2 ^ k) 0 = pairsTreeOf op leaf (2 ^ k) 0) ∧
    ∀ (values : ℕ → F32) (count : ℕ) (maxBits : Word), maxBits ≠ 0#32 →
      maxBits < nonfiniteBits →
      (∀ block, blockSum values count (block * sqScaleBlockSize) (ofF32Bits maxBits)
          (fun i => reverseBits i 8) =
        reduceBlock values count (block * sqScaleBlockSize) (ofF32Bits maxBits)) ∧
      (count ≠ 0 → count ≤ sizeMax → ∀ (sums : OmpRegion) (array array' : ℕ → F32),
        halvesTree (avx2PartialSums sums values count (ofF32Bits maxBits) array)
            (sqScaleWorkspaceElements count) 0 =
          pairsTreeOf (· + ·) (scalarPartialSums values count (ofF32Bits maxBits) array')
            (sqScaleWorkspaceElements count) 0) := by
  refine ⟨fun α op k leaf stored reversed => halvesTreeOf_eq_pairsTreeOf op k reversed, ?_⟩
  intro values count maxBits nonzero below
  obtain ⟨finite, positive, sign⟩ := maxBits_float nonzero below
  constructor
  · intro block
    rw [blockSum_eq values count block finite positive sign, reduceBlock_eq]
  · intro nonempty bound sums array array'
    rw [sqScaleWorkspaceElements_eq nonempty bound, halvesTree_eq_of]
    apply halvesTreeOf_eq_pairsTreeOf
    exact avx2PartialSums_reversed sums values nonempty bound finite positive sign array array'

end

end Stoquant

import Stoquant.Status
import Stoquant.Tree.Pairs

/-!
# The scale of a tensor

`quantizer.c` computes the scale of a tensor as the largest magnitude times the
root of the sum of squared ratios to it.  The sum is a fixed tree: one tree of
256 terms for each block, and one tree over the blocks padded with zeros to a
power of two.
-/

namespace Stoquant

open Ieee Loop

/-- `SQ_SCALE_BLOCK_SIZE`. -/
def sqScaleBlockSize : ℕ := 256

/-- `count / SQ_SCALE_BLOCK_SIZE`, and one more when there is a remainder. -/
def blockCount (count : ℕ) : ℕ :=
  let whole := count / sqScaleBlockSize
  if count % sqScaleBlockSize ≠ 0 then whole + 1 else whole

theorem lt_blockCount_iff {count k : ℕ} :
    k < blockCount count ↔ k * sqScaleBlockSize < count := by
  unfold blockCount sqScaleBlockSize
  dsimp only
  split_ifs <;> omega

/-- `sq_scale_workspace_elements`. -/
def sqScaleWorkspaceElements (count : ℕ) : ℕ :=
  if count = 0 then 0
  else
    match doubleTo (sizeMax / 2) (blockCount count) 1 Nat.one_pos with
    | none => sizeMax
    | some padded => padded

/-- The number of levels of the tree over the blocks. -/
def paddedBits (count : ℕ) : ℕ := Nat.clog 2 (blockCount count)

theorem sqScaleWorkspaceElements_eq {count : ℕ} (nonempty : count ≠ 0)
    (bound : count ≤ sizeMax) :
    sqScaleWorkspaceElements count = 2 ^ paddedBits count := by
  have within : blockCount count ≤ sizeMax / 2 + 1 := by
    unfold blockCount sqScaleBlockSize sizeMax at *
    dsimp only
    split <;> omega
  rw [sqScaleWorkspaceElements, if_neg nonempty, doubleTo_one within]
  rfl

/-- The workspace of an input that fits in memory does so as well. -/
theorem sqScaleWorkspaceElements_le {count : ℕ} (bound : count ≤ sizeMax) :
    sqScaleWorkspaceElements count ≤ 2 ^ 56 := by
  by_cases empty : count = 0
  · simp [sqScaleWorkspaceElements, empty]
  · rw [sqScaleWorkspaceElements_eq empty bound]
    apply Nat.pow_le_pow_right (by norm_num)
    rw [paddedBits, Nat.clog_le_iff_le_pow (by norm_num)]
    unfold blockCount sqScaleBlockSize sizeMax at *
    dsimp only
    split <;> omega

section

variable [Arith Format.binary32]

/-- `reduce_block`. -/
def reduceBlock (values : ℕ → F32) (count start : ℕ) (maxAbs : F32) : F32 :=
  let remaining := count - start
  let blockCount :=
    if remaining < sqScaleBlockSize then remaining else sqScaleBlockSize
  let terms : ℕ → F32 :=
    upTo sqScaleBlockSize (fun i terms => Function.update terms i zeroF)
      fun _ => zeroF
  let terms := upTo blockCount
    (fun i terms =>
      let ratio := fabsf (values (start + i)) / maxAbs
      Function.update terms i (ratio * ratio)) terms
  let terms := (halvings (sqScaleBlockSize / 2)).foldl
    (fun terms stride =>
      upTo stride
        (fun i terms =>
          Function.update terms i (terms (2 * i) + terms (2 * i + 1))) terms)
    terms
  terms 0

/-- The scan for the largest magnitude, stopping at a value that is not
finite. -/
def scanMaxAbs (values : ℕ → F32) : ℕ → Option F32
  | 0 => some zeroF
  | n + 1 => do
      let maxAbs ← scanMaxAbs values n
      if isfinite (values n) then
        let magnitude := fabsf (values n)
        some (if maxAbs.lt magnitude then magnitude else maxAbs)
      else none

/-- `sq_compute_scale_with_workspace`. -/
def sqComputeScaleWithWorkspace (values : Ptr F32) (count : ℕ)
    (scale : Option F32) (partials : Ptr F32) (partialCapacity : ℕ) :
    SqStatus × Option F32 × Ptr F32 :=
  match scale, values with
  | none, _ => (.errArgument, none, partials)
  | some scale, none =>
      if count ≠ 0 then (.errArgument, some scale, partials)
      else (.ok, some zeroF, partials)
  | some _, some values =>
      if count = 0 then (.ok, some zeroF, partials)
      else
        match scanMaxAbs values count with
        | none => (.errNonfinite, some zeroF, partials)
        | some maxAbs =>
            if maxAbs.eq zeroF then (.ok, some zeroF, partials)
            else
              let paddedCount := sqScaleWorkspaceElements count
              if paddedCount = sizeMax then (.errMemory, some zeroF, partials)
              else if paddedCount > sizeMax / 4 then
                (.errMemory, some zeroF, partials)
              else
                match partials with
                | none => (.errArgument, some zeroF, none)
                | some array =>
                    if partialCapacity < paddedCount then
                      (.errArgument, some zeroF, some array)
                    else
                      let array := upTo paddedCount
                        (fun i array => Function.update array i zeroF) array
                      let array := upTo (blockCount count)
                        (fun i array => Function.update array i
                          (reduceBlock values count (i * sqScaleBlockSize)
                            maxAbs)) array
                      let array := (halvings (paddedCount / 2)).foldl
                        (fun array stride =>
                          upTo stride
                            (fun i array => Function.update array i
                              (array (2 * i) + array (2 * i + 1))) array)
                        array
                      let root := sqrt (array 0)
                      let result := maxAbs * root
                      if isfinite result then (.ok, some result, some array)
                      else (.errScaleOverflow, some zeroF, some array)

/-- The term of element `i` in the sum of squares, zero beyond the input. -/
def scaleTerm (values : ℕ → F32) (count : ℕ) (maxAbs : F32) (i : ℕ) : F32 :=
  if i < count then
    let ratio := fabsf (values i) / maxAbs
    ratio * ratio
  else zeroF

/-- The tree over the terms of one block. -/
def blockTree (values : ℕ → F32) (count : ℕ) (maxAbs : F32) (block : ℕ) : F32 :=
  Tree.tree (· + ·) 8 fun r =>
    scaleTerm values count maxAbs (block * sqScaleBlockSize + r)

/-- A leaf of the tree over the blocks, zero in the padding. -/
def partialLeaf (values : ℕ → F32) (count : ℕ) (maxAbs : F32) (block : ℕ) : F32 :=
  if block < blockCount count then blockTree values count maxAbs block else zeroF

/-- The sum of squared ratios. -/
def squareSum (values : ℕ → F32) (count : ℕ) (maxAbs : F32) : F32 :=
  Tree.tree (· + ·) (paddedBits count) (partialLeaf values count maxAbs)

/-- What the scale of a tensor is, whatever computes it. -/
def tensorScale (values : ℕ → F32) (count : ℕ) : Except SqStatus F32 :=
  match scanMaxAbs values count with
  | none => .error .errNonfinite
  | some maxAbs =>
      if maxAbs.eq zeroF then .ok zeroF
      else
        let result := maxAbs * sqrt (squareSum values count maxAbs)
        if isfinite result then .ok result else .error .errScaleOverflow

/-- The status and the stored scale of a computed scale. -/
def scaleOutcome : Except SqStatus F32 → SqStatus × F32
  | .ok scale => (.ok, scale)
  | .error status => (status, zeroF)

theorem reduceBlock_eq (values : ℕ → F32) (count block : ℕ) (maxAbs : F32) :
    reduceBlock values count (block * sqScaleBlockSize) maxAbs =
      blockTree values count maxAbs block := by
  unfold reduceBlock blockTree
  dsimp only
  rw [show sqScaleBlockSize / 2 = 2 ^ 8 / 2 from rfl,
    Tree.foldl_pairs (· + ·), upTo_store, upTo_store]
  refine Tree.tree_congr fun r below => ?_
  have inBlock : r < sqScaleBlockSize := below
  unfold scaleTerm
  simp only [inBlock, if_true]
  unfold sqScaleBlockSize at *
  split_ifs <;> first | rfl | omega

/-- With a workspace that suffices, `sq_compute_scale_with_workspace` stores
the scale of the tensor and its status. -/
theorem sqComputeScaleWithWorkspace_eq (values : ℕ → F32) {count : ℕ}
    (scale : F32) (partials : Ptr F32) {partialCapacity : ℕ}
    (bound : count ≤ sizeMax)
    (sufficient : count ≠ 0 → partials.isSome ∧
      sqScaleWorkspaceElements count ≤ partialCapacity) :
    ∃ partials', sqComputeScaleWithWorkspace (some values) count (some scale)
        partials partialCapacity =
      ((scaleOutcome (tensorScale values count)).1,
        some (scaleOutcome (tensorScale values count)).2, partials') := by
  by_cases empty : count = 0
  · subst empty
    exact ⟨partials, rfl⟩
  obtain ⟨present, capacity⟩ := sufficient empty
  obtain ⟨array, rfl⟩ := Option.isSome_iff_exists.mp present
  have elements := sqScaleWorkspaceElements_eq empty bound
  have small := sqScaleWorkspaceElements_le bound
  unfold sqComputeScaleWithWorkspace tensorScale
  dsimp only
  rw [if_neg empty]
  cases scanMaxAbs values count with
  | none => exact ⟨some array, rfl⟩
  | some maxAbs =>
      dsimp only
      by_cases zero : maxAbs.eq zeroF = true
      · rw [if_pos zero, if_pos zero]
        exact ⟨some array, rfl⟩
      · have notMax : sqScaleWorkspaceElements count ≠ sizeMax := by
          unfold sizeMax
          omega
        have fits : ¬ sqScaleWorkspaceElements count > sizeMax / 4 := by
          unfold sizeMax
          omega
        rw [if_neg zero, if_neg zero, if_neg notMax, if_neg fits,
          if_neg (Nat.not_lt.mpr capacity)]
        simp only [reduceBlock_eq]
        rw [upTo_store, upTo_store, elements, Tree.foldl_pairs (· + ·)]
        have sum : Tree.tree (· + ·) (paddedBits count)
            (fun i => if i < blockCount count then
                blockTree values count maxAbs i
              else if i < 2 ^ paddedBits count then zeroF else array i) =
            squareSum values count maxAbs := by
          refine Tree.tree_congr fun i below => ?_
          rw [partialLeaf, if_pos below]
        rw [sum]
        split
        · exact ⟨_, rfl⟩
        · exact ⟨_, rfl⟩

end

end Stoquant

import Stoquant.Tree.Loop

/-!
# Perfect trees of adjacent pairs

One level combines adjacent leaves; `k` levels reduce `2 ^ k` leaves to one.
Nothing is assumed about the operation, so equal trees are equal expressions.
-/

namespace Tree

open Loop

variable {α : Type} (op : α → α → α)

/-- One level: adjacent leaves combined. -/
def pairs (leaf : ℕ → α) (i : ℕ) : α := op (leaf (2 * i)) (leaf (2 * i + 1))

/-- The tree of adjacent pairs over leaves `0, ..., 2 ^ k - 1`. -/
def tree : ℕ → (ℕ → α) → α
  | 0, leaf => leaf 0
  | k + 1, leaf => tree k (pairs op leaf)

variable {op}

theorem tree_congr {k : ℕ} {leaf leaf' : ℕ → α}
    (same : ∀ i < 2 ^ k, leaf i = leaf' i) : tree op k leaf = tree op k leaf' := by
  induction k generalizing leaf leaf' with
  | zero => exact same 0 (by norm_num)
  | succ k ih =>
      refine ih fun i below => ?_
      rw [pow_succ] at same
      rw [pairs, pairs, same _ (by omega), same _ (by omega)]

/-- The first `j` levels reduce runs of `2 ^ j` leaves, the rest their roots. -/
theorem tree_add (j k : ℕ) (leaf : ℕ → α) :
    tree op (j + k) leaf =
      tree op k fun i => tree op j fun r => leaf (i * 2 ^ j + r) := by
  induction j generalizing leaf with
  | zero => simp [tree]
  | succ j ih =>
      rw [Nat.succ_add_eq_add_succ j k, Nat.add_succ, tree, ih]
      congr 1
      funext i
      rw [tree]
      congr 1
      funext r
      have left : 2 * (i * 2 ^ j + r) = i * 2 ^ (j + 1) + 2 * r := by ring
      rw [pairs, pairs, left, Nat.add_assoc]

/-- The root combines the trees over the two halves of the leaves. -/
theorem tree_succ (k : ℕ) (leaf : ℕ → α) :
    tree op (k + 1) leaf =
      op (tree op k leaf) (tree op k fun i => leaf (2 ^ k + i)) := by
  rw [tree_add k 1, tree, tree, pairs]
  simp

/-- One level in place: `a[i] = op a[2i] a[2i+1]` for increasing `i`. -/
theorem upTo_pairs (n : ℕ) (array : ℕ → α) :
    upTo n (fun i a => Function.update a i (op (a (2 * i)) (a (2 * i + 1)))) array =
      fun i => if i < n then pairs op array i else array i := by
  induction n with
  | zero => simp [upTo]
  | succ n ih =>
      funext i
      rw [upTo, ih]
      by_cases last : i = n
      · subst last
        have left : ¬ 2 * i < i := by omega
        have right : ¬ 2 * i + 1 < i := by omega
        simp [pairs, left, right]
      · have : i < n + 1 ↔ i < n := by omega
        simp [Function.update_of_ne last, this]

variable (op) in
/-- Halving strides in place leave the tree at index zero. -/
theorem foldl_pairs (k : ℕ) (array : ℕ → α) :
    ((halvings (2 ^ k / 2)).foldl
      (fun a stride =>
        upTo stride
          (fun i a => Function.update a i (op (a (2 * i)) (a (2 * i + 1)))) a)
      array) 0 = tree op k array := by
  induction k generalizing array with
  | zero => simp [tree]
  | succ k ih =>
      rw [halvings_half_pow_succ, List.foldl_cons, ih, upTo_pairs, tree]
      exact tree_congr fun i below => if_pos below

end Tree

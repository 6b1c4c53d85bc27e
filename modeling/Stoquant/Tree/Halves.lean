import Stoquant.Tree.Pairs

/-!
# Trees over bit-reversed storage

Adding the upper half of an array to the lower half, level by level, gives the
tree of adjacent pairs when the leaves are stored in bit-reversed order.
-/

namespace Tree

open Loop

/-- The low `k` bits of a number in reverse order. -/
def reversed : ℕ → ℕ → ℕ
  | 0, _ => 0
  | k + 1, x => x % 2 * 2 ^ k + reversed k (x / 2)

theorem reversed_lt (k x : ℕ) : reversed k x < 2 ^ k := by
  induction k generalizing x with
  | zero => simp [reversed]
  | succ k ih =>
      have rest := ih (x / 2)
      have bit : x % 2 = 0 ∨ x % 2 = 1 := Nat.mod_two_eq_zero_or_one x
      rw [reversed, pow_succ]
      rcases bit with bit | bit <;> rw [bit] <;> omega

/-- The highest of the low bits becomes the lowest. -/
theorem reversed_succ (k x : ℕ) :
    reversed (k + 1) x = 2 * reversed k x + x / 2 ^ k % 2 := by
  induction k generalizing x with
  | zero => simp [reversed]
  | succ k ih =>
      have shifted : x / 2 / 2 ^ k = x / 2 ^ (k + 1) := by
        rw [Nat.div_div_eq_div_mul, pow_succ']
      rw [reversed, ih, shifted, reversed, pow_succ]
      ring

theorem reversed_low {k j : ℕ} (below : j < 2 ^ k) :
    reversed (k + 1) j = 2 * reversed k j := by
  rw [reversed_succ, Nat.div_eq_of_lt below]
  rfl

theorem reversed_high {k j : ℕ} (below : j < 2 ^ k) :
    reversed (k + 1) (j + 2 ^ k) = 2 * reversed k j + 1 := by
  have same : ∀ i ≤ k, reversed i (j + 2 ^ k) = reversed i j := by
    intro i le
    induction i generalizing j k with
    | zero => rfl
    | succ i ih =>
        obtain ⟨k, rfl⟩ : ∃ l, k = l + 1 := ⟨k - 1, by omega⟩
        have half : (j + 2 ^ (k + 1)) / 2 = j / 2 + 2 ^ k := by
          rw [pow_succ]
          omega
        have parity : (j + 2 ^ (k + 1)) % 2 = j % 2 := by
          rw [pow_succ]
          omega
        rw [pow_succ] at below
        rw [reversed, half, parity, ih (by omega) (by omega), reversed]
  rw [reversed_succ, same k le_rfl, Nat.add_div_right _ (by positivity),
    Nat.div_eq_of_lt below]

theorem reversed_reversed {k x : ℕ} (below : x < 2 ^ k) :
    reversed k (reversed k x) = x := by
  induction k generalizing x with
  | zero =>
      rw [pow_zero] at below
      simp [reversed]
      omega
  | succ k ih =>
      have rest := ih (x := x / 2) (by rw [pow_succ] at below; omega)
      have restLt := reversed_lt k (x / 2)
      have bit : x % 2 = 0 ∨ x % 2 = 1 := Nat.mod_two_eq_zero_or_one x
      have first : reversed (k + 1) x = x % 2 * 2 ^ k + reversed k (x / 2) := rfl
      rcases bit with bit | bit
      · rw [first, bit, Nat.zero_mul, Nat.zero_add, reversed_low restLt, rest]
        omega
      · rw [first, bit, Nat.one_mul, Nat.add_comm (2 ^ k), reversed_high restLt,
          rest]
        omega

variable {α : Type} {op : α → α → α}

/-- One level in place: `lo[j] = op lo[j] hi[j]` for increasing `j`. -/
theorem upTo_halves (half : ℕ) (array : ℕ → α) :
    upTo half (fun j a => Function.update a j (op (a j) (a (half + j)))) array =
      fun j => if j < half then op (array j) (array (half + j)) else array j := by
  suffices level : ∀ n ≤ half,
      upTo n (fun j a => Function.update a j (op (a j) (a (half + j)))) array =
        fun j => if j < n then op (array j) (array (half + j)) else array j from
    level half le_rfl
  intro n le
  induction n with
  | zero => simp [upTo]
  | succ n ih =>
      funext j
      rw [upTo, ih (by omega)]
      by_cases last : j = n
      · subst last
        have apart : ¬ half + j < j := by omega
        simp [apart]
      · have : j < n + 1 ↔ j < n := by omega
        simp [Function.update_of_ne last, this]

variable (op) in
/-- Halving widths in place leave the tree over the reversed array at zero. -/
theorem foldl_halves (k : ℕ) {array leaf : ℕ → α}
    (stored : ∀ j < 2 ^ k, array j = leaf (reversed k j)) :
    ((halvings (2 ^ k / 2)).foldl
      (fun a half =>
        upTo half (fun j a => Function.update a j (op (a j) (a (half + j)))) a)
      array) 0 = tree op k leaf := by
  induction k generalizing array leaf with
  | zero => simp [tree, stored 0, reversed]
  | succ k ih =>
      rw [halvings_half_pow_succ, List.foldl_cons, tree]
      refine ih fun j below => ?_
      rw [pow_succ] at stored
      rw [upTo_halves]
      dsimp only
      rw [if_pos below, stored j (by omega),
        stored (2 ^ k + j) (by omega), Nat.add_comm (2 ^ k) j,
        reversed_low below, reversed_high below]
      rfl

end Tree

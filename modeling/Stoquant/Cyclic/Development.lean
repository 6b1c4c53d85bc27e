import Mathlib.Data.List.Perm.Basic
import Mathlib.Data.List.Range
import Mathlib.Data.Nat.ModEq
import Mathlib.Tactic

/-!
# Cyclic development

The rows that come from one row by adding every residue to its entries: how often
a residue stands at a position, and how often two residues are neighbours.
-/

namespace Cyclic

/-- The neighbouring entries of a row. -/
def adjacencies {α : Type} (row : List α) : List (α × α) := row.zip row.tail

/-- The shifts of a row modulo `n`. -/
def development (n : ℕ) (row : List ℕ) : List (List ℕ) :=
  (List.range n).map fun i => row.map fun x => (x + i) % n

/-! ## Neighbours -/

section

variable {α β : Type}

theorem adjacencies_map (f : α → β) (row : List α) :
    adjacencies (row.map f) = (adjacencies row).map (Prod.map f f) := by
  rw [adjacencies, adjacencies, ← List.map_tail, List.zip_map]

theorem adjacencies_reverse (row : List α) :
    adjacencies row.reverse = ((adjacencies row).map Prod.swap).reverse := by
  apply List.ext_getElem
  · simp [adjacencies]
  · intro j inReversed inRow
    have below : j < row.length - 1 := by simpa [adjacencies] using inReversed
    have first : row.length - 1 - j = row.length - 1 - 1 - j + 1 := by omega
    simp [adjacencies, first]

/-- The reversed row has its neighbours the other way round. -/
theorem count_adjacencies_reverse [DecidableEq α] (row : List α) (before after : α) :
    (adjacencies row.reverse).count (before, after) = (adjacencies row).count (after, before) := by
  rw [adjacencies_reverse, List.count_reverse]
  exact List.count_map_of_injective (adjacencies row) Prod.swap Prod.swap_injective (after, before)

theorem adjacencies_map_range (f : ℕ → α) (n : ℕ) :
    adjacencies ((List.range n).map f) =
      (List.range (n - 1)).map fun j => (f j, f (j + 1)) := by
  apply List.ext_getElem
  · simp [adjacencies]
  · intro j _ _
    simp [adjacencies]

end

/-! ## Shifts -/

section

variable {n : ℕ}

/-- A shift of an ordering of the residues is one again. -/
theorem shift_perm {i : ℕ} {order : List ℕ} (perm : order.Perm (List.range n)) :
    (order.map fun x => (x + i) % n).Perm (List.range n) := by
  refine (perm.map _).trans ?_
  have nodup : ((List.range n).map fun x => (x + i) % n).Nodup := by
    apply List.Nodup.map_on
    · intro x xMember y yMember same
      have xLt := List.mem_range.mp xMember
      have yLt := List.mem_range.mp yMember
      have congruent : x ≡ y [MOD n] := Nat.ModEq.add_right_cancel' i same
      exact congruent.eq_of_lt_of_lt xLt yLt
    · exact List.nodup_range
  have within : ((List.range n).map fun x => (x + i) % n) ⊆ List.range n := by
    intro y member
    obtain ⟨x, xMember, rfl⟩ := List.mem_map.mp member
    have xLt := List.mem_range.mp xMember
    exact List.mem_range.mpr (Nat.mod_lt _ (Nat.zero_lt_of_lt xLt))
  apply (nodup.subperm within).perm_of_length_le
  simp

theorem countP_shift (x : ℕ) {a : ℕ} (below : a < n) :
    (List.range n).countP (fun i => (x + i) % n = a) = 1 := by
  have perm : ((List.range n).map fun i => (i + x) % n).Perm (List.range n) :=
    shift_perm (List.Perm.refl _)
  have once : ((List.range n).map fun i => (i + x) % n).count a = 1 := by
    rw [perm.count_eq]
    exact List.count_eq_one_of_mem List.nodup_range (List.mem_range.mpr below)
  rw [List.count_eq_countP, List.countP_map] at once
  rw [← once]
  apply List.countP_congr
  intro i _
  simp [Nat.add_comm]

theorem countP_shift_pair {x y a b : ℕ} (aBelow : a < n) (bBelow : b < n) :
    (List.range n).countP (fun i => (x + i) % n = a ∧ (y + i) % n = b) =
      if (y + a) % n = (x + b) % n then 1 else 0 := by
  have swap : ∀ i, y + (x + i) = x + (y + i) := by
    intro i
    omega
  split
  · rename_i same
    rw [← countP_shift x aBelow]
    apply List.countP_congr
    intro i _
    simp only [decide_eq_true_eq]
    constructor
    · exact And.left
    · intro first
      refine ⟨first, ?_⟩
      have firstMod : x + i ≡ a [MOD n] := first.trans (Nat.mod_eq_of_lt aBelow).symm
      have chain : x + (y + i) ≡ x + b [MOD n] := by
        rw [← swap]
        exact (firstMod.add_left y).trans same
      have second : y + i ≡ b [MOD n] := Nat.ModEq.add_left_cancel' x chain
      exact Eq.trans second (Nat.mod_eq_of_lt bBelow)
  · rename_i different
    apply List.countP_eq_zero.mpr
    intro i _ holds
    obtain ⟨first, second⟩ := of_decide_eq_true holds
    apply different
    have firstMod : x + i ≡ a [MOD n] := first.trans (Nat.mod_eq_of_lt aBelow).symm
    have secondMod : y + i ≡ b [MOD n] := second.trans (Nat.mod_eq_of_lt bBelow).symm
    have chain := (firstMod.add_left y).symm
    rw [swap] at chain
    exact chain.trans (secondMod.add_left x)

/-! ## Developments -/

theorem length_development (row : List ℕ) : (development n row).length = n := by
  rw [development, List.length_map, List.length_range]

/-- A residue stands once at each position of a development. -/
theorem countP_development {row : List ℕ} {p x : ℕ} (inside : p < row.length) (below : x < n) :
    (development n row).countP (fun shift => shift[p]? = some x) = 1 := by
  rw [development, List.countP_map, ← countP_shift row[p] below]
  apply List.countP_congr
  intro i _
  simp [inside]

theorem count_shifted_pairs (pairs : List (ℕ × ℕ)) {a b : ℕ} (aBelow : a < n)
    (bBelow : b < n) :
    ((List.range n).flatMap fun i =>
        pairs.map (Prod.map (fun x => (x + i) % n) fun x => (x + i) % n)).count (a, b) =
      pairs.countP fun pair => (pair.2 + a) % n = (pair.1 + b) % n := by
  induction pairs with
  | nil =>
      rw [List.countP_nil]
      apply List.count_eq_zero_of_not_mem
      simp
  | cons pair pairs induction =>
      have split := (List.map_append_flatMap_perm (List.range n)
        (fun i => Prod.map (fun x => (x + i) % n) (fun x => (x + i) % n) pair)
        (fun i => pairs.map (Prod.map (fun x => (x + i) % n) fun x => (x + i) % n))).count_eq (a, b)
      have head : ((List.range n).map fun i =>
          Prod.map (fun x => (x + i) % n) (fun x => (x + i) % n) pair).count (a, b) =
          if (pair.2 + a) % n = (pair.1 + b) % n then 1 else 0 := by
        rw [← countP_shift_pair aBelow bBelow, List.count_eq_countP, List.countP_map]
        apply List.countP_congr
        intro i _
        simp [Prod.ext_iff]
      simp only [List.map_cons]
      rw [← split, List.count_append, induction, head, List.countP_cons, Nat.add_comm]
      simp

/-- Two residues are neighbours in a development once for each pair of neighbours of the
row with their difference. -/
theorem count_adjacencies_development (row : List ℕ) {a b : ℕ} (aBelow : a < n)
    (bBelow : b < n) :
    ((development n row).flatMap adjacencies).count (a, b) =
      (adjacencies row).countP fun pair => (pair.2 + a) % n = (pair.1 + b) % n := by
  rw [← count_shifted_pairs _ aBelow bBelow, development, List.flatMap_map]
  simp only [adjacencies_map]

end

end Cyclic

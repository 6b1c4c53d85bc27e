import Stoquant.Tree.Pairs

/-!
# Pairwise reduction of a list

A list of `2 ^ k` elements, halved by combining its even positions with its odd ones
until one element is left, is the tree of adjacent pairs.
-/

namespace Tree

variable {α : Type}

/-- The elements at positions `0, 2, 4, ...`. -/
def everySecond : List α → List α
  | [] => []
  | [x] => [x]
  | x :: _ :: rest => x :: everySecond rest

theorem everySecond_length : (list : List α) →
    (everySecond list).length = (list.length + 1) / 2
  | [] => by simp [everySecond]
  | [_] => by simp [everySecond]
  | _ :: _ :: rest => by
      rw [everySecond, List.length_cons, List.length_cons, List.length_cons,
        everySecond_length rest]
      omega

theorem everySecond_getElem? : (list : List α) → (i : ℕ) →
    (everySecond list)[i]? = list[2 * i]?
  | [], _ => rfl
  | [_], 0 => rfl
  | [_], _ + 1 => rfl
  | _ :: _ :: _, 0 => rfl
  | x :: y :: rest, i + 1 => by
      have index : 2 * (i + 1) = 2 * i + 1 + 1 := by omega
      rw [everySecond, List.getElem?_cons_succ, everySecond_getElem? rest i, index,
        List.getElem?_cons_succ, List.getElem?_cons_succ]

/-- Even positions combined with odd ones until one element is left. -/
def reducePairs (op : α → α → α) (work : List α) : List α :=
  if work.length > 1 then
    reducePairs op (List.zipWith op (everySecond work) (everySecond work.tail))
  else work
termination_by work.length
decreasing_by
  rw [List.length_zipWith, everySecond_length]
  omega

/-- A list that holds the leaves is reduced to the root. -/
theorem reducePairs_eq (op : α → α → α) {k : ℕ} {work : List α} {leaf : ℕ → α}
    (length : work.length = 2 ^ k) (holds : ∀ i < 2 ^ k, work[i]? = some (leaf i)) :
    reducePairs op work = [tree op k leaf] := by
  induction k generalizing work leaf with
  | zero =>
      obtain ⟨x, rfl⟩ := List.length_eq_one_iff.mp length
      have root : x = leaf 0 := Option.some.inj (holds 0 Nat.one_pos)
      have short : ¬ [x].length > 1 := Nat.lt_irrefl 1
      rw [reducePairs, if_neg short, root]
      rfl
  | succ k ih =>
      have double : 2 ^ (k + 1) = 2 * 2 ^ k := Nat.pow_succ'
      have positive : 0 < 2 ^ k := Nat.two_pow_pos k
      have long : work.length > 1 := by omega
      rw [reducePairs, if_pos long, tree]
      apply ih
      · rw [List.length_zipWith, everySecond_length, everySecond_length, List.length_tail]
        omega
      · intro i below
        apply List.getElem?_zipWith_eq_some.mpr
        refine ⟨leaf (2 * i), leaf (2 * i + 1), ?_, ?_, rfl⟩
        · rw [everySecond_getElem?, holds (2 * i) (by omega)]
        · rw [everySecond_getElem?, List.getElem?_tail, holds (2 * i + 1) (by omega)]

end Tree

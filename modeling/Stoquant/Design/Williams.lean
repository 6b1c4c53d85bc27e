import Stoquant.Design

/-!
# Williams balance

The first row of `williams_rows` zigzags through the residues, so that its
successive differences are all distinct for an even number of paths and paired
by reversal for an odd one.
-/

namespace Stoquant

open Cyclic

/-- A balanced set of orders of `n` paths: each order runs each path once, each path
stands equally often at each position, and each path runs equally often right after
each other path. -/
structure Balanced (n : ℕ) (rows : List (List ℕ)) : Prop where
  ordering : ∀ row ∈ rows, row.Perm (List.range n)
  divides : n ∣ rows.length
  position : ∀ p < n, ∀ path < n,
    rows.countP (fun row => row[p]? = some path) = rows.length / n
  adjacency : ∀ before < n, ∀ after < n, before ≠ after →
    (rows.flatMap adjacencies).count (before, after) = rows.length / n

/-! ## The first row -/

/-- The entry of the first row at a position. -/
def zigzag (n j : ℕ) : ℕ := if j % 2 = 1 then (j + 1) / 2 else (n - j / 2) % n

/-- The difference modulo `n` between an entry of the first row and the next. -/
def zigzagStep (n j : ℕ) : ℕ := if j % 2 = 0 then j + 1 else n - (j + 1)

section

variable {n : ℕ}

theorem zigzag_snoc (m : ℕ) :
    (List.range m).map (zigzag n) ++ [zigzag n m] = (List.range (m + 1)).map (zigzag n) := by
  rw [List.range_succ, List.map_append, List.map_singleton]

theorem williamsFirst_eq {fuel k : ℕ} (inside : 2 * k + 1 ≤ n)
    (enough : n ≤ 2 * k + 1 + 2 * fuel) :
    williamsFirst n fuel ((List.range (2 * k + 1)).map (zigzag n)) (k + 1) (n - 1 - k) =
      (List.range n).map (zigzag n) := by
  induction fuel generalizing k with
  | zero =>
      have full : 2 * k + 1 = n := by omega
      rw [williamsFirst, full]
  | succ fuel induction =>
      have low : zigzag n (2 * k + 1) = k + 1 := by
        unfold zigzag
        rw [if_pos (by omega)]
        omega
      have high : 2 * k + 2 < n → zigzag n (2 * k + 2) = n - 1 - k := by
        intro room
        unfold zigzag
        have half : (2 * k + 2) / 2 = k + 1 := by omega
        rw [if_neg (by omega), half, Nat.mod_eq_of_lt (by omega)]
        omega
      have one : (List.range (2 * k + 1)).map (zigzag n) ++ [k + 1] =
          (List.range (2 * k + 2)).map (zigzag n) := by
        rw [← low]
        exact zigzag_snoc (2 * k + 1)
      rw [williamsFirst]
      dsimp only
      rw [one, List.length_map, List.length_map, List.length_range, List.length_range]
      by_cases more : 2 * k + 1 < n
      swap
      · have full : 2 * k + 1 = n := by omega
        rw [if_neg more, full]
      rw [if_pos more]
      by_cases again : 2 * k + 2 < n
      · have two : (List.range (2 * k + 2)).map (zigzag n) ++ [n - 1 - k] =
            (List.range (2 * (k + 1) + 1)).map (zigzag n) := by
          rw [← high again]
          exact zigzag_snoc (2 * k + 2)
        have next : n - 1 - k - 1 = n - 1 - (k + 1) := by omega
        rw [if_pos again, two, next]
        apply induction
        · omega
        · omega
      · have full : 2 * k + 2 = n := by omega
        rw [if_neg again, full, williamsFirst_full]
        simp

theorem williamsFirst_zigzag (pos : 0 < n) :
    williamsFirst n n [0] 1 (n - 1) = (List.range n).map (zigzag n) := by
  have start : (List.range 1).map (zigzag n) = [0] := by
    simp [zigzag]
  have run := @williamsFirst_eq n n 0 (by omega) (by omega)
  rw [Nat.mul_zero, Nat.zero_add, start] at run
  exact run

theorem zigzag_succ {j : ℕ} (inside : j + 1 < n) :
    zigzag n (j + 1) ≡ zigzag n j + zigzagStep n j [MOD n] := by
  rcases Nat.even_or_odd' j with ⟨k, rfl | rfl⟩
  · have next : zigzag n (2 * k + 1) = k + 1 := by
      unfold zigzag
      rw [if_pos (by omega)]
      omega
    have here : zigzag n (2 * k) = (n - k) % n := by
      unfold zigzag
      rw [if_neg (by omega), Nat.mul_div_cancel_left k (by decide)]
    have step : zigzagStep n (2 * k) = 2 * k + 1 := if_pos (by omega)
    have round : n - k + (2 * k + 1) = k + 1 + n := by omega
    have reduced : (n - k) % n + (2 * k + 1) ≡ n - k + (2 * k + 1) [MOD n] :=
      (Nat.mod_modEq (n - k) n).add_right (2 * k + 1)
    rw [next, here, step]
    rw [round] at reduced
    exact (reduced.trans (Nat.add_modEq_right)).symm
  · have next : zigzag n (2 * k + 1 + 1) = (n - (k + 1)) % n := by
      unfold zigzag
      have half : (2 * k + 1 + 1) / 2 = k + 1 := by omega
      rw [if_neg (by omega), half]
    have here : zigzag n (2 * k + 1) = k + 1 := by
      unfold zigzag
      rw [if_pos (by omega)]
      omega
    have step : zigzagStep n (2 * k + 1) = n - (2 * k + 2) := if_neg (by omega)
    have back : k + 1 + (n - (2 * k + 2)) = n - (k + 1) := by omega
    rw [next, here, step, back]
    exact Nat.mod_modEq (n - (k + 1)) n

/-- The residue that takes `before` to `after`. -/
def difference (n before after : ℕ) : ℕ := (after + (n - before)) % n

theorem add_difference {before : ℕ} (inside : before < n) (after : ℕ) :
    before + difference n before after ≡ after [MOD n] := by
  have round : before + (after + (n - before)) = after + n := by omega
  have reduced : before + difference n before after ≡ before + (after + (n - before)) [MOD n] :=
    (Nat.mod_modEq (after + (n - before)) n).add_left before
  rw [round] at reduced
  exact reduced.trans Nat.add_modEq_right

theorem difference_pos {before after : ℕ} (beforeBelow : before < n) (afterBelow : after < n)
    (distinct : before ≠ after) : 0 < difference n before after := by
  apply Nat.pos_of_ne_zero
  intro zero
  have same := add_difference beforeBelow after
  rw [zero, Nat.add_zero] at same
  exact distinct (same.eq_of_lt_of_lt beforeBelow afterBelow)

theorem difference_swap {before after : ℕ} (beforeBelow : before < n) (afterBelow : after < n)
    (distinct : before ≠ after) :
    difference n after before = n - difference n before after := by
  have positive := difference_pos beforeBelow afterBelow distinct
  have below : difference n before after < n := Nat.mod_lt _ (by omega)
  have otherBelow : difference n after before < n := Nat.mod_lt _ (by omega)
  have forth := add_difference beforeBelow after
  have back := add_difference afterBelow before
  have around : before + (difference n before after + difference n after before) ≡
      before + 0 [MOD n] := by
    rw [← Nat.add_assoc]
    exact (forth.add_right _).trans back
  have zero := Nat.ModEq.add_left_cancel' before around
  have divides := (Nat.modEq_zero_iff_dvd).mp zero
  obtain ⟨k, total⟩ := divides
  have one : k = 1 := by
    rcases Nat.lt_or_ge k 2 with small | large
    · interval_cases k
      · omega
      · rfl
    · have := Nat.mul_le_mul_left n large
      omega
  subst one
  omega

/-- Two entries of the zigzag in a row have the difference of a pair exactly when the
step has it. -/
theorem zigzag_adjacent_iff {j before after : ℕ} (inside : j + 1 < n) (beforeBelow : before < n) :
    (zigzag n (j + 1) + before) % n = (zigzag n j + after) % n ↔
      zigzagStep n j = difference n before after := by
  have stepBelow : zigzagStep n j < n := by
    unfold zigzagStep
    split <;> omega
  have moved : zigzag n (j + 1) + before ≡ zigzag n j + (before + zigzagStep n j) [MOD n] := by
    have step := (zigzag_succ inside).add_right before
    have order : zigzag n j + zigzagStep n j + before =
        zigzag n j + (before + zigzagStep n j) := by omega
    rwa [order] at step
  have target := add_difference beforeBelow after
  constructor
  · intro same
    have cancelled : before + zigzagStep n j ≡ after [MOD n] :=
      Nat.ModEq.add_left_cancel' (zigzag n j) (moved.symm.trans same)
    have steps := Nat.ModEq.add_left_cancel' before (cancelled.trans target.symm)
    exact steps.eq_of_lt_of_lt stepBelow (Nat.mod_lt _ (by omega))
  · intro step
    rw [← step] at target
    exact moved.trans (target.add_left (zigzag n j))

/-! ## Steps with a difference -/

/-- How many steps of the zigzag have a difference. -/
def stepCount (n d : ℕ) : ℕ := (List.range (n - 1)).countP fun j => zigzagStep n j = d

theorem countP_range_eq_length {m : ℕ} {accepts : ℕ → Bool} {hits : List ℕ}
    (nodup : hits.Nodup) (same : ∀ j, j ∈ hits ↔ j < m ∧ accepts j = true) :
    (List.range m).countP accepts = hits.length := by
  rw [List.countP_eq_length_filter]
  apply List.Perm.length_eq
  apply (List.perm_ext_iff_of_nodup (List.nodup_range.filter _) nodup).mpr
  intro j
  rw [List.mem_filter, List.mem_range, same]

/-- For an even number of paths the differences are distinct. -/
theorem stepCount_even {d : ℕ} (even : n % 2 = 0) (positive : 0 < d) (below : d < n) :
    stepCount n d = 1 := by
  apply countP_range_eq_length (List.nodup_singleton (if d % 2 = 1 then d - 1 else n - d - 1))
  intro j
  rw [List.mem_singleton, decide_eq_true_eq]
  unfold zigzagStep
  split <;> split <;> omega

/-- For an odd number of paths an odd difference comes twice. -/
theorem stepCount_odd {d : ℕ} (odd : n % 2 = 1) (dOdd : d % 2 = 1) (below : d < n) :
    stepCount n d = 2 := by
  have distinct : [d - 1, n - d - 1].Nodup := by
    simp
    omega
  apply countP_range_eq_length distinct
  · intro j
    rw [List.mem_cons, List.mem_singleton, decide_eq_true_eq]
    unfold zigzagStep
    split <;> omega

theorem stepCount_odd_even {d : ℕ} (odd : n % 2 = 1) (dEven : d % 2 = 0) :
    stepCount n d = 0 := by
  apply List.countP_eq_zero.mpr
  intro j member holds
  have inside := List.mem_range.mp member
  have step := of_decide_eq_true holds
  unfold zigzagStep at step
  split at step <;> omega

/-- For an odd number of paths a difference and its opposite come twice together. -/
theorem stepCount_add_opposite {d : ℕ} (odd : n % 2 = 1) (positive : 0 < d) (below : d < n) :
    stepCount n d + stepCount n (n - d) = 2 := by
  rcases Nat.mod_two_eq_zero_or_one d with dEven | dOdd
  · rw [stepCount_odd_even odd dEven, stepCount_odd odd (by omega) (by omega)]
  · rw [stepCount_odd odd dOdd below, stepCount_odd_even odd (by omega)]

/-! ## The rows -/

theorem count_adjacencies_zigzag {before after : ℕ} (beforeBelow : before < n)
    (afterBelow : after < n) :
    ((development n ((List.range n).map (zigzag n))).flatMap adjacencies).count (before, after) =
      stepCount n (difference n before after) := by
  rw [count_adjacencies_development _ beforeBelow afterBelow, adjacencies_map_range,
    List.countP_map]
  apply List.countP_congr
  intro j member
  have inside := List.mem_range.mp member
  simp only [Function.comp_apply, decide_eq_true_eq]
  exact zigzag_adjacent_iff (by omega) beforeBelow

theorem williamsRows_eq (pos : 0 < n) :
    williamsRows n =
      let rows := development n ((List.range n).map (zigzag n))
      if n % 2 = 1 then rows ++ rows.map List.reverse else rows := by
  rw [williamsRows, williamsFirst_zigzag pos]
  rfl

theorem count_flatMap_reverse (rows : List (List ℕ)) (before after : ℕ) :
    ((rows.map List.reverse).flatMap adjacencies).count (before, after) =
      (rows.flatMap adjacencies).count (after, before) := by
  induction rows with
  | nil => rfl
  | cons row rows induction =>
      rw [List.map_cons, List.flatMap_cons, List.flatMap_cons, List.count_append,
        List.count_append, induction, count_adjacencies_reverse]

theorem length_williamsRows (pos : 0 < n) :
    (williamsRows n).length = if n % 2 = 0 then n else 2 * n := by
  rw [williamsRows_eq pos]
  dsimp only
  rcases Nat.mod_two_eq_zero_or_one n with even | odd
  · rw [if_neg (by omega), if_pos even, length_development]
  · rw [if_pos odd, if_neg (by omega), List.length_append, List.length_map, length_development]
    omega

theorem balanced_williamsRows (pos : 0 < n) : Balanced n (williamsRows n) := by
  have length := length_williamsRows pos
  have rowLength : ((List.range n).map (zigzag n)).length = n := by simp
  refine
    { ordering := fun row member => williamsRows_perm member
      divides := ?_
      position := ?_
      adjacency := ?_ }
  · rw [length]
    split
    · exact Nat.dvd_refl n
    · exact Nat.dvd_mul_left n 2
  · intro p inside path below
    have insideRow : p < ((List.range n).map (zigzag n)).length := by rwa [rowLength]
    have plain := countP_development insideRow below
    rw [length, williamsRows_eq pos]
    dsimp only
    rcases Nat.mod_two_eq_zero_or_one n with even | odd
    · rw [if_neg (by omega), if_pos even, Nat.div_self pos]
      exact plain
    · -- position `p` of a reversed row is position `n - 1 - p` of the row
      have reversed : ((development n ((List.range n).map (zigzag n))).map List.reverse).countP
          (fun row => row[p]? = some path) = 1 := by
        have mirroredInside : n - 1 - p < ((List.range n).map (zigzag n)).length := by
          rw [rowLength]
          omega
        have mirrored := countP_development mirroredInside below
        rw [List.countP_map, ← mirrored]
        apply List.countP_congr
        intro row member
        obtain ⟨i, -, rfl⟩ := List.mem_map.mp member
        have inReversed :
            p < (((List.range n).map (zigzag n)).map fun x => (x + i) % n).length := by
          simpa using inside
        simp only [Function.comp_apply, decide_eq_true_eq]
        rw [List.getElem?_reverse inReversed]
        simp
      rw [if_pos odd, if_neg (by omega), List.countP_append, plain, reversed,
        Nat.mul_div_cancel 2 pos]
  · intro before beforeBelow after afterBelow distinct
    have positive := difference_pos beforeBelow afterBelow distinct
    have below : difference n before after < n := Nat.mod_lt _ pos
    rw [length, williamsRows_eq pos]
    dsimp only
    rcases Nat.mod_two_eq_zero_or_one n with even | odd
    · rw [if_neg (by omega), if_pos even, Nat.div_self pos,
        count_adjacencies_zigzag beforeBelow afterBelow, stepCount_even even positive below]
    · rw [if_pos odd, if_neg (by omega), List.flatMap_append, List.count_append,
        count_flatMap_reverse, count_adjacencies_zigzag beforeBelow afterBelow,
        count_adjacencies_zigzag afterBelow beforeBelow,
        difference_swap beforeBelow afterBelow distinct,
        stepCount_add_opposite odd positive below, Nat.mul_div_cancel 2 pos]

/-! ## The orders of the trials -/

theorem Balanced.append {first second : List (List ℕ)} (firstBalanced : Balanced n first)
    (secondBalanced : Balanced n second) : Balanced n (first ++ second) := by
  have quotient : (first ++ second).length / n = first.length / n + second.length / n := by
    rw [List.length_append]
    exact Nat.add_div_of_dvd_right firstBalanced.divides
  refine
    { ordering := ?_
      divides := ?_
      position := ?_
      adjacency := ?_ }
  · intro row member
    rcases List.mem_append.mp member with inFirst | inSecond
    · exact firstBalanced.ordering row inFirst
    · exact secondBalanced.ordering row inSecond
  · rw [List.length_append]
    exact Nat.dvd_add firstBalanced.divides secondBalanced.divides
  · intro p inside path below
    rw [quotient, List.countP_append, firstBalanced.position p inside path below,
      secondBalanced.position p inside path below]
  · intro before beforeBelow after afterBelow distinct
    rw [quotient, List.flatMap_append, List.count_append,
      firstBalanced.adjacency before beforeBelow after afterBelow distinct,
      secondBalanced.adjacency before beforeBelow after afterBelow distinct]

theorem balanced_repeated {rows : List (List ℕ)} (balanced : Balanced n rows) (copies : ℕ) :
    Balanced n ((List.range (rows.length * copies)).map fun t =>
      rows.getD (t % rows.length) []) := by
  induction copies with
  | zero => exact ⟨by simp, by simp, by simp, by simp⟩
  | succ copies induction =>
      rw [Nat.mul_succ, List.range_add, List.map_append, List.map_map]
      apply induction.append
      have last : ((List.range rows.length).map ((fun t => rows.getD (t % rows.length) []) ∘
          fun t => rows.length * copies + t)) = rows := by
        apply List.ext_getElem
        · simp
        · intro i inRange inRows
          simp [Nat.mod_eq_of_lt inRows, inRows]
      rw [last]
      exact balanced

end

/-- A Williams design is balanced, and so are the orders of every trial count that is
accepted for more than four paths. -/
theorem williams_balanced :
    (∀ n, 1 ≤ n → Balanced n (williamsRows n) ∧
      (williamsRows n).length = if n % 2 = 0 then n else 2 * n) ∧
    ∀ pathCount trials orders, maxPermutationPaths < pathCount →
      trialOrders pathCount trials = .ok orders →
        Balanced pathCount orders ∧ orders.length = trials := by
  constructor
  · intro n pos
    exact ⟨balanced_williamsRows pos, length_williamsRows pos⟩
  · intro pathCount trials orders many designed
    refine ⟨?_, (trialOrders_spec designed).1⟩
    have pos : 0 < pathCount := Nat.zero_lt_of_lt many
    rw [trialOrders, if_neg (Nat.not_le.mpr many)] at designed
    dsimp only at designed
    split at designed
    · cases designed
    · rename_i whole
      cases designed
      obtain ⟨copies, total⟩ := Nat.dvd_of_mod_eq_zero (not_not.mp whole)
      rw [total]
      exact balanced_repeated (balanced_williamsRows pos) copies

theorem williams_balanced_fivePaths :
    (Balanced 5 (williamsRows 5) ∧ (williamsRows 5).length = 10) ∧
      Balanced 5 (williamsRows 5 ++ williamsRows 5) ∧
      (williamsRows 5 ++ williamsRows 5).length = 20 :=
  ⟨williams_balanced.1 5 (by decide),
    williams_balanced.2 5 20 (williamsRows 5 ++ williamsRows 5) (by decide) (by decide)⟩

end Stoquant

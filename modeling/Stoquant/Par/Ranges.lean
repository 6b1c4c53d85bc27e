import Mathlib.Data.List.Range
import Mathlib.Order.Monotone.Basic
import Mathlib.Tactic

/-!
# Contiguous shares

Cut points in increasing order divide an interval into one range for each
member of a team.
-/

namespace Par

/-- The indices from one cut point to the next. -/
def range (cut : ℕ → ℕ) (t : ℕ) : List ℕ :=
  List.range' (cut t) (cut (t + 1) - cut t)

variable {cut : ℕ → ℕ}

theorem mem_range {t i : ℕ} : i ∈ range cut t ↔ cut t ≤ i ∧ i < cut (t + 1) := by
  rw [range, List.mem_range'_1]
  omega

theorem range_disjoint (mono : Monotone cut) {t u i : ℕ} (different : t ≠ u)
    (member : i ∈ range cut t) : i ∉ range cut u := by
  rw [mem_range] at member ⊢
  rcases Nat.lt_or_gt_of_ne different with below | above
  · have := mono (show t + 1 ≤ u from below)
    omega
  · have := mono (show u + 1 ≤ t from above)
    omega

/-- Every index between the first and the last cut point has a range. -/
theorem exists_range {n i : ℕ} (first : cut 0 ≤ i) (last : i < cut n) :
    ∃ t < n, i ∈ range cut t := by
  induction n with
  | zero => omega
  | succ n ih =>
      by_cases before : i < cut n
      · obtain ⟨t, below, member⟩ := ih before
        exact ⟨t, by omega, member⟩
      · exact ⟨n, Nat.lt_succ_self n, mem_range.mpr ⟨by omega, last⟩⟩

/-- Every index between the first and the last cut point has one range. -/
theorem existsUnique_range (mono : Monotone cut) {n i : ℕ} (first : cut 0 ≤ i)
    (last : i < cut n) : ∃! t, t < n ∧ i ∈ range cut t := by
  obtain ⟨t, below, member⟩ := exists_range first last
  refine ⟨t, ⟨below, member⟩, ?_⟩
  rintro u ⟨-, member'⟩
  by_contra different
  exact range_disjoint mono different member' member

/-- In their order the ranges of a team are the whole interval. -/
theorem flatMap_range (mono : Monotone cut) (n : ℕ) :
    (List.range n).flatMap (range cut) = List.range' (cut 0) (cut n - cut 0) := by
  induction n with
  | zero => simp
  | succ n ih =>
      have start : cut 0 ≤ cut n := mono (Nat.zero_le n)
      have step : cut n ≤ cut (n + 1) := mono (Nat.le_succ n)
      have joined : cut n = cut 0 + (cut n - cut 0) := (Nat.add_sub_cancel' start).symm
      have lengths : cut n - cut 0 + (cut (n + 1) - cut n) = cut (n + 1) - cut 0 := by omega
      rw [List.range_succ, List.flatMap_append, ih, List.flatMap_singleton, range]
      nth_rewrite 2 [joined]
      rw [List.range'_append_1, lengths]

end Par

import Stoquant.Par.Team
import Stoquant.Par.Ranges
import Stoquant.Quantizer.Scale

/-!
# OpenMP regions

A parallel region runs with some team size and some interleaving of its
threads.  The work of the AVX2 backend is divided among them in contiguous
shares of items or of whole 256-element units.
-/

namespace Stoquant

open Par

/-- What the OpenMP runtime decides for one execution of a parallel region. -/
structure OmpRegion where
  team : ℕ
  team_pos : 0 < team
  scheduler : Scheduler

/-- `split`: the share of one thread, as its begin and its end. -/
def split (n thread team : ℕ) : ℕ × ℕ :=
  let base := n / team
  let extra := n % team
  let first := thread * base + (if thread < extra then thread else extra)
  (first, first + base + (if thread < extra then 1 else 0))

/-- `unit_range`. -/
def unitRange (count thread team : ℕ) : ℕ × ℕ :=
  let share := split (blockCount count) thread team
  (share.1 * sqScaleBlockSize,
    if share.2 * sqScaleBlockSize > count then count
    else share.2 * sqScaleBlockSize)

/-- Where the share of a thread begins. -/
def splitCut (n team thread : ℕ) : ℕ :=
  thread * (n / team) + min thread (n % team)

theorem split_eq (n thread team : ℕ) :
    split n thread team = (splitCut n team thread, splitCut n team (thread + 1)) := by
  unfold split splitCut
  dsimp only
  rw [Nat.succ_mul]
  generalize n / team = base
  generalize n % team = extra
  split_ifs <;> refine Prod.ext ?_ ?_ <;> dsimp only <;> omega

theorem splitCut_mono (n team : ℕ) : Monotone (splitCut n team) := by
  refine monotone_nat_of_le_succ fun t => ?_
  unfold splitCut
  rw [Nat.succ_mul]
  generalize n / team = base
  omega

theorem splitCut_zero (n team : ℕ) : splitCut n team 0 = 0 := by
  simp [splitCut]

theorem splitCut_team (n : ℕ) {team : ℕ} (pos : 0 < team) :
    splitCut n team team = n := by
  have recompose := Nat.div_add_mod n team
  have below := Nat.mod_lt n pos
  rw [splitCut, Nat.min_eq_right below.le]
  exact recompose

/-- The items of a thread's share. -/
theorem range'_split (n thread team : ℕ) :
    List.range' (split n thread team).1
      ((split n thread team).2 - (split n thread team).1) =
      range (splitCut n team) thread := by
  rw [split_eq, range]

/-- Every item belongs to the share of some thread. -/
theorem exists_split {n team i : ℕ} (pos : 0 < team) (below : i < n) :
    ∃ t < team, i ∈ range (splitCut n team) t :=
  exists_range (by rw [splitCut_zero]; omega) (by rwa [splitCut_team n pos])

theorem unitRange_eq (count thread team : ℕ) :
    unitRange count thread team =
      (splitCut (blockCount count) team thread * sqScaleBlockSize,
        min (splitCut (blockCount count) team (thread + 1) * sqScaleBlockSize)
          count) := by
  unfold unitRange
  rw [split_eq, min_def]
  dsimp only
  split_ifs <;> first | rfl | (refine Prod.ext rfl ?_; dsimp only; omega)

/-- An element belongs to a thread's range when its unit belongs to its share. -/
theorem mem_unitRange {count thread team i : ℕ} :
    (unitRange count thread team).1 ≤ i ∧ i < (unitRange count thread team).2 ↔
      i < count ∧ i / sqScaleBlockSize ∈
        range (splitCut (blockCount count) team) thread := by
  rw [unitRange_eq, mem_range, Nat.le_div_iff_mul_le (by decide),
    Nat.div_lt_iff_lt_mul (by decide)]
  simp only [lt_min_iff]
  tauto

end Stoquant

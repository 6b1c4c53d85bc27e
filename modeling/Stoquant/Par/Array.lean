import Stoquant.Par.Team

/-!
# Shared arrays

Tasks whose memory is one array, and the run of consecutive stores that fills
a part of it.
-/

namespace Par

/-- Tasks over a shared array of elements of one type. -/
abbrev ArrayTask (α Event : Type) := Task (fun _ : ℕ => α) Event

namespace Task

variable {α Event : Type}

/-- Store `value 0, value 1, ...` from an index on. -/
def storeRun (first length : ℕ) (value : ℕ → α) : ArrayTask α Event :=
  forEach (List.range length) fun k => .write (first + k) (value k) .done

theorem within_storeRun (first length : ℕ) (value : ℕ → α) :
    (storeRun first length value : ArrayTask α Event).Within ∅
      { a | first ≤ a ∧ a < first + length } := by
  refine within_forEach fun k member => ⟨?_, trivial⟩
  have := List.mem_range.mp member
  constructor <;> omega

theorem raceFree_storeRun (first length : ℕ) (value : ℕ → α) :
    (storeRun first length value : ArrayTask α Event).RaceFree :=
  raceFree_forEach fun _ _ => trivial

theorem storeRun_cell (first length : ℕ) (value : ℕ → α)
    (m : Mem (fun _ : ℕ => α) Event) (a : ℕ) :
    ((storeRun first length value).eval m).cell a =
      if first ≤ a ∧ a < first + length then value (a - first)
      else m.cell a := by
  rw [storeRun, eval_forEach]
  induction length with
  | zero => simp
  | succ length ih =>
      have last : ∀ m : Mem (fun _ : ℕ => α) Event,
          ((Task.write (first + length) (value length) .done).eval m).cell a =
            Function.update m.cell (first + length) (value length) a :=
        fun _ => rfl
      rw [List.range_succ, List.foldl_append, List.foldl_cons, List.foldl_nil,
        last]
      by_cases last : a = first + length
      · subst last
        rw [Function.update_self, if_pos (by omega)]
        congr 1
        omega
      · rw [Function.update_of_ne last, ih]
        split_ifs <;> first | rfl | omega

end Task

end Par

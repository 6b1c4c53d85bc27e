import Mathlib.Logic.Function.Basic
import Mathlib.Data.Nat.Log
import Mathlib.Tactic

/-!
# Counted and halving loops

Loops over arrays, an array being a function of its index.  A counted loop
runs its body for `0, 1, ..., n - 1`; a halving loop runs over `n, n / 2, ...`
down to one.
-/

namespace Loop

variable {σ α : Type}

/-- The body for `0, 1, ..., n - 1` in this order. -/
def upTo : ℕ → (ℕ → σ → σ) → σ → σ
  | 0, _, s => s
  | n + 1, body, s => body n (upTo n body s)

theorem upTo_eq_foldl (n : ℕ) (body : ℕ → σ → σ) (s : σ) :
    upTo n body s = (List.range n).foldl (fun s i => body i s) s := by
  induction n with
  | zero => rfl
  | succ n ih => simp [upTo, List.range_succ, ih]

/-- A loop that stores a value computed from the index alone. -/
theorem upTo_store (n : ℕ) (value : ℕ → α) (array : ℕ → α) :
    upTo n (fun i array => Function.update array i (value i)) array =
      fun i => if i < n then value i else array i := by
  induction n with
  | zero => simp [upTo]
  | succ n ih =>
      funext i
      rw [upTo, ih]
      by_cases last : i = n
      · subst last
        simp
      · have : i < n + 1 ↔ i < n := by omega
        simp [Function.update_of_ne last, this]

/-- The values `n, n / 2, n / 4, ...` before zero. -/
def halvings (n : ℕ) : List ℕ :=
  if n = 0 then [] else n :: halvings (n / 2)
termination_by n

@[simp] theorem halvings_zero : halvings 0 = [] := by rw [halvings, if_pos rfl]

/-- The loop `for (stride = 2 ^ k / 2; stride != 0; stride /= 2)`. -/
theorem halvings_half_pow_succ (k : ℕ) :
    halvings (2 ^ (k + 1) / 2) = 2 ^ k :: halvings (2 ^ k / 2) := by
  have halved : 2 ^ (k + 1) / 2 = 2 ^ k := by
    rw [pow_succ]
    exact Nat.mul_div_cancel _ (by norm_num)
  rw [halved]
  cases k with
  | zero => decide +kernel
  | succ k => rw [halvings, if_neg (by positivity)]

@[simp] theorem halvings_half_one : halvings (2 ^ 0 / 2) = [] := by
  decide +kernel

/-- The strides of a halving loop are at most its first one. -/
theorem le_of_mem_halvings {n stride : ℕ} (member : stride ∈ halvings n) : stride ≤ n := by
  induction n using Nat.strong_induction_on with
  | _ n ih =>
      rw [halvings] at member
      split at member
      · cases member
      · rename_i nonzero
        rcases List.mem_cons.mp member with rfl | later
        · exact le_rfl
        · have := ih (n / 2) (Nat.div_lt_self (Nat.pos_of_ne_zero nonzero) (by norm_num)) later
          exact this.trans (Nat.div_le_self n 2)

/-- The loop that doubles a positive value until it reaches a target, absent
when a value above the limit would be doubled. -/
def doubleTo (limit target value : ℕ) (pos : 0 < value) : Option ℕ :=
  if value < target then
    if value > limit then none
    else doubleTo limit target (2 * value) (by omega)
  else some value
termination_by target - value

/-- From a power of two on, doubling stops at the least power of two not below
the target. -/
theorem doubleTo_pow {limit target : ℕ} (within : target ≤ limit + 1) (j : ℕ)
    (start : j ≤ Nat.clog 2 target) :
    doubleTo limit target (2 ^ j) (Nat.two_pow_pos j) =
      some (2 ^ Nat.clog 2 target) := by
  induction rest : Nat.clog 2 target - j generalizing j with
  | zero =>
      have top : j = Nat.clog 2 target := by omega
      have reached := Nat.le_pow_clog (b := 2) (by norm_num) target
      subst top
      rw [doubleTo, if_neg (Nat.not_lt.mpr reached)]
  | succ rest ih =>
      have below : 2 ^ j < target :=
        (Nat.lt_clog_iff_pow_lt (by norm_num)).mp (by omega)
      have twice : 2 * 2 ^ j = 2 ^ (j + 1) := by ring
      rw [doubleTo, if_pos below, if_neg (by omega)]
      simp only [twice]
      exact ih (j + 1) (by omega) (by omega)

theorem doubleTo_one {limit target : ℕ} (within : target ≤ limit + 1) :
    doubleTo limit target 1 Nat.one_pos = some (2 ^ Nat.clog 2 target) :=
  doubleTo_pow within 0 (Nat.zero_le _)

end Loop

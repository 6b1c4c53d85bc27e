import Stoquant.Ieee.Rounding

/-!
# Rounding to nearest, ties to even

A rounding is decided by how candidate values compare with the exact result.
The result itself may be irrational, so it enters as a cut: the comparison of
a natural number with twice the result, both in units.  The same search then
serves sums, products, quotients and square roots, and it computes.
-/

namespace Ieee

variable {φ : Format}

/-- Greatest number below `base + 2 ^ k` that fits, found bit by bit. -/
def search (fits : ℕ → Bool) : ℕ → ℕ → ℕ
  | 0, base => base
  | k + 1, base =>
      search fits k (if fits (base + 2 ^ k) then base + 2 ^ k else base)

theorem search_spec {fits : ℕ → Bool} (k base : ℕ)
    (below : fits base = true) (above : fits (base + 2 ^ k) = false) :
    fits (search fits k base) = true ∧ fits (search fits k base + 1) = false := by
  induction k generalizing base with
  | zero => exact ⟨below, above⟩
  | succ k ih =>
      unfold search
      by_cases half : fits (base + 2 ^ k) = true
      · rw [if_pos half]
        refine ih _ half ?_
        rw [Nat.add_assoc, ← Nat.two_mul, ← pow_succ']
        exact above
      · rw [if_neg half]
        exact ih _ below (by simpa using half)

/-- Whether the value of magnitude `m` does not exceed the exact result. -/
def magFits (φ : Format) (cut : ℕ → Ordering) (m : ℕ) : Bool :=
  decide (m ≤ φ.infMag) && (cut (2 * units φ m)).isLE

/-- Choice between `m` and `m + 1` by how their midpoint compares with the
exact result; a tie goes to the even one. -/
def nearer (m : ℕ) : Ordering → ℕ
  | .gt => m
  | .lt => m + 1
  | .eq => if m % 2 = 0 then m else m + 1

/-- Nearest magnitude to the exact result. -/
def roundMag (φ : Format) (cut : ℕ → Ordering) : ℕ :=
  let m := search (magFits φ cut) φ.magBits 0
  if m = φ.infMag then m
  else nearer m (cut (units φ m + units φ (m + 1)))

theorem nearer_bounds (m : ℕ) (midpoint : Ordering) :
    m ≤ nearer m midpoint ∧ nearer m midpoint ≤ m + 1 := by
  cases midpoint
  · simp only [nearer]
    omega
  · simp only [nearer]
    split <;> omega
  · simp only [nearer]
    omega

/-- The cut of a real number of units. -/
noncomputable def realCut (t : ℝ) (k : ℕ) : Ordering := compare (k : ℝ) (2 * t)

/-- The cut of the quotient `num / den`. -/
def fracCut (num den : ℕ) (k : ℕ) : Ordering := compare (k * den) (2 * num)

/-- The cut of the square root of `num`. -/
def sqrtCut (num : ℕ) (k : ℕ) : Ordering := compare (k * k) (4 * num)

theorem compare_congr {α β : Type*} [LinearOrder α] [LinearOrder β]
    {a b : α} {c d : β} (lt : a < b ↔ c < d) (gt : b < a ↔ d < c) :
    compare a b = compare c d := by
  rcases lt_trichotomy a b with h | h | h
  · rw [compare_lt_iff_lt.mpr h, compare_lt_iff_lt.mpr (lt.mp h)]
  · have notLt : ¬ c < d := fun below => absurd (lt.mpr below) (by simp [h])
    have notGt : ¬ d < c := fun above => absurd (gt.mpr above) (by simp [h])
    rw [compare_eq_iff_eq.mpr h,
      compare_eq_iff_eq.mpr (le_antisymm (not_lt.mp notGt) (not_lt.mp notLt))]
  · rw [compare_gt_iff_gt.mpr h, compare_gt_iff_gt.mpr (gt.mp h)]

theorem fracCut_eq {num den : ℕ} (pos : 0 < den) :
    fracCut num den = realCut ((num : ℝ) / den) := by
  funext k
  have denPos : (0 : ℝ) < den := by exact_mod_cast pos
  refine compare_congr ?_ ?_
  · rw [← Nat.cast_lt (α := ℝ), mul_div_assoc', lt_div_iff₀ denPos]
    push_cast
    rfl
  · rw [← Nat.cast_lt (α := ℝ), mul_div_assoc', div_lt_iff₀ denPos]
    push_cast
    rfl

theorem sqrtCut_eq (num : ℕ) : sqrtCut num = realCut (Real.sqrt num) := by
  funext k
  have twice : 2 * Real.sqrt num = Real.sqrt ((4 * num : ℕ) : ℝ) := by
    push_cast
    rw [Real.sqrt_mul (by norm_num), show (4 : ℝ) = 2 ^ 2 by norm_num,
      Real.sqrt_sq (by norm_num)]
  have square : (k : ℝ) = Real.sqrt ((k * k : ℕ) : ℝ) := by
    push_cast
    rw [Real.sqrt_mul_self (Nat.cast_nonneg k)]
  refine compare_congr ?_ ?_
  · rw [twice, square, Real.sqrt_lt_sqrt_iff (Nat.cast_nonneg _), Nat.cast_lt]
  · rw [twice, square, Real.sqrt_lt_sqrt_iff (Nat.cast_nonneg _), Nat.cast_lt]

section

variable {t s : ℝ}

theorem magFits_realCut_iff {m : ℕ} :
    magFits φ (realCut t) m = true ↔ m ≤ φ.infMag ∧ (units φ m : ℝ) ≤ t := by
  simp only [magFits, realCut, Bool.and_eq_true, decide_eq_true_eq,
    Ordering.isLE_iff_ne_gt, compare_gt_iff_gt, not_lt]
  push_cast
  constructor
  · rintro ⟨bound, le⟩
    exact ⟨bound, by linarith⟩
  · rintro ⟨bound, le⟩
    exact ⟨bound, by linarith⟩

theorem search_realCut (nonneg : 0 ≤ t) :
    let m := search (magFits φ (realCut t)) φ.magBits 0
    m ≤ φ.infMag ∧ (units φ m : ℝ) ≤ t ∧
      (m < φ.infMag → t < units φ (m + 1)) := by
  have below : magFits φ (realCut t) 0 = true := by
    rw [magFits_realCut_iff]
    exact ⟨Nat.zero_le _, by simpa using nonneg⟩
  have above : magFits φ (realCut t) (0 + 2 ^ φ.magBits) = false := by
    rw [Bool.eq_false_iff, ne_eq, magFits_realCut_iff]
    rintro ⟨bound, -⟩
    have := φ.infMag_lt
    omega
  obtain ⟨fits, next⟩ := search_spec φ.magBits 0 below above
  rw [magFits_realCut_iff] at fits
  refine ⟨fits.1, fits.2, ?_⟩
  intro small
  rw [Bool.eq_false_iff, ne_eq, magFits_realCut_iff] at next
  by_contra le
  exact next ⟨small, not_lt.mp le⟩

theorem roundMag_le (nonneg : 0 ≤ t) : roundMag φ (realCut t) ≤ φ.infMag := by
  obtain ⟨bound, -, -⟩ := search_realCut (φ := φ) nonneg
  unfold roundMag
  dsimp only
  split
  · exact bound
  · rename_i different
    have := (nearer_bounds (search (magFits φ (realCut t)) φ.magBits 0)
      (realCut t (units φ (search (magFits φ (realCut t)) φ.magBits 0) +
        units φ (search (magFits φ (realCut t)) φ.magBits 0 + 1)))).2
    omega

/-- Between two consecutive values the midpoint decides. -/
theorem roundMag_between {m : ℕ} (small : m < φ.infMag)
    (lower : (units φ m : ℝ) ≤ t) (upper : t < units φ (m + 1)) :
    roundMag φ (realCut t) =
      nearer m (realCut t (units φ m + units φ (m + 1))) := by
  have nonneg : 0 ≤ t := le_trans (Nat.cast_nonneg _) lower
  obtain ⟨bound, fits, next⟩ := search_realCut (φ := φ) nonneg
  have found : search (magFits φ (realCut t)) φ.magBits 0 = m := by
    apply le_antisymm
    · have : units φ (search (magFits φ (realCut t)) φ.magBits 0) <
          units φ (m + 1) := by exact_mod_cast lt_of_le_of_lt fits upper
      exact Nat.lt_succ_iff.mp (units_lt_iff.mp this)
    · by_contra less
      have less := not_le.mp less
      have : units φ m < units φ (search (magFits φ (realCut t)) φ.magBits 0 + 1) := by
        exact_mod_cast lt_of_le_of_lt lower (next (by omega))
      have := units_lt_iff.mp this
      omega
  unfold roundMag
  dsimp only
  rw [found, if_neg (by omega)]

theorem roundMag_above (large : (units φ φ.infMag : ℝ) ≤ t) :
    roundMag φ (realCut t) = φ.infMag := by
  have nonneg : 0 ≤ t := le_trans (Nat.cast_nonneg _) large
  obtain ⟨bound, fits, next⟩ := search_realCut (φ := φ) nonneg
  have found : search (magFits φ (realCut t)) φ.magBits 0 = φ.infMag := by
    by_contra different
    have small : search (magFits φ (realCut t)) φ.magBits 0 < φ.infMag :=
      lt_of_le_of_ne bound different
    have : units φ φ.infMag < units φ (search (magFits φ (realCut t)) φ.magBits 0 + 1) := by
      exact_mod_cast lt_of_le_of_lt large (next small)
    have := units_lt_iff.mp this
    omega
  unfold roundMag
  dsimp only
  rw [if_pos found, found]

/-- A result in range lies between two consecutive values. -/
theorem exists_between (nonneg : 0 ≤ t) (inRange : t < units φ φ.infMag) :
    ∃ m, m < φ.infMag ∧ (units φ m : ℝ) ≤ t ∧ t < units φ (m + 1) := by
  obtain ⟨bound, fits, next⟩ := search_realCut (φ := φ) nonneg
  have small : search (magFits φ (realCut t)) φ.magBits 0 < φ.infMag := by
    have : units φ (search (magFits φ (realCut t)) φ.magBits 0) < units φ φ.infMag := by
      exact_mod_cast lt_of_le_of_lt fits inRange
    exact units_lt_iff.mp this
  exact ⟨_, small, fits, next small⟩

theorem roundMag_between_bounds {m : ℕ} (small : m < φ.infMag)
    (lower : (units φ m : ℝ) ≤ t) (upper : t < units φ (m + 1)) :
    m ≤ roundMag φ (realCut t) ∧ roundMag φ (realCut t) ≤ m + 1 := by
  rw [roundMag_between small lower upper]
  exact nearer_bounds _ _

theorem roundMag_exact {m : ℕ} (bound : m ≤ φ.infMag) :
    roundMag φ (realCut (units φ m)) = m := by
  rcases Nat.lt_or_eq_of_le bound with small | rfl
  · have upper : (units φ m : ℝ) < units φ (m + 1) := by
      exact_mod_cast units_lt_iff.mpr (Nat.lt_succ_self m)
    rw [roundMag_between small le_rfl upper]
    have : realCut (units φ m : ℝ) (units φ m + units φ (m + 1)) = .gt := by
      rw [realCut, compare_gt_iff_gt]
      push_cast
      linarith
    rw [this, nearer]
  · exact roundMag_above le_rfl

theorem nearer_mono (m : ℕ) (le : t ≤ s) (k : ℕ) :
    nearer m (realCut t k) ≤ nearer m (realCut s k) := by
  have tBounds := nearer_bounds m (realCut t k)
  have sBounds := nearer_bounds m (realCut s k)
  rcases tCut : realCut t k with _ | _ | _
  · have : realCut s k = .lt := by
      rw [realCut, compare_lt_iff_lt] at tCut ⊢
      linarith
    rw [this]
  · rcases sCut : realCut s k with _ | _ | _
    · rw [tCut] at tBounds
      exact tBounds.2
    · exact le_rfl
    · rw [realCut, compare_eq_iff_eq] at tCut
      rw [realCut, compare_gt_iff_gt] at sCut
      linarith
  · exact sBounds.1

theorem roundMag_mono (nonneg : 0 ≤ t) (le : t ≤ s) :
    roundMag φ (realCut t) ≤ roundMag φ (realCut s) := by
  by_cases sLarge : (units φ φ.infMag : ℝ) ≤ s
  · rw [roundMag_above sLarge]
    exact roundMag_le nonneg
  have sRange := not_le.mp sLarge
  obtain ⟨m, mSmall, mLower, mUpper⟩ :=
    exists_between nonneg (lt_of_le_of_lt le sRange)
  obtain ⟨n, nSmall, nLower, nUpper⟩ :=
    exists_between (le_trans nonneg le) sRange
  have mn : m ≤ n := by
    have : units φ m < units φ (n + 1) := by
      exact_mod_cast lt_of_le_of_lt (le_trans mLower le) nUpper
    exact Nat.lt_succ_iff.mp (units_lt_iff.mp this)
  rcases Nat.lt_or_eq_of_le mn with less | rfl
  · have mBounds := roundMag_between_bounds mSmall mLower mUpper
    have nBounds := roundMag_between_bounds nSmall nLower nUpper
    omega
  · rw [roundMag_between mSmall mLower mUpper,
      roundMag_between nSmall nLower nUpper]
    exact nearer_mono m le _

end

/-- The exact result `± num / den` units, rounded. -/
def roundFrac (φ : Format) (sign : Bool) (num den : ℕ) : Fp φ :=
  Fp.ofMag φ sign (roundMag φ (fracCut num den))

/-- The quiet NaN that invalid operations return. -/
def nan (φ : Format) : Fp φ :=
  { sign := false
    mag := 2 ^ φ.magBits - 1
    mag_lt := Nat.sub_lt (by positivity) (by norm_num) }

namespace Nearest

variable (x y : Fp φ)

def add : Fp φ :=
  if x.isNaN || y.isNaN then nan φ
  else if x.isInf then
    if y.isInf && (x.sign ^^ y.sign) then nan φ else x
  else if y.isInf then y
  else
    let sum := x.toUnits + y.toUnits
    if sum = 0 then Fp.ofMag φ (x.sign && y.sign) 0
    else roundFrac φ (decide (sum < 0)) sum.natAbs 1

def mul : Fp φ :=
  if x.isNaN || y.isNaN then nan φ
  else if x.isInf || y.isInf then
    if x.mag = 0 ∨ y.mag = 0 then nan φ else Fp.inf φ (x.sign ^^ y.sign)
  else
    roundFrac φ (x.sign ^^ y.sign) (units φ x.mag * units φ y.mag)
      (2 ^ φ.unitExp)

def div : Fp φ :=
  if x.isNaN || y.isNaN then nan φ
  else if x.isInf then
    if y.isInf then nan φ else Fp.inf φ (x.sign ^^ y.sign)
  else if y.isInf then Fp.ofMag φ (x.sign ^^ y.sign) 0
  else if y.mag = 0 then
    if x.mag = 0 then nan φ else Fp.inf φ (x.sign ^^ y.sign)
  else
    roundFrac φ (x.sign ^^ y.sign) (units φ x.mag * 2 ^ φ.unitExp)
      (units φ y.mag)

def sqrt : Fp φ :=
  if x.isNaN then nan φ
  else if x.mag = 0 then x
  else if x.sign then nan φ
  else if x.isInf then x
  else Fp.ofMag φ false (roundMag φ (sqrtCut (units φ x.mag * 2 ^ φ.unitExp)))

def ofInt (φ : Format) (n : ℤ) : Fp φ :=
  roundFrac φ (decide (n < 0)) (n.natAbs * 2 ^ φ.unitExp) 1

/-- Round to nearest of the reals. -/
noncomputable def round (φ : Format) (r : ℝ) : Fp φ :=
  Fp.ofMag φ (decide (r < 0)) (roundMag φ (realCut (|r| * 2 ^ φ.unitExp)))

theorem mag_ofMag_roundMag {t : ℝ} (sign : Bool) (nonneg : 0 ≤ t) :
    (Fp.ofMag φ sign (roundMag φ (realCut t))).mag =
      roundMag φ (realCut t) :=
  Nat.min_eq_left (roundMag_le nonneg)

theorem ofMag_not_nan (sign : Bool) (m : ℕ) :
    (Fp.ofMag φ sign m).isNaN = false := by
  simp [Fp.isNaN, Fp.ofMag]

theorem scaled_nonneg (r : ℝ) : 0 ≤ |r| * 2 ^ φ.unitExp := by positivity

theorem key_round (r : ℝ) :
    (round φ r).key =
      if r < 0 then -(roundMag φ (realCut (|r| * 2 ^ φ.unitExp)) : ℤ)
      else roundMag φ (realCut (|r| * 2 ^ φ.unitExp)) := by
  have mag := mag_ofMag_roundMag (φ := φ) (decide (r < 0)) (scaled_nonneg (φ := φ) r)
  unfold round Fp.key
  rw [mag]
  simp [Fp.ofMag]

theorem abs_toReal_mul (x : Fp φ) :
    |x.toReal| * 2 ^ φ.unitExp = units φ x.mag := by
  have unitPos : (0 : ℝ) < 2 ^ φ.unitExp := by positivity
  unfold Fp.toReal Fp.toRat
  push_cast
  rw [abs_div, abs_of_pos unitPos, div_mul_cancel₀ _ (ne_of_gt unitPos)]
  cases sign : x.sign <;> simp [Fp.toUnits, sign]

theorem toReal_neg_iff (x : Fp φ) : x.toReal < 0 ↔ x.sign = true ∧ x.mag ≠ 0 := by
  have : x.toReal < 0 ↔ x.key < 0 := by
    rw [← not_le, Fp.toReal_nonneg_iff, not_le]
  rw [this]
  unfold Fp.key
  cases x.sign <;> simp
  omega

theorem round_exact {x : Fp φ} (finite : x.isFinite = true) :
    (round φ x.toReal).key = x.key := by
  have bound := Nat.le_of_lt (Fp.isFinite_iff.mp finite)
  rw [key_round, abs_toReal_mul, roundMag_exact bound]
  simp only [toReal_neg_iff]
  unfold Fp.key
  cases x.sign <;> by_cases zero : x.mag = 0 <;> simp [zero]

theorem round_mono {r s : ℝ} (le : r ≤ s) :
    (round φ r).key ≤ (round φ s).key := by
  have unitPos : (0 : ℝ) ≤ 2 ^ φ.unitExp := by positivity
  rw [key_round, key_round]
  by_cases rNeg : r < 0
  · by_cases sNeg : s < 0
    · have abs : |s| * 2 ^ φ.unitExp ≤ |r| * 2 ^ φ.unitExp := by
        rw [abs_of_neg rNeg, abs_of_neg sNeg]
        exact mul_le_mul_of_nonneg_right (by linarith) unitPos
      have := roundMag_mono (φ := φ) (scaled_nonneg s) abs
      rw [if_pos rNeg, if_pos sNeg]
      omega
    · rw [if_pos rNeg, if_neg sNeg]
      omega
  · have sNonneg : ¬ s < 0 := by linarith
    have abs : |r| * 2 ^ φ.unitExp ≤ |s| * 2 ^ φ.unitExp := by
      rw [abs_of_nonneg (not_lt.mp rNeg), abs_of_nonneg (not_lt.mp sNonneg)]
      exact mul_le_mul_of_nonneg_right le unitPos
    have := roundMag_mono (φ := φ) (scaled_nonneg r) abs
    rw [if_neg rNeg, if_neg sNonneg]
    exact_mod_cast this

theorem round_odd (r : ℝ) : (round φ (-r)).key = -(round φ r).key := by
  rw [key_round, key_round, abs_neg]
  rcases lt_trichotomy r 0 with neg | rfl | pos
  · rw [if_pos neg, if_neg (by linarith), neg_neg]
  · have : roundMag φ (realCut 0) = 0 := by
      have := roundMag_exact (φ := φ) (Nat.zero_le _)
      simpa using this
    simp [this]
  · rw [if_pos (neg_lt_zero.mpr pos), if_neg (not_lt.mpr pos.le)]

noncomputable def rounding (φ : Format) : Rounding φ :=
  { round := round φ
    not_nan := fun _ => ofMag_not_nan _ _
    mono := round_mono
    exact := round_exact }

theorem ofMag_same {r t : ℝ} (sign : Bool) (nonneg : 0 ≤ t)
    (value : |r| * 2 ^ φ.unitExp = t)
    (signed : r ≠ 0 → (sign = true ↔ r < 0)) :
    SameValue (Fp.ofMag φ sign (roundMag φ (realCut t))) (round φ r) := by
  refine ⟨ofMag_not_nan _ _, ofMag_not_nan _ _, ?_⟩
  rw [key_round, value]
  unfold Fp.key
  rw [mag_ofMag_roundMag sign nonneg]
  by_cases zero : r = 0
  · subst zero
    have tZero : t = 0 := by simpa using value.symm
    have := roundMag_exact (φ := φ) (Nat.zero_le _)
    simp only [units_zero, Nat.cast_zero] at this
    simp [tZero, this]
  · have iff := signed zero
    by_cases neg : r < 0
    · simp [Fp.ofMag, iff.mpr neg, neg]
    · have : sign = false := by simpa [neg] using iff
      simp [Fp.ofMag, this, neg]

theorem roundFrac_same {r : ℝ} (sign : Bool) {num den : ℕ} (pos : 0 < den)
    (value : |r| * 2 ^ φ.unitExp = (num : ℝ) / den)
    (signed : r ≠ 0 → (sign = true ↔ r < 0)) :
    SameValue (roundFrac φ sign num den) (round φ r) := by
  unfold roundFrac
  rw [fracCut_eq pos]
  exact ofMag_same sign (by positivity) value signed

variable {x y}

theorem isInf_eq_false (finite : x.isFinite = true) : x.isInf = false := by
  have := Fp.isFinite_iff.mp finite
  simp [Fp.isInf]
  omega

theorem toReal_mul_unit (x : Fp φ) :
    x.toReal * 2 ^ φ.unitExp = x.toUnits := by
  unfold Fp.toReal Fp.toRat
  push_cast
  exact div_mul_cancel₀ _ (by positivity)

theorem add_rounds (xFinite : x.isFinite = true) (yFinite : y.isFinite = true) :
    SameValue (add x y) (round φ (x.toReal + y.toReal)) := by
  have unitPos : (0 : ℝ) < 2 ^ φ.unitExp := by positivity
  have value : (x.toReal + y.toReal) * 2 ^ φ.unitExp =
      ((x.toUnits + y.toUnits : ℤ) : ℝ) := by
    rw [add_mul, toReal_mul_unit, toReal_mul_unit]
    push_cast
    rfl
  have absValue : |x.toReal + y.toReal| * 2 ^ φ.unitExp =
      ((x.toUnits + y.toUnits).natAbs : ℝ) / (1 : ℕ) := by
    rw [Nat.cast_one, div_one, Nat.cast_natAbs, Int.cast_abs, ← value, abs_mul,
      abs_of_pos unitPos]
  have signed : x.toReal + y.toReal < 0 ↔ x.toUnits + y.toUnits < 0 := by
    rw [← Int.cast_lt_zero (R := ℝ), ← value]
    constructor
    · exact fun neg => mul_neg_of_neg_of_pos neg unitPos
    · intro neg
      by_contra nonneg
      exact absurd (mul_nonneg (not_lt.mp nonneg) unitPos.le) (not_le.mpr neg)
  have notNan : (x.isNaN || y.isNaN) = false := by
    simp [Fp.not_isNaN_of_isFinite xFinite, Fp.not_isNaN_of_isFinite yFinite]
  unfold add
  simp only [notNan, isInf_eq_false xFinite, isInf_eq_false yFinite,
    Bool.false_eq_true, if_false]
  split
  · rename_i zero
    have : x.toReal + y.toReal = 0 := by
      have : (x.toReal + y.toReal) * 2 ^ φ.unitExp = 0 := by rw [value, zero]; simp
      exact (mul_eq_zero.mp this).resolve_right unitPos.ne'
    rw [this]
    refine ⟨ofMag_not_nan _ _, ofMag_not_nan _ _, ?_⟩
    have exact := round_exact (φ := φ) Fp.isFinite_zero
    rw [Fp.toReal_eq_zero_iff.mpr Fp.mag_zero, Fp.key_zero] at exact
    rw [exact]
    simp [Fp.key, Fp.ofMag]
  · exact roundFrac_same _ (by norm_num) absValue (fun _ => by simp [signed])

theorem xor_sign_iff (xNonzero : x.toReal ≠ 0) (yNonzero : y.toReal ≠ 0) :
    (x.sign ^^ y.sign) = true ↔
      0 < x.toReal ∧ y.toReal < 0 ∨ x.toReal < 0 ∧ 0 < y.toReal := by
  have pos_iff : ∀ {a : ℝ}, a ≠ 0 → (0 < a ↔ ¬ a < 0) := fun nonzero =>
    ⟨fun pos => not_lt.mpr pos.le, fun nonneg =>
      lt_of_le_of_ne (not_lt.mp nonneg) (Ne.symm nonzero)⟩
  have xMag : x.mag ≠ 0 := fun h => xNonzero (Fp.toReal_eq_zero_iff.mpr h)
  have yMag : y.mag ≠ 0 := fun h => yNonzero (Fp.toReal_eq_zero_iff.mpr h)
  rw [pos_iff xNonzero, pos_iff yNonzero, toReal_neg_iff, toReal_neg_iff]
  cases x.sign <;> cases y.sign <;> simp [xMag, yMag]

theorem mul_rounds (xFinite : x.isFinite = true) (yFinite : y.isFinite = true) :
    SameValue (mul x y) (round φ (x.toReal * y.toReal)) := by
  have notNan : (x.isNaN || y.isNaN) = false := by
    simp [Fp.not_isNaN_of_isFinite xFinite, Fp.not_isNaN_of_isFinite yFinite]
  have value : |x.toReal * y.toReal| * 2 ^ φ.unitExp =
      ((units φ x.mag * units φ y.mag : ℕ) : ℝ) / (2 ^ φ.unitExp : ℕ) := by
    push_cast
    rw [← abs_toReal_mul, ← abs_toReal_mul, abs_mul]
    field_simp
  unfold mul
  simp only [notNan, isInf_eq_false xFinite, isInf_eq_false yFinite,
    Bool.false_eq_true, if_false, Bool.or_false]
  refine roundFrac_same _ (by positivity) value ?_
  intro nonzero
  obtain ⟨xNonzero, yNonzero⟩ := mul_ne_zero_iff.mp nonzero
  rw [mul_neg_iff]
  exact xor_sign_iff xNonzero yNonzero

theorem div_rounds (xFinite : x.isFinite = true) (yFinite : y.isFinite = true)
    (nonzero : y.mag ≠ 0) :
    SameValue (div x y) (round φ (x.toReal / y.toReal)) := by
  have notNan : (x.isNaN || y.isNaN) = false := by
    simp [Fp.not_isNaN_of_isFinite xFinite, Fp.not_isNaN_of_isFinite yFinite]
  have yUnits : 0 < units φ y.mag :=
    Nat.pos_of_ne_zero fun h => nonzero (units_eq_zero_iff.mp h)
  have yReal : y.toReal ≠ 0 := fun h => nonzero (Fp.toReal_eq_zero_iff.mp h)
  have yAbs : |y.toReal| ≠ 0 := abs_ne_zero.mpr yReal
  have value : |x.toReal / y.toReal| * 2 ^ φ.unitExp =
      ((units φ x.mag * 2 ^ φ.unitExp : ℕ) : ℝ) / (units φ y.mag : ℕ) := by
    push_cast
    rw [← abs_toReal_mul, ← abs_toReal_mul, abs_div]
    field_simp
  unfold div
  simp only [notNan, isInf_eq_false xFinite, isInf_eq_false yFinite, nonzero,
    Bool.false_eq_true, if_false]
  refine roundFrac_same _ yUnits value ?_
  intro quotient
  have xNonzero : x.toReal ≠ 0 := fun h => quotient (by rw [h, zero_div])
  rw [div_neg_iff]
  exact xor_sign_iff xNonzero yReal

theorem sqrt_rounds (xFinite : x.isFinite = true) (nonneg : 0 ≤ x.key) :
    SameValue (sqrt x) (round φ (Real.sqrt x.toReal)) := by
  unfold sqrt
  simp only [Fp.not_isNaN_of_isFinite xFinite, isInf_eq_false xFinite,
    Bool.false_eq_true, if_false]
  split
  · rename_i zero
    have xReal : x.toReal = 0 := Fp.toReal_eq_zero_iff.mpr zero
    rw [xReal, Real.sqrt_zero, ← xReal]
    exact ⟨Fp.not_isNaN_of_isFinite xFinite, ofMag_not_nan _ _,
      (round_exact xFinite).symm⟩
  · rename_i nonzero
    have sign : x.sign = false := by
      unfold Fp.key at nonneg
      cases h : x.sign with
      | false => rfl
      | true =>
          simp [h] at nonneg
          omega
    simp only [sign, Bool.false_eq_true, if_false]
    rw [sqrtCut_eq]
    have unitPos : (0 : ℝ) ≤ 2 ^ φ.unitExp := by positivity
    have xNonneg : 0 ≤ x.toReal := Fp.toReal_nonneg_iff.mpr nonneg
    refine ofMag_same _ (Real.sqrt_nonneg _) ?_ ?_
    · push_cast
      rw [← abs_toReal_mul, abs_of_nonneg (Real.sqrt_nonneg _),
        abs_of_nonneg xNonneg, mul_assoc, ← pow_two,
        Real.sqrt_mul xNonneg, Real.sqrt_sq unitPos]
    · intro _
      simp [Real.sqrt_nonneg]

theorem ofInt_rounds (n : ℤ) : SameValue (ofInt φ n) (round φ n) := by
  refine roundFrac_same _ (by norm_num) ?_ ?_
  · push_cast
    rw [div_one, Nat.cast_natAbs, Int.cast_abs]
  · intro _
    simp

theorem sign_roundFrac (sign : Bool) (num den : ℕ) :
    (roundFrac φ sign num den).sign = sign := rfl

theorem mul_sign (xFinite : x.isFinite = true) (yFinite : y.isFinite = true) :
    (mul x y).sign = (x.sign ^^ y.sign) := by
  simp [mul, Fp.not_isNaN_of_isFinite xFinite, Fp.not_isNaN_of_isFinite yFinite,
    isInf_eq_false xFinite, isInf_eq_false yFinite, sign_roundFrac]

theorem div_sign (xFinite : x.isFinite = true) (yFinite : y.isFinite = true)
    (nonzero : y.mag ≠ 0) : (div x y).sign = (x.sign ^^ y.sign) := by
  simp [div, Fp.not_isNaN_of_isFinite xFinite, Fp.not_isNaN_of_isFinite yFinite,
    isInf_eq_false xFinite, isInf_eq_false yFinite, sign_roundFrac, nonzero]

theorem mul_inf (xInf : x.isInf = true) (yFinite : y.isFinite = true)
    (nonzero : y.mag ≠ 0) : mul x y = Fp.inf φ (x.sign ^^ y.sign) := by
  have xMag : x.mag = φ.infMag := by simpa [Fp.isInf] using xInf
  have xNotNan : x.isNaN = false := by simp [Fp.isNaN, xMag]
  have infPos := φ.infMag_pos
  simp [mul, xNotNan, Fp.not_isNaN_of_isFinite yFinite, xInf, xMag, nonzero]
  omega

end Nearest

/-- Executable arithmetic of the format, every operation rounded to nearest. -/
@[reducible] def nearestArith (φ : Format) : Arith φ :=
  { add := Nearest.add
    mul := Nearest.mul
    div := Nearest.div
    sqrt := Nearest.sqrt
    ofInt := Nearest.ofInt φ }

/-- Round to nearest, ties to even, is rounded arithmetic treating both signs
alike. -/
@[reducible] noncomputable def nearestEven (φ : Format) : SymmetricArith φ :=
  { nearestArith φ with
    rounding := Nearest.rounding φ
    add_rounds := Nearest.add_rounds
    mul_rounds := Nearest.mul_rounds
    div_rounds := Nearest.div_rounds
    sqrt_rounds := Nearest.sqrt_rounds
    ofInt_rounds := Nearest.ofInt_rounds
    mul_sign := Nearest.mul_sign
    div_sign := Nearest.div_sign
    mul_inf := Nearest.mul_inf
    ofInt_sign := fun _ => rfl
    odd := Nearest.round_odd }

end Ieee

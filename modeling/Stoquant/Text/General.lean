import Mathlib.Data.Int.Log
import Mathlib.Data.List.DropRight
import Mathlib.Data.Rat.Floor
import Stoquant.Text.Decimal

/-!
# General number texts

The `g` format of a number: its digits rounded to a given number of significant
ones, with an exponent where the number is very large or very small.
-/

namespace Text

/-- The nearest integer, and of two the even one. -/
def roundHalfEven (x : ℚ) : ℤ :=
  let below := ⌊x⌋
  let rest := x - below
  if rest < 1 / 2 then below
  else if 1 / 2 < rest then below + 1
  else if below % 2 = 0 then below
  else below + 1

theorem floor_le_roundHalfEven (x : ℚ) : ⌊x⌋ ≤ roundHalfEven x := by
  unfold roundHalfEven
  dsimp only
  split_ifs <;> omega

theorem roundHalfEven_le_floor (x : ℚ) : roundHalfEven x ≤ ⌊x⌋ + 1 := by
  unfold roundHalfEven
  dsimp only
  split_ifs <;> omega

theorem roundHalfEven_nonneg {x : ℚ} (nonneg : 0 ≤ x) : 0 ≤ roundHalfEven x :=
  (Int.floor_nonneg.mpr nonneg).trans (floor_le_roundHalfEven x)

/-- The decimal exponent of a positive number and its first digits as an integer. -/
def significant (digits : ℕ) (magnitude : ℚ) : ℤ × ℕ :=
  let exponent := Int.log 10 magnitude
  let rounded := (roundHalfEven (magnitude * 10 ^ ((digits : ℤ) - 1 - exponent))).toNat
  if rounded = 10 ^ digits then (exponent + 1, 10 ^ (digits - 1)) else (exponent, rounded)

theorem significant_digits {digits : ℕ} (some : digits ≠ 0) {magnitude : ℚ}
    (positive : 0 < magnitude) :
    10 ^ (digits - 1) ≤ (significant digits magnitude).2 ∧
      (significant digits magnitude).2 < 10 ^ digits := by
  let exponent := Int.log 10 magnitude
  let scaled := magnitude * 10 ^ ((digits : ℤ) - 1 - exponent)
  have shift : (0 : ℚ) < 10 ^ ((digits : ℤ) - 1 - exponent) := by positivity
  have lower : (((10 ^ (digits - 1) : ℕ) : ℤ) : ℚ) ≤ scaled := by
    have below : (10 : ℚ) ^ exponent ≤ magnitude :=
      Int.zpow_log_le_self (by norm_num) positive
    have product : (((10 ^ (digits - 1) : ℕ) : ℤ) : ℚ) =
        10 ^ exponent * 10 ^ ((digits : ℤ) - 1 - exponent) := by
      rw [← zpow_add₀ (by norm_num)]
      push_cast
      rw [← zpow_natCast]
      congr 1
      omega
    rw [product]
    exact mul_le_mul_of_nonneg_right below shift.le
  have upper : scaled < (((10 ^ digits : ℕ) : ℤ) : ℚ) := by
    have above : magnitude < (10 : ℚ) ^ (exponent + 1) :=
      Int.lt_zpow_succ_log_self (by norm_num) magnitude
    have product : (((10 ^ digits : ℕ) : ℤ) : ℚ) =
        10 ^ (exponent + 1) * 10 ^ ((digits : ℤ) - 1 - exponent) := by
      rw [← zpow_add₀ (by norm_num)]
      push_cast
      rw [← zpow_natCast]
      congr 1
      omega
    rw [product]
    exact mul_lt_mul_of_pos_right above shift
  have least := (Int.le_floor.mpr lower).trans (floor_le_roundHalfEven scaled)
  have most := (roundHalfEven_le_floor scaled).trans (Int.floor_lt.mpr upper)
  have powers : 10 ^ digits = 10 * 10 ^ (digits - 1) := by
    rw [← pow_succ']
    congr 1
    omega
  have positivePower : 0 < 10 ^ (digits - 1) := by positivity
  show 10 ^ (digits - 1) ≤ (if (roundHalfEven scaled).toNat = 10 ^ digits then
      (exponent + 1, 10 ^ (digits - 1)) else (exponent, (roundHalfEven scaled).toNat)).2 ∧
    (if (roundHalfEven scaled).toNat = 10 ^ digits then
      (exponent + 1, 10 ^ (digits - 1)) else (exponent, (roundHalfEven scaled).toNat)).2 <
        10 ^ digits
  split
  · dsimp only
    omega
  · dsimp only
    omega

example : significant 3 (99996 / 100) = (3, 100) := by decide +kernel

/-- Digits before and after the point, without trailing zeros. -/
def pointText (whole fraction : List Char) : List Char :=
  let kept := fraction.rdropWhile fun digit => digit = '0'
  if kept = [] then whole else whole ++ '.' :: kept

/-- An exponent: its sign and at least two digits. -/
def exponentText (exponent : ℤ) : List Char :=
  let digits := Nat.toDigits 10 exponent.natAbs
  'e' :: (if exponent < 0 then '-' else '+') ::
    (if digits.length < 2 then '0' :: digits else digits)

/-- `f"{value:.{digits}g}"`. -/
def general (digits : ℕ) (value : ℚ) : String :=
  if value = 0 then "0"
  else
    let (exponent, significand) := significant digits |value|
    let text := Nat.toDigits 10 significand
    let body :=
      if exponent < -4 ∨ digits ≤ exponent then
        pointText (text.take 1) (text.drop 1) ++ exponentText exponent
      else if exponent < 0 then
        pointText ['0'] (List.replicate (-exponent - 1).toNat '0' ++ text)
      else pointText (text.take (exponent.toNat + 1)) (text.drop (exponent.toNat + 1))
    String.ofList (if value < 0 then '-' :: body else body)

/-- The number that is written. -/
def generalValue (digits : ℕ) (value : ℚ) : ℚ :=
  if value = 0 then 0
  else
    let (exponent, significand) := significant digits |value|
    (if value < 0 then -1 else 1) * (significand * 10 ^ (exponent + 1 - digits))

end Text

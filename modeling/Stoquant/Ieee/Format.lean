import Mathlib.Algebra.Order.Field.Rat
import Mathlib.Data.Rat.Cast.Order
import Mathlib.Tactic

/-!
# Binary interchange formats

A datum is its sign bit and its magnitude bits, the exponent field followed by
the trailing significand.  Read as one natural number the magnitude bits are
ordered like the values they denote, so comparisons are comparisons of an
integer key.  Every finite value is a natural number of units, the unit being
the least subnormal.
-/

namespace Ieee

/-- Field widths of a binary interchange format. -/
structure Format where
  expBits : ℕ
  manBits : ℕ
  expBits_ge : 2 ≤ expBits
  manBits_pos : 1 ≤ manBits

namespace Format

/-- Binary32: eight exponent bits and twenty-three significand bits. -/
def binary32 : Format := ⟨8, 23, by decide, by decide⟩

/-- Binary64: eleven exponent bits and fifty-two significand bits. -/
def binary64 : Format := ⟨11, 52, by decide, by decide⟩

/-- Width of a datum without its sign bit. -/
def magBits (φ : Format) : ℕ := φ.expBits + φ.manBits

/-- Magnitude bits of infinity: the exponent field all ones. -/
def infMag (φ : Format) : ℕ := (2 ^ φ.expBits - 1) * 2 ^ φ.manBits

/-- The least subnormal is `2 ^ (-unitExp)`. -/
def unitExp (φ : Format) : ℕ := 2 ^ (φ.expBits - 1) + φ.manBits - 2

theorem infMag_lt (φ : Format) : φ.infMag < 2 ^ φ.magBits := by
  unfold infMag magBits
  rw [pow_add]
  have expPos : 0 < 2 ^ φ.expBits := by positivity
  have manPos : 0 < 2 ^ φ.manBits := by positivity
  exact Nat.mul_lt_mul_of_pos_right (by omega) manPos

theorem infMag_pos (φ : Format) : 0 < φ.infMag := by
  unfold infMag
  have wide : 2 ^ 2 ≤ 2 ^ φ.expBits :=
    Nat.pow_le_pow_right (by norm_num) φ.expBits_ge
  have manPos : 0 < 2 ^ φ.manBits := by positivity
  exact Nat.mul_pos (by omega) manPos

end Format

variable {φ : Format}

/-- Significand denoted by magnitude bits, with the hidden bit of a normal. -/
def significand (φ : Format) (m : ℕ) : ℕ :=
  if m < 2 ^ φ.manBits then m else 2 ^ φ.manBits + m % 2 ^ φ.manBits

/-- Exponent above the subnormal one denoted by magnitude bits. -/
def exponent (φ : Format) (m : ℕ) : ℕ := m / 2 ^ φ.manBits - 1

/-- Magnitude in units of the least subnormal. -/
def units (φ : Format) (m : ℕ) : ℕ := significand φ m * 2 ^ exponent φ m

/-- Consecutive magnitudes differ by one unit in the last place. -/
theorem units_succ (m : ℕ) :
    units φ (m + 1) = units φ m + 2 ^ exponent φ m := by
  have manPos : 0 < 2 ^ φ.manBits := by positivity
  unfold units significand exponent
  set p := 2 ^ φ.manBits with p_def
  have split := Nat.div_add_mod m p
  have modLt := Nat.mod_lt m manPos
  by_cases carry : m % p + 1 = p
  · have next : m + 1 = p * (m / p + 1) := by
      rw [Nat.mul_add, Nat.mul_one]
      omega
    have nextDiv : (m + 1) / p = m / p + 1 := by
      rw [next, Nat.mul_div_cancel_left _ manPos]
    have nextMod : (m + 1) % p = 0 := by rw [next, Nat.mul_mod_right]
    have nextGe : ¬ m + 1 < p := by
      rw [next]
      exact Nat.not_lt.mpr (Nat.le_mul_of_pos_right _ (Nat.succ_pos _))
    rw [nextDiv, nextMod, if_neg nextGe]
    by_cases small : m < p
    · have divZero : m / p = 0 := Nat.div_eq_of_lt small
      have modEq : m % p = m := Nat.mod_eq_of_lt small
      rw [if_pos small, divZero]
      simp
      omega
    · have divPos : 0 < m / p := Nat.div_pos (Nat.le_of_not_lt small) manPos
      obtain ⟨e, e_eq⟩ : ∃ e, m / p = e + 1 := ⟨m / p - 1, by omega⟩
      rw [if_neg small, e_eq]
      have top : p + m % p + 1 = 2 * p := by omega
      calc
        (p + 0) * 2 ^ (e + 1 + 1 - 1) = 2 * p * 2 ^ e := by
          simp only [Nat.add_sub_cancel, pow_succ, Nat.add_zero]
          ring
        _ = (p + m % p) * 2 ^ e + 2 ^ e := by rw [← top]; ring
        _ = (p + m % p) * 2 ^ (e + 1 - 1) + 2 ^ (e + 1 - 1) := by
          simp only [Nat.add_sub_cancel]
  · have nextLt : m % p + 1 < p := by omega
    have nextDiv : (m + 1) / p = m / p := by
      rw [← split]
      rw [Nat.add_assoc, Nat.mul_add_div manPos, Nat.mul_add_div manPos,
        Nat.div_eq_of_lt nextLt, Nat.div_eq_of_lt modLt]
    have nextMod : (m + 1) % p = m % p + 1 := by
      rw [Nat.add_mod, Nat.mod_eq_of_lt (show 1 < p by omega),
        Nat.mod_eq_of_lt nextLt]
    rw [nextDiv, nextMod]
    by_cases small : m < p
    · have modEq : m % p = m := Nat.mod_eq_of_lt small
      have nextSmall : m + 1 < p := by omega
      have divZero : m / p = 0 := Nat.div_eq_of_lt small
      simp [small, nextSmall, divZero]
    · have nextBig : ¬ m + 1 < p := by omega
      rw [if_neg small, if_neg nextBig]
      ring

theorem units_strictMono : StrictMono (units φ) :=
  strictMono_nat_of_lt_succ fun m => by
    rw [units_succ]
    exact Nat.lt_add_of_pos_right (by positivity)

@[simp] theorem units_zero : units φ 0 = 0 := by
  simp [units, significand]

theorem units_lt_iff {m n : ℕ} : units φ m < units φ n ↔ m < n :=
  units_strictMono.lt_iff_lt

theorem units_eq_zero_iff {m : ℕ} : units φ m = 0 ↔ m = 0 := by
  have := units_strictMono.injective.eq_iff (a := m) (b := 0) (f := units φ)
  simpa using this

theorem units_inj {m n : ℕ} : units φ m = units φ n ↔ m = n :=
  units_strictMono.injective.eq_iff

/-- A datum of the format: sign bit and magnitude bits. -/
@[ext] structure Fp (φ : Format) where
  sign : Bool
  mag : ℕ
  mag_lt : mag < 2 ^ φ.magBits
  deriving DecidableEq

namespace Fp

/-- The bit pattern, sign bit on top. -/
def toBits (x : Fp φ) : ℕ := (if x.sign then 2 ^ φ.magBits else 0) + x.mag

/-- The datum of a bit pattern; bits above the sign are ignored. -/
def ofBits (φ : Format) (bits : ℕ) : Fp φ :=
  { sign := decide (bits / 2 ^ φ.magBits % 2 = 1)
    mag := bits % 2 ^ φ.magBits
    mag_lt := Nat.mod_lt _ (by positivity) }

theorem toBits_lt (x : Fp φ) : x.toBits < 2 ^ (φ.magBits + 1) := by
  have := x.mag_lt
  unfold toBits
  rw [pow_succ]
  split <;> omega

@[simp] theorem ofBits_toBits (x : Fp φ) : ofBits φ x.toBits = x := by
  have magLt := x.mag_lt
  have widthPos : 0 < 2 ^ φ.magBits := by positivity
  ext
  · cases sign : x.sign
    · simp [ofBits, toBits, sign, Nat.div_eq_of_lt magLt]
    · simp [ofBits, toBits, sign, Nat.add_div_left _ widthPos,
        Nat.div_eq_of_lt magLt]
  · cases sign : x.sign <;>
      simp [ofBits, toBits, sign, Nat.mod_eq_of_lt magLt]

theorem toBits_ofBits {bits : ℕ} (bound : bits < 2 ^ (φ.magBits + 1)) :
    (ofBits φ bits).toBits = bits := by
  have widthPos : 0 < 2 ^ φ.magBits := by positivity
  have top : bits / 2 ^ φ.magBits < 2 := by
    rw [Nat.div_lt_iff_lt_mul widthPos]
    rw [pow_succ] at bound
    omega
  have recompose := Nat.div_add_mod bits (2 ^ φ.magBits)
  unfold toBits ofBits
  simp only [decide_eq_true_eq]
  rw [Nat.mod_eq_of_lt top]
  split
  · rename_i one
    rw [one, Nat.mul_one] at recompose
    exact recompose
  · rename_i notOne
    have zero : bits / 2 ^ φ.magBits = 0 := by
      generalize bits / 2 ^ φ.magBits = top at *
      omega
    rw [zero, Nat.mul_zero] at recompose
    exact recompose

def isFinite (x : Fp φ) : Bool := decide (x.mag < φ.infMag)

def isNaN (x : Fp φ) : Bool := decide (φ.infMag < x.mag)

def isInf (x : Fp φ) : Bool := decide (x.mag = φ.infMag)

def abs (x : Fp φ) : Fp φ := { x with sign := false }

def neg (x : Fp φ) : Fp φ := { x with sign := !x.sign }

/-- Magnitude `m` with the given sign; callers keep `m` in range. -/
def ofMag (φ : Format) (sign : Bool) (m : ℕ) : Fp φ :=
  { sign
    mag := min m φ.infMag
    mag_lt := lt_of_le_of_lt (Nat.min_le_right _ _) φ.infMag_lt }

def zero (φ : Format) : Fp φ := ofMag φ false 0

def inf (φ : Format) (sign : Bool) : Fp φ := ofMag φ sign φ.infMag

/-- The order of data that are not NaN: the two zeros share a key. -/
def key (x : Fp φ) : ℤ := if x.sign then -(x.mag : ℤ) else x.mag

/-- The ordered comparison `x < y`, false when an operand is NaN. -/
def lt (x y : Fp φ) : Bool := !x.isNaN && !y.isNaN && decide (x.key < y.key)

/-- The comparison `x == y`, false when an operand is NaN. -/
def eq (x y : Fp φ) : Bool := !x.isNaN && !y.isNaN && decide (x.key = y.key)

/-- Value in units of the least subnormal; infinity reads as the next power. -/
def toUnits (x : Fp φ) : ℤ := if x.sign then -(units φ x.mag : ℤ) else units φ x.mag

def toRat (x : Fp φ) : ℚ := x.toUnits / 2 ^ φ.unitExp

/-- Truncation of the value toward zero, as a conversion to an integer type. -/
def trunc (x : Fp φ) : ℤ :=
  if x.isFinite then
    let n : ℤ := units φ x.mag / 2 ^ φ.unitExp
    if x.sign then -n else n
  else 0

/-- Magnitude bits with the fraction cleared. -/
def integerMag (φ : Format) (m : ℕ) : ℕ :=
  let fractionBits := φ.unitExp - exponent φ m
  if fractionBits ≤ φ.manBits then m / 2 ^ fractionBits * 2 ^ fractionBits
  else 0

/-- Magnitude bits of the next integer above a magnitude with a fraction. -/
def nextIntegerMag (φ : Format) (m : ℕ) : ℕ :=
  let fractionBits := φ.unitExp - exponent φ m
  if fractionBits ≤ φ.manBits then integerMag φ m + 2 ^ fractionBits
  else (2 ^ (φ.expBits - 1) - 1) * 2 ^ φ.manBits

/-- Greatest integral value not above the operand. -/
def floor (x : Fp φ) : Fp φ :=
  if x.isFinite then
    if x.sign && decide (integerMag φ x.mag ≠ x.mag) then
      ofMag φ true (nextIntegerMag φ x.mag)
    else ofMag φ x.sign (integerMag φ x.mag)
  else x

theorem key_lt_iff {x y : Fp φ} : x.key < y.key ↔ x.toUnits < y.toUnits := by
  have forward := units_lt_iff (φ := φ) (m := x.mag) (n := y.mag)
  have backward := units_lt_iff (φ := φ) (m := y.mag) (n := x.mag)
  have xZero := units_eq_zero_iff (φ := φ) (m := x.mag)
  have yZero := units_eq_zero_iff (φ := φ) (m := y.mag)
  unfold key toUnits
  cases x.sign <;> cases y.sign <;> simp <;> omega

theorem key_le_iff {x y : Fp φ} : x.key ≤ y.key ↔ x.toUnits ≤ y.toUnits := by
  have := key_lt_iff (x := y) (y := x)
  omega

theorem key_eq_iff {x y : Fp φ} : x.key = y.key ↔ x.toUnits = y.toUnits := by
  have hxy := key_lt_iff (x := x) (y := y)
  have hyx := key_lt_iff (x := y) (y := x)
  omega

end Fp

end Ieee

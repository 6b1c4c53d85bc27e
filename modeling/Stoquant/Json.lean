import Mathlib.Algebra.Order.Field.Rat
import Stoquant.Dict.Basic

/-!
# JSON values

What `json.loads` returns: integers keep every digit, other numbers are floats,
and the float literals `NaN` and `Infinity` are accepted.
-/

namespace Stoquant

/-- A float read from a JSON text.  A finite one is its value. -/
inductive JsonFloat where
  | finite (value : ℚ)
  | infinite (negative : Bool)
  | nan
  deriving DecidableEq, Repr

/-- A JSON value; an object is a dictionary in insertion order. -/
inductive Json where
  | null
  | bool (value : Bool)
  | int (value : ℤ)
  | float (value : JsonFloat)
  | str (text : String)
  | arr (items : List Json)
  | obj (fields : List (String × Json))

/-- The items of an array of plain integers. -/
def intItems : List Json → Option (List ℤ)
  | [] => some []
  | .int value :: items => (intItems items).map (value :: ·)
  | _ :: _ => none

theorem intItems_map_int (values : List ℤ) : intItems (values.map .int) = some values := by
  induction values with
  | nil => rfl
  | cons value values induction => simp [intItems, induction]

/-- A time in a response: an integer of any size or a finite float. -/
inductive Timing where
  | int (value : ℕ)
  | float (value : ℚ)
  deriving DecidableEq, Repr

/-- The exact value of a time. -/
def Timing.value : Timing → ℚ
  | .int value => value
  | .float value => value

/-- `_valid_timing` of a number: the time it denotes, if finite and nonnegative. -/
def validTiming : Json → Option Timing
  | .int value => if value < 0 then none else some (.int value.toNat)
  | .float (.finite value) => if value < 0 then none else some (.float value)
  | _ => none

/-- `isinstance(value, (int, float))` for a value that is not a bool. -/
def isNumber : Json → Bool
  | .int _ => true
  | .float _ => true
  | _ => false

end Stoquant

import Mathlib.Algebra.BigOperators.Intervals
import Mathlib.Algebra.Order.Field.Rat
import Mathlib.Tactic

/-!
# Draws below a threshold

A uniform draw from `0, ..., N - 1` that selects one of two values by comparing the draw
with a threshold.  Counts and means are exact.
-/

namespace Draw

variable {N t : ℕ}

end Draw

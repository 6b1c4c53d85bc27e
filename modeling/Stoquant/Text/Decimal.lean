import Mathlib.Data.List.Basic
import Mathlib.Tactic

/-!
# Decimal texts

An integer is determined by its decimal text, and a text is determined by its
parts when a separator that does not occur in them stands between them.
-/

namespace Text

/-- The decimal text of an integer. -/
def decimal (n : ℤ) : String := n.repr

theorem toList_decimal (n : ℤ) :
    (decimal n).toList =
      if n < 0 then '-' :: Nat.toDigits 10 n.natAbs
      else Nat.toDigits 10 n.natAbs := by
  cases n with
  | ofNat m =>
      have nonneg : ¬ (Int.ofNat m) < 0 := by simp
      rw [if_neg nonneg]
      exact Nat.toList_repr
  | negSucc m =>
      have negative : Int.negSucc m < 0 := Int.negSucc_lt_zero m
      have text : decimal (Int.negSucc m) = "-" ++ (m + 1).repr := rfl
      rw [if_pos negative, text, String.toList_append, Nat.toList_repr]
      rfl

theorem digit_of_mem {n : ℕ} {c : Char} (member : c ∈ Nat.toDigits 10 n) :
    c.isDigit = true :=
  Nat.isDigit_of_mem_toDigits (by norm_num) le_rfl member

/-- Every character of a decimal text is a digit or the sign. -/
theorem mem_decimal {n : ℤ} {c : Char} (member : c ∈ (decimal n).toList) :
    c = '-' ∨ c.isDigit = true := by
  rw [toList_decimal] at member
  split at member
  · rcases List.mem_cons.mp member with sign | digit
    · exact .inl sign
    · exact .inr (digit_of_mem digit)
  · exact .inr (digit_of_mem member)

theorem toDigits_injective : Function.Injective (Nat.toDigits 10) := by
  intro m n same
  have read := congrArg (fun digits => Nat.ofDigitChars 10 digits 0) same
  rwa [Nat.ofDigitChars_ten_toDigits, Nat.ofDigitChars_ten_toDigits] at read

theorem decimal_injective : Function.Injective decimal := by
  intro m n same
  have lists := congrArg String.toList same
  rw [toList_decimal, toList_decimal] at lists
  have sign : ∀ k l : ℕ, '-' :: Nat.toDigits 10 k ≠ Nat.toDigits 10 l := by
    intro k l equal
    have digit := digit_of_mem (n := l) (c := '-') (by rw [← equal]; simp)
    exact absurd digit (by decide)
  split at lists
  · split at lists
    · have magnitudes := toDigits_injective (List.cons.inj lists).2
      omega
    · exact absurd lists (sign _ _)
  · split at lists
    · exact absurd lists.symm (sign _ _)
    · have magnitudes := toDigits_injective lists
      omega

/-- A separator that does not occur before it splits a text in one way. -/
theorem split_unique {α : Type} {separator : α} {front front' back back' : List α}
    (absent : separator ∉ front) (absent' : separator ∉ front')
    (same : front ++ separator :: back = front' ++ separator :: back') :
    front = front' ∧ back = back' := by
  induction front generalizing front' with
  | nil =>
      cases front' with
      | nil => exact ⟨rfl, (List.cons.inj same).2⟩
      | cons c rest =>
          have head := (List.cons.inj same).1
          exact (absent' (head ▸ List.mem_cons_self)).elim
  | cons c rest ih =>
      cases front' with
      | nil =>
          have head := (List.cons.inj same).1
          exact (absent (head ▸ List.mem_cons_self)).elim
      | cons c' rest' =>
          obtain ⟨head, tail⟩ := List.cons.inj same
          have parts := ih (fun member => absent (List.mem_cons_of_mem _ member))
            (fun member => absent' (List.mem_cons_of_mem _ member)) tail
          exact ⟨by rw [head, parts.1], parts.2⟩

end Text

import Stoquant.Native.BenchReport
import Stoquant.Runner.Response

/-!
# The driver and the command line

The command that `run_bench_process` starts, and what parsing it yields: the
numerals and the options that both sides read in the same way.
-/

namespace Stoquant

open Text

/-- The options that may follow the fixed part of a bench command. -/
inductive ExtraOption where
  | boundary
  | transferPolicy
  | blockSize
  | gridSize
  | threads
  deriving DecidableEq, Repr

def ExtraOption.name : ExtraOption → String
  | .boundary => "--boundary"
  | .transferPolicy => "--transfer-policy"
  | .blockSize => "--block-size"
  | .gridSize => "--grid-size"
  | .threads => "--threads"

def ExtraOption.id : ExtraOption → OptionId
  | .boundary => .boundary
  | .transferPolicy => .policy
  | .blockSize => .blockSize
  | .gridSize => .gridSize
  | .threads => .threads

/-- The arguments that a list of options and values stands for. -/
def extraArguments (extra : List (ExtraOption × String)) : List String :=
  extra.flatMap fun given => [given.1.name, given.2]

/-- The value of an option that counts: the last one given. -/
def lastValue (extra : List (ExtraOption × String)) (option : ExtraOption) : Option String :=
  ((extra.filter fun given => given.1 = option).map Prod.snd).getLast?

/-- `k1_args`. -/
def k1Args (backend k1 : String) : List String :=
  if backend = "cuda" then ["--k1", k1] else []

/-- The arguments that `run_bench_process` passes after `bench`. -/
def benchCommand (inputPath : String) (request : BenchRequest) : List String :=
  ["--input", inputPath, "--seed", decimal request.seed, "--bits", decimal request.bits,
    "--tensor-id", "0", "--invocation-id", "0", "--backend", request.backend] ++
  k1Args request.backend request.k1 ++
  ["--warmup", decimal request.warmups, "--reps", decimal request.reps] ++
  request.extraArgs

/-! ## Numerals -/

theorem parseDigits_eq {digits : List Char} {parsed value : ℕ}
    (accepted : parseDigits digits parsed = some value) :
    (∀ digit ∈ digits, digit.isDigit = true) ∧ value = Nat.ofDigitChars 10 digits parsed ∧
      (parsed ≤ uint64Max → value ≤ uint64Max) := by
  induction digits generalizing parsed with
  | nil =>
      cases accepted
      exact ⟨by simp, rfl, id⟩
  | cons digit digits induction =>
      rw [parseDigits] at accepted
      cases isDigit : digit.isDigit with
      | false => simp [isDigit] at accepted
      | true =>
          simp only [isDigit, Bool.true_eq_false, if_false] at accepted
          split at accepted
          · cases accepted
          · rename_i inRange
            obtain ⟨rest, valueEq, bounded⟩ := induction accepted
            refine ⟨?_, ?_, ?_⟩
            · intro other member
              rcases List.mem_cons.mp member with rfl | later
              · exact isDigit
              · exact rest other later
            · rw [valueEq, Nat.ofDigitChars_eq_foldl, Nat.ofDigitChars_eq_foldl, List.foldl_cons,
                Nat.mul_comm]
            · intro _
              apply bounded
              have limit : uint64Max = 18446744073709551615 := by norm_num [uint64Max]
              have small : digit.toNat - '0'.toNat ≤ 9 := by
                have upper := (Char.isDigit_iff_toNat.mp isDigit).2
                have zero : '0'.toNat = 48 := rfl
                have nine : '9'.toNat = 57 := rfl
                omega
              omega

/-- A numeral that the command line accepts: digits, their value, its range. -/
theorem sqParseU64_eq {text : String} {value : ℕ} (accepted : sqParseU64 text = some value) :
    text.toList ≠ [] ∧ (∀ digit ∈ text.toList, digit.isDigit = true) ∧
      value = Nat.ofDigitChars 10 text.toList 0 ∧ value ≤ uint64Max := by
  rw [sqParseU64] at accepted
  split at accepted
  · cases accepted
  · rename_i nonempty
    obtain ⟨digits, valueEq, bounded⟩ := parseDigits_eq accepted
    exact ⟨nonempty, digits, valueEq, bounded (Nat.zero_le _)⟩

theorem isDigit_not_space {digit : Char} (isDigit : digit.isDigit = true) :
    isSpace digit = false := by
  have bounds := Char.isDigit_iff_toNat.mp isDigit
  have zero : '0'.toNat = 48 := rfl
  cases space : isSpace digit with
  | false => rfl
  | true =>
      rcases of_decide_eq_true space with rfl | ⟨-, control⟩
      · simp at bounds
      · omega

theorem stripSpaces_digits {digits : List Char}
    (allDigits : ∀ digit ∈ digits, digit.isDigit = true) : stripSpaces digits = digits := by
  have keep : ∀ text : List Char, (∀ digit ∈ text, digit.isDigit = true) →
      text.dropWhile isSpace = text := by
    intro text digitsOnly
    cases text with
    | nil => rfl
    | cons digit text =>
        rw [List.dropWhile_cons_of_neg]
        rw [isDigit_not_space (digitsOnly digit List.mem_cons_self)]
        decide
  rw [stripSpaces, keep digits allDigits, keep digits.reverse (by simpa using allDigits),
    List.reverse_reverse]

theorem literalDigits_digits {digits : List Char} (nonempty : digits ≠ [])
    (allDigits : ∀ digit ∈ digits, digit.isDigit = true) :
    literalDigits digits = some digits := by
  induction digits with
  | nil => exact absurd rfl nonempty
  | cons digit digits induction =>
      have head := allDigits digit List.mem_cons_self
      cases digits with
      | nil => simp [literalDigits, head]
      | cons next rest =>
          have tail := induction (by simp) fun other member =>
            allDigits other (List.mem_cons_of_mem _ member)
          have nextDigit := allDigits next (by simp)
          have notUnderscore : next ≠ '_' := by
            rintro rfl
            revert nextDigit
            decide
          simp [literalDigits, head, tail]

/-- Both sides read an accepted numeral alike, unless it is too long for `int`. -/
theorem pyInt_of_sqParseU64 {text : String} {value : ℕ}
    (accepted : sqParseU64 text = some value) :
    (text.toList.length ≤ maxStrDigits → pyInt text = .ok (value : ℤ)) ∧
      (maxStrDigits < text.toList.length → ∃ failure, pyInt text = .error failure) := by
  obtain ⟨nonempty, digits, valueEq, -⟩ := sqParseU64_eq accepted
  obtain ⟨first, rest, textEq⟩ := List.exists_cons_of_ne_nil nonempty
  have firstDigit : first.isDigit = true := digits first (by simp [textEq])
  have notMinus : first ≠ '-' := by
    rintro rfl
    revert firstDigit
    decide
  have notPlus : first ≠ '+' := by
    rintro rfl
    revert firstDigit
    decide
  have literal := literalDigits_digits nonempty digits
  have read : pyInt text =
      if maxStrDigits < text.toList.length then
        .error (.raised (.valueError "Exceeds the limit for integer string conversion"))
      else .ok (value : ℤ) := by
    have unsigned : splitSign text.toList = (false, text.toList) := by
      rw [textEq, splitSign, if_neg notMinus, if_neg notPlus]
    simp only [pyInt, stripSpaces_digits digits, unsigned, literal]
    rw [valueEq]
    rfl
  rw [read]
  constructor
  · intro short
    rw [if_neg (Nat.not_lt.mpr short)]
  · intro long
    rw [if_pos long]
    exact ⟨_, rfl⟩

/-- The decimal text of a request parameter is read back. -/
theorem sqParseU64_decimal {value : ℤ} {parsed : ℕ}
    (accepted : sqParseU64 (decimal value) = some parsed) : (parsed : ℤ) = value := by
  obtain ⟨-, digits, parsedEq, -⟩ := sqParseU64_eq accepted
  rw [toList_decimal] at digits parsedEq
  by_cases negative : value < 0
  · rw [if_pos negative] at digits
    exact absurd (digits '-' List.mem_cons_self) (by decide)
  · rw [if_neg negative, Nat.ofDigitChars_ten_toDigits] at parsedEq
    omega

end Stoquant

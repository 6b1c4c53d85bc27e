import Stoquant.Native.Command

/-!
# Decimal numerals

`sq_parse_u64` over the bytes of a C string and 64-bit words: it accepts exactly
the decimal numerals of 64-bit integers, and no step of it wraps.
-/

namespace Stoquant

/-- `(unsigned int)(*cursor - '0')`, a character being a signed byte. -/
def digitWord (cursor : Byte) : BitVec 32 := cursor.signExtend 32 - 48#32

/-- The loop of `sq_parse_u64` over words. -/
def parseDigitsWord : List Byte → BitVec 64 → Option (BitVec 64)
  | [], parsed => some parsed
  | cursor :: rest, parsed =>
      let digit := digitWord cursor
      if digit > 9#32 ∨ parsed > (BitVec.allOnes 64 - digit.setWidth 64) / 10#64 then none
      else parseDigitsWord rest (parsed * 10#64 + digit.setWidth 64)

/-- `sq_parse_u64` on the bytes before the terminator: the result and `*value`. -/
def sqParseU64Bytes (text : List Byte) (value : BitVec 64) : Bool × BitVec 64 :=
  if text = [] then (false, value)
  else
    match parseDigitsWord text 0#64 with
    | none => (false, value)
    | some parsed => (true, parsed)

/-- An ASCII digit. -/
def AsciiDigit (cursor : Byte) : Prop := 48 ≤ cursor.toNat ∧ cursor.toNat ≤ 57

/-- The integer a numeral denotes, after a value. -/
def decimalFrom (parsed : ℕ) (text : List Byte) : ℕ :=
  text.foldl (fun value cursor => value * 10 + (cursor.toNat - 48)) parsed

theorem digitWord_spec : ∀ cursor : Byte,
    (digitWord cursor ≤ 9#32 ↔ 48 ≤ cursor.toNat ∧ cursor.toNat ≤ 57) ∧
      (digitWord cursor ≤ 9#32 → (digitWord cursor).toNat = cursor.toNat - 48) := by
  decide +kernel

theorem decimalFrom_mono (parsed : ℕ) (text : List Byte) : parsed ≤ decimalFrom parsed text := by
  induction text generalizing parsed with
  | nil => exact le_rfl
  | cons cursor rest induction =>
      calc
        parsed ≤ parsed * 10 + (cursor.toNat - 48) := by omega
        _ ≤ decimalFrom parsed (cursor :: rest) := induction _

section

variable {cursor : Byte} {parsed : BitVec 64}

theorem digit_guard (digit : AsciiDigit cursor) :
    parsed > (BitVec.allOnes 64 - (digitWord cursor).setWidth 64) / 10#64 ↔
      2 ^ 64 ≤ parsed.toNat * 10 + (cursor.toNat - 48) := by
  obtain ⟨iff, value⟩ := digitWord_spec cursor
  have digitValue := value (iff.mpr digit)
  obtain ⟨low, high⟩ := digit
  have wide : ((digitWord cursor).setWidth 64).toNat = cursor.toNat - 48 := by
    rw [BitVec.toNat_setWidth, digitValue]
    omega
  have room : (BitVec.allOnes 64 - (digitWord cursor).setWidth 64).toNat =
      2 ^ 64 - 1 - (cursor.toNat - 48) := by
    rw [BitVec.toNat_sub, BitVec.toNat_allOnes, wide]
    omega
  have ten : (10#64).toNat = 10 := rfl
  rw [gt_iff_lt, BitVec.lt_def, BitVec.toNat_udiv, room, ten]
  omega

/-- A digit that passes the guard is appended without a wrap. -/
theorem digit_append (digit : AsciiDigit cursor)
    (fits : parsed.toNat * 10 + (cursor.toNat - 48) < 2 ^ 64) :
    (parsed * 10#64 + (digitWord cursor).setWidth 64).toNat =
      parsed.toNat * 10 + (cursor.toNat - 48) := by
  obtain ⟨iff, value⟩ := digitWord_spec cursor
  have digitValue := value (iff.mpr digit)
  obtain ⟨low, high⟩ := digit
  have ten : (10#64).toNat = 10 := rfl
  rw [BitVec.toNat_add, BitVec.toNat_mul, BitVec.toNat_setWidth, digitValue, ten]
  omega

end

theorem parseDigitsWord_digit {cursor : Byte} (digit : AsciiDigit cursor) (rest : List Byte)
    (parsed : BitVec 64) :
    parseDigitsWord (cursor :: rest) parsed =
      if 2 ^ 64 ≤ parsed.toNat * 10 + (cursor.toNat - 48) then none
      else parseDigitsWord rest (parsed * 10#64 + (digitWord cursor).setWidth 64) := by
  have notAbove : ¬ digitWord cursor > 9#32 := by
    rw [gt_iff_lt, BitVec.not_lt]
    exact (digitWord_spec cursor).1.mpr digit
  rw [parseDigitsWord]
  by_cases above : 2 ^ 64 ≤ parsed.toNat * 10 + (cursor.toNat - 48)
  · rw [if_pos above, if_pos (Or.inr ((digit_guard digit).mpr above))]
  · have passes : ¬ (digitWord cursor > 9#32 ∨
        parsed > (BitVec.allOnes 64 - (digitWord cursor).setWidth 64) / 10#64) := by
      rw [digit_guard digit]
      exact not_or.mpr ⟨notAbove, above⟩
    rw [if_neg above, if_neg passes]

theorem parseDigitsWord_other {cursor : Byte} (other : ¬ AsciiDigit cursor) (rest : List Byte)
    (parsed : BitVec 64) : parseDigitsWord (cursor :: rest) parsed = none := by
  have above : digitWord cursor > 9#32 := by
    rw [gt_iff_lt, ← BitVec.not_le]
    exact fun digit => other ((digitWord_spec cursor).1.mp digit)
  rw [parseDigitsWord, if_pos (Or.inl above)]

theorem parseDigitsWord_eq_some_iff {text : List Byte} {parsed result : BitVec 64} :
    parseDigitsWord text parsed = some result ↔
      (∀ cursor ∈ text, AsciiDigit cursor) ∧ decimalFrom parsed.toNat text < 2 ^ 64 ∧
        result.toNat = decimalFrom parsed.toNat text := by
  induction text generalizing parsed with
  | nil =>
      simp only [parseDigitsWord, decimalFrom, List.foldl_nil, Option.some.injEq]
      constructor
      · rintro rfl
        exact ⟨by simp, parsed.isLt, rfl⟩
      · intro denotes
        exact (BitVec.eq_of_toNat_eq denotes.2.2).symm
  | cons cursor rest induction =>
      have unfolded : decimalFrom parsed.toNat (cursor :: rest) =
          decimalFrom (parsed.toNat * 10 + (cursor.toNat - 48)) rest := rfl
      rw [unfolded]
      by_cases digit : AsciiDigit cursor
      · rw [parseDigitsWord_digit digit]
        by_cases above : 2 ^ 64 ≤ parsed.toNat * 10 + (cursor.toNat - 48)
        · rw [if_pos above]
          apply iff_of_false
          · simp
          · intro denotes
            have larger := decimalFrom_mono (parsed.toNat * 10 + (cursor.toNat - 48)) rest
            omega
        · rw [if_neg above, induction, digit_append digit (not_le.mp above),
            List.forall_mem_cons]
          simp only [digit, true_and]
      · rw [parseDigitsWord_other digit]
        apply iff_of_false
        · simp
        · exact fun denotes => digit (denotes.1 cursor List.mem_cons_self)

/-- A nonempty string of ASCII digits that denotes a 64-bit integer. -/
def DecimalU64 (text : List Byte) : Prop :=
  text ≠ [] ∧ (∀ cursor ∈ text, AsciiDigit cursor) ∧ decimalFrom 0 text ≤ 2 ^ 64 - 1

/-- An accepted digit is appended without a wrap. -/
theorem parseDigitsWord_step {cursor : Byte} {parsed next : BitVec 64}
    (accepted : parseDigitsWord [cursor] parsed = some next) :
    next.toNat = parsed.toNat * 10 + (digitWord cursor).toNat := by
  obtain ⟨digits, -, value⟩ := parseDigitsWord_eq_some_iff.mp accepted
  obtain ⟨iff, digitValue⟩ := digitWord_spec cursor
  rw [value, digitValue (iff.mpr (digits cursor List.mem_cons_self))]
  rfl

/-- `sq_parse_u64` accepts exactly the decimal numerals of 64-bit integers and
stores their value, leaving `*value` alone otherwise; before each digit it holds
the value of the digits read so far, and it appends a digit without a wrap. -/
theorem sqParseU64Bytes_exact (text : List Byte) (value : BitVec 64) :
    ((sqParseU64Bytes text value).1 = true ↔ DecimalU64 text) ∧
      (DecimalU64 text → (sqParseU64Bytes text value).2.toNat = decimalFrom 0 text) ∧
      (¬ DecimalU64 text → sqParseU64Bytes text value = (false, value)) ∧
      ∀ front cursor rest parsed, text = front ++ cursor :: rest →
        parseDigitsWord front 0#64 = some parsed →
        parsed.toNat = decimalFrom 0 front ∧
          ∀ next, parseDigitsWord [cursor] parsed = some next →
            next.toNat = parsed.toNat * 10 + (digitWord cursor).toNat := by
  have zero : (0#64).toNat = 0 := rfl
  have accepts : ∀ parsed, parseDigitsWord text 0#64 = some parsed →
      text ≠ [] → DecimalU64 text ∧ parsed.toNat = decimalFrom 0 text := by
    intro parsed accepted nonempty
    obtain ⟨digits, fits, denotes⟩ := parseDigitsWord_eq_some_iff.mp accepted
    rw [zero] at fits denotes
    exact ⟨⟨nonempty, digits, by omega⟩, denotes⟩
  have rejects : parseDigitsWord text 0#64 = none → ¬ DecimalU64 text := by
    intro rejected decimal
    obtain ⟨-, digits, fits⟩ := decimal
    have small : decimalFrom 0 text < 2 ^ 64 := by omega
    have accepted : parseDigitsWord text 0#64 = some (BitVec.ofNat 64 (decimalFrom 0 text)) := by
      apply parseDigitsWord_eq_some_iff.mpr
      rw [zero, BitVec.toNat_ofNat, Nat.mod_eq_of_lt small]
      exact ⟨digits, small, rfl⟩
    rw [rejected] at accepted
    cases accepted
  have reached : ∀ front cursor rest parsed, text = front ++ cursor :: rest →
      parseDigitsWord front 0#64 = some parsed →
      parsed.toNat = decimalFrom 0 front ∧
        ∀ next, parseDigitsWord [cursor] parsed = some next →
          next.toNat = parsed.toNat * 10 + (digitWord cursor).toNat := by
    intro front cursor rest parsed _ read
    obtain ⟨-, -, denotes⟩ := parseDigitsWord_eq_some_iff.mp read
    exact ⟨denotes, fun next accepted => parseDigitsWord_step accepted⟩
  unfold sqParseU64Bytes
  by_cases empty : text = []
  · have notDecimal : ¬ DecimalU64 text := fun decimal => decimal.1 empty
    rw [if_pos empty]
    exact ⟨iff_of_false Bool.false_ne_true notDecimal,
      fun decimal => absurd decimal notDecimal, fun _ => rfl, reached⟩
  · rw [if_neg empty]
    cases result : parseDigitsWord text 0#64 with
    | none =>
        have notDecimal := rejects result
        exact ⟨iff_of_false Bool.false_ne_true notDecimal,
          fun decimal => absurd decimal notDecimal, fun _ => rfl, reached⟩
    | some parsed =>
        obtain ⟨decimal, denotes⟩ := accepts parsed result empty
        exact ⟨iff_of_true rfl decimal, fun _ => denotes,
          fun notDecimal => absurd decimal notDecimal, reached⟩

/-! ## Arguments as texts -/

/-- The bytes of an ASCII text. -/
def asciiBytes (text : String) : List Byte :=
  text.toList.map fun character => BitVec.ofNat 8 character.toNat

theorem asciiDigit_ofNat {character : Char} (ascii : character.toNat < 128) :
    AsciiDigit (BitVec.ofNat 8 character.toNat) ↔ character.isDigit = true := by
  have zero : '0'.toNat = 48 := rfl
  have nine : '9'.toNat = 57 := rfl
  rw [AsciiDigit, BitVec.toNat_ofNat, Nat.mod_eq_of_lt (by omega), Char.isDigit_iff_toNat]
  omega

theorem parseDigits_eq_word {text : List Char} (ascii : ∀ character ∈ text, character.toNat < 128)
    (parsed : BitVec 64) :
    parseDigits text parsed.toNat =
      (parseDigitsWord (text.map fun character => BitVec.ofNat 8 character.toNat) parsed).map
        BitVec.toNat := by
  induction text generalizing parsed with
  | nil => rfl
  | cons character rest induction =>
      have characterAscii := ascii character List.mem_cons_self
      have restAscii := fun other member => ascii other (List.mem_cons_of_mem _ member)
      have value : (BitVec.ofNat 8 character.toNat).toNat = character.toNat := by
        rw [BitVec.toNat_ofNat]
        exact Nat.mod_eq_of_lt (by omega)
      rw [List.map_cons, parseDigits]
      by_cases isDigit : character.isDigit = true
      · have digit := (asciiDigit_ofNat characterAscii).mpr isDigit
        have limit : uint64Max = 2 ^ 64 - 1 := rfl
        have zero : '0'.toNat = 48 := rfl
        have nine : '9'.toNat = 57 := rfl
        have bounds := Char.isDigit_iff_toNat.mp isDigit
        have sameGuard : parsed.toNat > (uint64Max - (character.toNat - '0'.toNat)) / 10 ↔
            2 ^ 64 ≤ parsed.toNat * 10 + (character.toNat - 48) := by omega
        rw [isDigit, if_neg (by simp), parseDigitsWord_digit digit, value]
        dsimp only
        by_cases above : 2 ^ 64 ≤ parsed.toNat * 10 + (character.toNat - 48)
        · rw [if_pos above, if_pos (sameGuard.mpr above)]
          rfl
        · have appended := @digit_append _ parsed digit (by rw [value]; exact not_le.mp above)
          rw [value] at appended
          rw [if_neg above, if_neg fun passed => above (sameGuard.mp passed),
            ← induction restAscii, appended]
          rfl
      · have other : ¬ AsciiDigit (BitVec.ofNat 8 character.toNat) :=
          fun digit => isDigit ((asciiDigit_ofNat characterAscii).mp digit)
        rw [parseDigitsWord_other other, if_pos (Bool.eq_false_iff.mpr isDigit)]
        rfl

theorem sqParseU64_eq_bytes {text : String} (ascii : ∀ c ∈ text.toList, c.toNat < 128)
    (value : BitVec 64) :
    sqParseU64 text =
      if (sqParseU64Bytes (asciiBytes text) value).1 then
        some (sqParseU64Bytes (asciiBytes text) value).2.toNat
      else none := by
  have loop := parseDigits_eq_word ascii 0#64
  unfold sqParseU64 sqParseU64Bytes asciiBytes
  by_cases empty : text.toList = []
  · simp [empty]
  · have bytes : (text.toList.map fun character => BitVec.ofNat 8 character.toNat) ≠ [] :=
      fun none => empty (List.map_eq_nil_iff.mp none)
    rw [if_neg empty, if_neg bytes]
    rw [show (0#64).toNat = 0 from rfl] at loop
    rw [loop]
    cases parseDigitsWord (text.toList.map fun character => BitVec.ofNat 8 character.toNat)
      0#64 with
    | none => rfl
    | some parsed => rfl

end Stoquant

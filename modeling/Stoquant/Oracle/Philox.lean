import Stoquant.Avx2.Rng
import Stoquant.Design

/-!
# The random words of the oracle

`oracle.py` emulates Philox4x32 in 64-bit integers, for all groups of an array at
once.  Row by row its rounds are those of the stream.
-/

namespace Stoquant

open Loop

/-- `_unsigned`. -/
def unsigned (value : ℤ) (bits : ℕ) (name : String) : Except PyError ℕ :=
  if value < 0 ∨ value ≥ 2 ^ bits then
    .error (.valueError s!"{name} must fit in an unsigned {bits}-bit integer")
  else .ok value.toNat

/-- `_MASK32`. -/
def mask32 : ℕ := 2 ^ 32 - 1

/-- The counter words `c0` to `c3` of `philox4x32_10`, as `np.uint64`. -/
@[ext] structure CounterWords where
  c0 : BitVec 64
  c1 : BitVec 64
  c2 : BitVec 64
  c3 : BitVec 64

/-- The counter words and the key `k0`, `k1` of `philox4x32_10`. -/
@[ext] structure RoundState where
  words : CounterWords
  k0 : ℕ
  k1 : ℕ

/-- `astype(np.uint64)`. -/
def CounterWords.ofCtr (c : Philox4x32Ctr) : CounterWords :=
  ⟨c.v0.setWidth 64, c.v1.setWidth 64, c.v2.setWidth 64, c.v3.setWidth 64⟩

/-- `astype(np.uint32)`. -/
def CounterWords.toCtr (c : CounterWords) : Philox4x32Ctr :=
  ⟨c.c0.setWidth 32, c.c1.setWidth 32, c.c2.setWidth 32, c.c3.setWidth 32⟩

/-- One iteration of the loop of `philox4x32_10`. -/
def roundIteration (roundIndex : ℕ) (state : RoundState) : RoundState :=
  let c := state.words
  let product0 := 0xD2511F53#64 * c.c0
  let product1 := 0xCD9E8D57#64 * c.c2
  let low0 := product0 &&& BitVec.ofNat 64 mask32
  let high0 := product0 >>> 32
  let low1 := product1 &&& BitVec.ofNat 64 mask32
  let high1 := product1 >>> 32
  let words : CounterWords :=
    ⟨high1 ^^^ c.c1 ^^^ BitVec.ofNat 64 state.k0, low1,
      high0 ^^^ c.c3 ^^^ BitVec.ofNat 64 state.k1, low0⟩
  if roundIndex ≠ 9 then
    ⟨words, (state.k0 + 0x9E3779B9) &&& mask32, (state.k1 + 0xBB67AE85) &&& mask32⟩
  else ⟨words, state.k0, state.k1⟩

/-- `philox4x32_10` on one counter. -/
def philox4x3210Row (key : Philox4x32Key) (counter : Philox4x32Ctr) : Philox4x32Ctr :=
  (upTo 10 roundIteration
    ⟨CounterWords.ofCtr counter, key.v0.toNat, key.v1.toNat⟩).words.toCtr

/-- `philox4x32_10`, the counters being the rows of an array of `np.uint32`. -/
def philox4x3210 (counters : List Philox4x32Ctr) (key : Philox4x32Key) : List Philox4x32Ctr :=
  counters.map (philox4x3210Row key)

/-- `np.array([seed & _MASK32, seed >> 32], dtype=np.uint32)`. -/
def keyOfSeed (seed : ℕ) : Philox4x32Key :=
  ⟨BitVec.ofNat 32 (seed &&& mask32), BitVec.ofNat 32 (seed >>> 32)⟩

/-- The four words of a block, as a row of the array is read. -/
def Philox4x32Ctr.toList (r : Philox4x32Ctr) : List Word := [r.v0, r.v1, r.v2, r.v3]

/-- `philox_words`. -/
def philoxWords (count seed tensorId invocationId : ℤ) : Except PyError (List Word) :=
  if count < 0 then .error (.valueError "count must be non-negative")
  else do
    let seed ← unsigned seed 64 "seed"
    let tensorId ← unsigned tensorId 32 "tensor_id"
    let invocationId ← unsigned invocationId 32 "invocation_id"
    let groupCount := (count.toNat + 3) / 4
    let groups : List (BitVec 64) := (List.range groupCount).map (BitVec.ofNat 64)
    let counters := groups.map fun group : BitVec 64 =>
      (⟨group.setWidth 32, (group >>> 32).setWidth 32, BitVec.ofNat 32 tensorId,
        BitVec.ofNat 32 invocationId⟩ : Philox4x32Ctr)
    return ((philox4x3210 counters (keyOfSeed seed)).flatMap Philox4x32Ctr.toList).take
      count.toNat

/-! ## The rounds -/

theorem and_mask32_eq (x : BitVec 64) :
    x &&& BitVec.ofNat 64 mask32 = (x.setWidth 32).setWidth 64 := by
  have mask : (BitVec.ofNat 64 mask32).toNat = 2 ^ 32 - 1 := rfl
  apply BitVec.eq_of_toNat_eq
  rw [BitVec.toNat_and, mask, Nat.and_two_pow_sub_one_eq_mod, BitVec.toNat_setWidth,
    BitVec.toNat_setWidth]
  omega

theorem high_half_eq (x : BitVec 64) : x >>> 32 = ((x >>> 32).setWidth 32).setWidth 64 := by
  have small := x.isLt
  apply BitVec.eq_of_toNat_eq
  rw [BitVec.toNat_setWidth, BitVec.toNat_setWidth, BitVec.toNat_ushiftRight,
    Nat.shiftRight_eq_div_pow]
  omega

theorem bumpWord_eq (key word : Word) :
    (key.toNat + word.toNat) &&& mask32 = (key + word).toNat := by
  rw [BitVec.toNat_add]
  exact Nat.and_two_pow_sub_one_eq_mod _ 32

theorem roundIteration_words (r : ℕ) (c : Philox4x32Ctr) (key : Philox4x32Key) :
    (roundIteration r ⟨CounterWords.ofCtr c, key.v0.toNat, key.v1.toNat⟩).words =
      CounterWords.ofCtr (philox4x32round c key) := by
  have words : (roundIteration r ⟨CounterWords.ofCtr c, key.v0.toNat, key.v1.toNat⟩).words =
      ⟨((philoxM4x32_1.setWidth 64 * c.v2.setWidth 64) >>> 32) ^^^ c.v1.setWidth 64 ^^^
          BitVec.ofNat 64 key.v0.toNat,
        (philoxM4x32_1.setWidth 64 * c.v2.setWidth 64) &&& BitVec.ofNat 64 mask32,
        ((philoxM4x32_0.setWidth 64 * c.v0.setWidth 64) >>> 32) ^^^ c.v3.setWidth 64 ^^^
          BitVec.ofNat 64 key.v1.toNat,
        (philoxM4x32_0.setWidth 64 * c.v0.setWidth 64) &&& BitVec.ofNat 64 mask32⟩ := by
    unfold roundIteration
    dsimp only
    split <;> rfl
  rw [words, and_mask32_eq, and_mask32_eq,
    high_half_eq (philoxM4x32_0.setWidth 64 * c.v0.setWidth 64),
    high_half_eq (philoxM4x32_1.setWidth 64 * c.v2.setWidth 64), BitVec.ofNat_toNat,
    BitVec.ofNat_toNat, ← BitVec.setWidth_xor, ← BitVec.setWidth_xor, ← BitVec.setWidth_xor,
    ← BitVec.setWidth_xor]
  rfl

theorem roundIteration_eq {r : ℕ} (notLast : r ≠ 9) (c : Philox4x32Ctr) (key : Philox4x32Key) :
    roundIteration r ⟨CounterWords.ofCtr c, key.v0.toNat, key.v1.toNat⟩ =
      ⟨CounterWords.ofCtr (philox4x32round c key), (key.v0 + philoxW32_0).toNat,
        (key.v1 + philoxW32_1).toNat⟩ := by
  rw [← roundIteration_words r, ← bumpWord_eq, ← bumpWord_eq]
  unfold roundIteration
  dsimp only
  rw [if_pos notLast]
  rfl

theorem upTo_roundIteration {rounds : ℕ} (notLast : rounds ≤ 9) (c : Philox4x32Ctr)
    (key : Philox4x32Key) :
    upTo rounds roundIteration ⟨CounterWords.ofCtr c, key.v0.toNat, key.v1.toNat⟩ =
      ⟨CounterWords.ofCtr (upTo rounds (philoxLaneRound key) c),
        (key.v0 + BitVec.ofNat 32 rounds * philoxW32_0).toNat,
        (key.v1 + BitVec.ofNat 32 rounds * philoxW32_1).toNat⟩ := by
  induction rounds with
  | zero => simp [upTo]
  | succ rounds ih =>
      have next : ∀ w k : Word, k + BitVec.ofNat 32 rounds * w + w =
          k + BitVec.ofNat 32 (rounds + 1) * w := by
        intro w k
        rw [BitVec.ofNat_add, BitVec.add_mul, BitVec.one_mul, BitVec.add_assoc]
      rw [upTo, ih (by omega), roundIteration_eq (by omega) (upTo rounds (philoxLaneRound key) c)
        ⟨_, _⟩, next, next]
      rfl

theorem toCtr_ofCtr (c : Philox4x32Ctr) : (CounterWords.ofCtr c).toCtr = c := by
  simp [CounterWords.ofCtr, CounterWords.toCtr]

/-- A row of the oracle is a lane of `philox_chunk`. -/
theorem philox4x3210Row_eq (key : Philox4x32Key) (c : Philox4x32Ctr) :
    philox4x3210Row key c = philox4x32R sqPhiloxRounds c key := by
  rw [← philoxLane_eq, philox4x3210Row, upTo, upTo_roundIteration le_rfl,
    roundIteration_words 9 _ ⟨_, _⟩, toCtr_ofCtr]
  rfl

/-! ## The words -/

theorem unsigned_eq {value bits : ℕ} (fits : value < 2 ^ bits) (name : String) :
    unsigned value bits name = .ok value := by
  unfold unsigned
  rw [if_neg, Int.toNat_natCast]
  rintro (negative | large)
  · omega
  · have : (2 ^ bits : ℕ) ≤ value := by exact_mod_cast large
    omega

/-- The rows one after another hold lane `i % 4` of row `i / 4` at index `i`. -/
theorem getElem?_flatMap_toList (block : ℕ → Philox4x32Ctr) (groupCount i : ℕ) :
    (((List.range groupCount).map block).flatMap Philox4x32Ctr.toList)[i]? =
      if i < 4 * groupCount then some ((block (i / 4)).lane (i % 4)) else none := by
  induction groupCount generalizing i with
  | zero => simp
  | succ groupCount ih =>
      have length : (((List.range groupCount).map block).flatMap Philox4x32Ctr.toList).length =
          4 * groupCount := by
        rw [List.length_flatMap, List.map_map]
        simp [Function.comp_def, Philox4x32Ctr.toList, Nat.mul_comm]
      rw [List.range_succ, List.map_append, List.flatMap_append, List.getElem?_append, length, ih]
      by_cases before : i < 4 * groupCount
      · rw [if_pos before, if_pos before, if_pos (by omega)]
      · rw [if_neg before]
        by_cases last : i < 4 * (groupCount + 1)
        · have row : i / 4 = groupCount := by omega
          rw [if_pos last, row]
          have lanes : i - 4 * groupCount = i % 4 := by omega
          have small : i % 4 < 4 := Nat.mod_lt i (by norm_num)
          rw [lanes]
          interval_cases i % 4 <;> rfl
        · rw [if_neg last]
          simp [Philox4x32Ctr.toList]
          omega

theorem keyOfSeed_eq (seed : BitVec 64) :
    keyOfSeed seed.toNat = ⟨seed.setWidth 32, (seed >>> 32).setWidth 32⟩ := by
  apply Philox4x32Key.ext
  · apply BitVec.eq_of_toNat_eq
    show (BitVec.ofNat 32 (seed.toNat &&& mask32)).toNat = _
    rw [mask32, Nat.and_two_pow_sub_one_eq_mod, BitVec.toNat_ofNat, Nat.mod_mod,
      BitVec.toNat_setWidth]
  · apply BitVec.eq_of_toNat_eq
    show (BitVec.ofNat 32 (seed.toNat >>> 32)).toNat = _
    rw [BitVec.toNat_ofNat, BitVec.toNat_setWidth, BitVec.toNat_ushiftRight]

section

variable {seed tensorId invocationId : BitVec 64}

theorem unsigned_id_eq {id : BitVec 64} (name : String) (fits : ¬ id.toNat > uint32Max) :
    unsigned id.toNat 32 name = .ok id.toNat := by
  apply unsigned_eq
  unfold uint32Max at fits
  omega

theorem unsigned_id_error {id : BitVec 64} (name : String) (large : id.toNat > uint32Max) :
    ∃ error, unsigned id.toNat 32 name = .error error := by
  refine ⟨_, if_pos (.inr ?_)⟩
  unfold uint32Max at large
  have : (2 ^ 32 : ℕ) ≤ id.toNat := by omega
  exact_mod_cast this

/-- `philox_words` returns the words of the stream. -/
theorem philoxWords_eq {s : SqRngStream}
    (accepted : sqRngStreamInit seed tensorId invocationId = some s) (count : ℕ) :
    philoxWords count seed.toNat tensorId.toNat invocationId.toNat =
      .ok ((List.range count).map (streamWord s)) := by
  unfold sqRngStreamInit at accepted
  split at accepted
  · cases accepted
  rename_i fits
  obtain ⟨tensorFits, invocationFits⟩ := not_or.mp fits
  obtain rfl := Option.some.inj accepted
  have nonneg : ¬ (count : ℤ) < 0 := by omega
  unfold philoxWords
  rw [if_neg nonneg, unsigned_eq seed.isLt, unsigned_id_eq _ tensorFits,
    unsigned_id_eq _ invocationFits]
  show Except.ok _ = _
  congr 1
  rw [Int.toNat_natCast, philox4x3210, List.map_map, List.map_map, keyOfSeed_eq]
  apply List.ext_getElem?
  intro i
  rw [List.getElem?_take, getElem?_flatMap_toList, List.getElem?_map]
  by_cases inside : i < count
  · rw [if_pos inside, if_pos (by omega), List.getElem?_range inside, Option.map_some, streamWord,
      philoxBlock, Function.comp_apply, Function.comp_apply, philox4x3210Row_eq,
      BitVec.ofNat_toNat, BitVec.ofNat_toNat]
    rfl
  · rw [if_neg inside, List.getElem?_eq_none (by simpa using inside), Option.map_none]

/-- An identifier that the stream rejects is rejected. -/
theorem philoxWords_error (rejected : sqRngStreamInit seed tensorId invocationId = none)
    (count : ℕ) :
    ∃ error, philoxWords count seed.toNat tensorId.toNat invocationId.toNat = .error error := by
  have large : tensorId.toNat > uint32Max ∨ invocationId.toNat > uint32Max := by
    by_contra fits
    rw [sqRngStreamInit, if_neg fits] at rejected
    cases rejected
  have nonneg : ¬ (count : ℤ) < 0 := by omega
  unfold philoxWords
  rw [if_neg nonneg, unsigned_eq seed.isLt]
  by_cases tensorFits : ¬ tensorId.toNat > uint32Max
  · obtain ⟨error, failed⟩ :=
      unsigned_id_error "invocation_id" (large.resolve_left tensorFits)
    rw [unsigned_id_eq _ tensorFits, failed]
    exact ⟨error, rfl⟩
  · obtain ⟨error, failed⟩ := unsigned_id_error "tensor_id" (not_not.mp tensorFits)
    rw [failed]
    exact ⟨error, rfl⟩

end

end Stoquant

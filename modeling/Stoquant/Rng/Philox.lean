import Stoquant.Status
import Stoquant.Tree.Loop

/-!
# Random streams

Random123's Philox4x32 as `sq_rng.h` uses it, the map from a stream and a group
of four words to a key and a counter, and the Bernoulli draw.
-/

namespace Stoquant

open Ieee

/-- `philox4x32_ctr_t`: a counter, or a block of four random words. -/
@[ext] structure Philox4x32Ctr where
  v0 : Word
  v1 : Word
  v2 : Word
  v3 : Word
  deriving DecidableEq, Repr

/-- `philox4x32_key_t`. -/
@[ext] structure Philox4x32Key where
  v0 : Word
  v1 : Word
  deriving DecidableEq, Repr

/-- The word `r.v[lane]`, for lanes below four. -/
def Philox4x32Ctr.lane (r : Philox4x32Ctr) : ℕ → Word
  | 0 => r.v0
  | 1 => r.v1
  | 2 => r.v2
  | _ => r.v3

def philoxM4x32_0 : Word := 0xD2511F53#32

def philoxM4x32_1 : Word := 0xCD9E8D57#32

def philoxW32_0 : Word := 0x9E3779B9#32

def philoxW32_1 : Word := 0xBB67AE85#32

/-- `mulhilo32`: the high and the low word of a product. -/
def mulhilo32 (a b : Word) : Word × Word :=
  let product : BitVec 64 := a.setWidth 64 * b.setWidth 64
  ((product >>> 32).setWidth 32, product.setWidth 32)

/-- `_philox4x32round`. -/
def philox4x32round (ctr : Philox4x32Ctr) (key : Philox4x32Key) :
    Philox4x32Ctr :=
  let (hi0, lo0) := mulhilo32 philoxM4x32_0 ctr.v0
  let (hi1, lo1) := mulhilo32 philoxM4x32_1 ctr.v2
  ⟨hi1 ^^^ ctr.v1 ^^^ key.v0, lo1, hi0 ^^^ ctr.v3 ^^^ key.v1, lo0⟩

/-- `_philox4x32bumpkey`. -/
def philox4x32bumpkey (key : Philox4x32Key) : Philox4x32Key :=
  ⟨key.v0 + philoxW32_0, key.v1 + philoxW32_1⟩

/-- The body of one `if (R > k)` of `philox4x32_R` after the first. -/
def philox4x32bumpedRound (state : Philox4x32Ctr × Philox4x32Key) :
    Philox4x32Ctr × Philox4x32Key :=
  let key := philox4x32bumpkey state.2
  (philox4x32round state.1 key, key)

/-- `philox4x32_R`. -/
def philox4x32R (rounds : ℕ) (ctr : Philox4x32Ctr) (key : Philox4x32Key) :
    Philox4x32Ctr :=
  match rounds with
  | 0 => ctr
  | rest + 1 => (philox4x32bumpedRound^[rest] (philox4x32round ctr key, key)).1

/-- `SQ_PHILOX_ROUNDS`. -/
def sqPhiloxRounds : ℕ := 10

/-- `SQ_PHILOX_WORDS_PER_GROUP`. -/
def sqPhiloxWordsPerGroup : ℕ := 4

/-- `sq_rng_stream`. -/
@[ext] structure SqRngStream where
  seed : BitVec 64
  tensorId : Word
  invocationId : Word
  deriving DecidableEq, Repr

/-- `sq_rng_stream_init`; absent when it returns `SQ_RNG_ERR_ID_OVERFLOW`. -/
def sqRngStreamInit (seed tensorId invocationId : BitVec 64) :
    Option SqRngStream :=
  if tensorId.toNat > uint32Max ∨ invocationId.toNat > uint32Max then none
  else some ⟨seed, tensorId.setWidth 32, invocationId.setWidth 32⟩

/-- `sq_philox_key`. -/
def sqPhiloxKey (s : SqRngStream) : Philox4x32Key :=
  ⟨s.seed.setWidth 32, (s.seed >>> 32).setWidth 32⟩

/-- `sq_philox_ctr`. -/
def sqPhiloxCtr (s : SqRngStream) (group : BitVec 64) : Philox4x32Ctr :=
  ⟨group.setWidth 32, (group >>> 32).setWidth 32, s.tensorId, s.invocationId⟩

/-- The four words of a group. -/
def philoxBlock (s : SqRngStream) (group : ℕ) : Philox4x32Ctr :=
  philox4x32R sqPhiloxRounds (sqPhiloxCtr s (BitVec.ofNat 64 group))
    (sqPhiloxKey s)

/-- The word of element `i`: lane `i mod 4` of group `i / 4`. -/
def streamWord (s : SqRngStream) (i : ℕ) : Word :=
  (philoxBlock s (i / sqPhiloxWordsPerGroup)).lane (i % sqPhiloxWordsPerGroup)

/-- `4294967296.0f`. -/
def twoPow32F : F32 := ofF32Bits 0x4F800000#32

section

variable [Arith Format.binary32]

/-- `sq_bernoulli_threshold`. -/
def sqBernoulliThreshold (p : F32) : ℕ := (p * twoPow32F).trunc.toNat

/-- `sq_bernoulli`. -/
def sqBernoulli (word : Word) (p : F32) : ℤ :=
  if word.toNat < sqBernoulliThreshold p then 1 else 0

end

/-- `if (i < n) { out[i] = word; i++; }`. -/
def storeNext (n : ℕ) (word : Word) (state : ℕ × (ℕ → Word)) :
    ℕ × (ℕ → Word) :=
  if state.1 < n then (state.1 + 1, Function.update state.2 state.1 word)
  else state

theorem le_storeNext (n : ℕ) (word : Word) (state : ℕ × (ℕ → Word)) :
    state.1 ≤ (storeNext n word state).1 := by
  unfold storeNext
  split <;> simp

/-- One iteration of `sq_rng_words_cpu`. -/
def storeGroup (s : SqRngStream) (n : ℕ) (state : ℕ × (ℕ → Word)) :
    ℕ × (ℕ → Word) :=
  let r := philoxBlock s (state.1 / sqPhiloxWordsPerGroup)
  let state := (state.1 + 1, Function.update state.2 state.1 r.v0)
  storeNext n r.v3 (storeNext n r.v2 (storeNext n r.v1 state))

theorem lt_storeGroup (s : SqRngStream) (n : ℕ) (state : ℕ × (ℕ → Word)) :
    state.1 < (storeGroup s n state).1 := by
  unfold storeGroup
  exact (((Nat.lt_succ_self state.1).trans_le (le_storeNext n _ (_, _))).trans_le
    (le_storeNext n _ _)).trans_le (le_storeNext n _ _)

/-- The loop of `sq_rng_words_cpu`, its state being `i` and `out`. -/
def sqRngWordsCpuLoop (s : SqRngStream) (n : ℕ) (state : ℕ × (ℕ → Word)) :
    ℕ × (ℕ → Word) :=
  if state.1 < n then sqRngWordsCpuLoop s n (storeGroup s n state) else state
termination_by n - state.1
decreasing_by
  have := lt_storeGroup s n state
  omega

/-- `sq_rng_words_cpu`. -/
def sqRngWordsCpu (s : SqRngStream) (n : ℕ) (out : ℕ → Word) : ℕ → Word :=
  (sqRngWordsCpuLoop s n (0, out)).2

theorem streamWord_group (s : SqRngStream) (g : ℕ) {lane : ℕ} (below : lane < 4) :
    streamWord s (4 * g + lane) = (philoxBlock s g).lane lane := by
  rw [streamWord, sqPhiloxWordsPerGroup, Nat.mul_add_div (by norm_num), Nat.mul_add_mod,
    Nat.div_eq_of_lt below, Nat.mod_eq_of_lt below]
  rfl

/-- A group at a multiple of four stores its words below the bound. -/
theorem storeGroup_eq (s : SqRngStream) {n g : ℕ} (out : ℕ → Word)
    (more : 4 * g < n) :
    storeGroup s n (4 * g, out) =
      (min (4 * g + 4) n,
        fun j => if 4 * g ≤ j ∧ j < min (4 * g + 4) n then streamWord s j
          else out j) := by
  have first : philoxBlock s (4 * g / sqPhiloxWordsPerGroup) = philoxBlock s g := by
    rw [sqPhiloxWordsPerGroup, Nat.mul_div_cancel_left _ (by norm_num)]
  have w0 := streamWord_group s g (show 0 < 4 by norm_num)
  have w1 := streamWord_group s g (show 1 < 4 by norm_num)
  have w2 := streamWord_group s g (show 2 < 4 by norm_num)
  have w3 := streamWord_group s g (show 3 < 4 by norm_num)
  simp only [Philox4x32Ctr.lane] at w0 w1 w2 w3
  simp only [storeGroup, first, ← w0, ← w1, ← w2, ← w3, storeNext]
  split_ifs <;> refine Prod.ext (by omega) (funext fun j => ?_)
  all_goals
    simp only [Function.update_apply]
    split_ifs <;> first | omega | (subst_vars; rfl)

theorem sqRngWordsCpuLoop_eq (s : SqRngStream) (n g : ℕ) (out : ℕ → Word) :
    (sqRngWordsCpuLoop s n (4 * g, out)).2 =
      fun j => if 4 * g ≤ j ∧ j < n then streamWord s j else out j := by
  induction rest : n - 4 * g using Nat.strong_induction_on generalizing g out with
  | _ rest ih =>
      by_cases more : 4 * g < n
      · rw [sqRngWordsCpuLoop, if_pos more, storeGroup_eq s out more]
        by_cases last : n ≤ 4 * g + 4
        · rw [Nat.min_eq_right last, sqRngWordsCpuLoop, if_neg (lt_irrefl n)]
        · rw [Nat.min_eq_left (by omega), show 4 * g + 4 = 4 * (g + 1) by ring,
            ih _ (by omega) (g + 1) _ rfl]
          funext j
          split_ifs <;> first | rfl | omega
      · rw [sqRngWordsCpuLoop, if_neg more]
        funext j
        rw [if_neg (by omega)]

/-- `sq_rng_words_cpu` stores the first `n` words of the stream, no more. -/
theorem sqRngWordsCpu_eq (s : SqRngStream) (n : ℕ) (out : ℕ → Word) :
    sqRngWordsCpu s n out =
      fun i => if i < n then streamWord s i else out i := by
  have := sqRngWordsCpuLoop_eq s n 0 out
  simpa [sqRngWordsCpu] using this

end Stoquant

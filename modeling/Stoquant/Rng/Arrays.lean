import Stoquant.Rng.Paths

/-!
# Word arrays

What the array-writing paths leave at every index, and that no two draws of one seed share
their four words in the arrays, whichever paths wrote them.
-/

namespace Stoquant

open Ieee Par

/-- A path that stores the words of a stream in an array. -/
inductive WordPath where
  | cpu
  | avx2 (region : OmpRegion)

/-- The array that a path leaves of `n` words. -/
def WordPath.words : WordPath → SqRngStream → ℕ → (ℕ → Word) → ℕ → Word
  | .cpu, s, n, out => sqRngWordsCpu s n out
  | .avx2 region, s, n, out => sqAvx2RngWords region s n out

theorem WordPath.words_eq (path : WordPath) (s : SqRngStream) {n : ℕ} (fits : 4 * n ≤ sizeMax)
    (out : ℕ → Word) : path.words s n out = streamWords s n out := by
  cases path with
  | cpu => exact sqRngWordsCpu_eq s n out
  | avx2 region => exact sqAvx2RngWords_eq s fits region out

/-- At every index below `n` each path has lane `i % 4` of the ten rounds, and the paths that
write an array leave the rest of it.  K2 gives the same codes whether it draws these words
itself or finds them prescribed. -/
theorem wordPaths_exact [Arith Format.binary32] {seed tensorId invocationId : BitVec 64}
    {s : SqRngStream} (accepted : sqRngStreamInit seed tensorId invocationId = some s) {n : ℕ}
    (fits : 4 * n ≤ sizeMax) :
    let word := fun i => (philox4x32R sqPhiloxRounds
      ⟨(BitVec.ofNat 64 (i / 4)).setWidth 32, (BitVec.ofNat 64 (i / 4) >>> 32).setWidth 32,
        tensorId.setWidth 32, invocationId.setWidth 32⟩
      ⟨seed.setWidth 32, (seed >>> 32).setWidth 32⟩).lane (i % 4)
    (∀ (path : WordPath) out i, path.words s n out i = if i < n then word i else out i) ∧
      (∀ bitWidth scale prescribedWords grid blockSize m later, 0 < grid * blockSize →
        (prescribedWords = true → ∀ i < n, (m.cell (.word i) : Word) = word i) →
        Task.Steps (roundKernel bitWidth n scale prescribedWords s grid blockSize) m .done later →
        ∀ i < n, isfinite (m.cell (.value i) : F32) = true →
          later.cell (.code i) =
            elementCode (signedLimit bitWidth) scale (m.cell (.value i)) (word i)) ∧
      ∃ words, philoxWords n seed.toNat tensorId.toNat invocationId.toNat = .ok words ∧
        words.length = n ∧ ∀ i < n, words[i]? = some (word i) := by
  have word := streamWord_accepted accepted
  refine ⟨fun path out i => ?_, ?_, _, philoxWords_eq accepted n, ?_, fun i inside => ?_⟩
  · rw [path.words_eq s fits]
    unfold streamWords
    rw [word]
  · intro bitWidth scale prescribedWords grid blockSize m later pos prescribed ran i inside finite
    rw [roundKernel_code pos ran inside finite]
    apply congrArg
    unfold roundWord
    cases prescribedWords with
    | true => exact prescribed rfl i inside
    | false => exact word i
  · rw [List.length_map, List.length_range]
  · rw [List.getElem?_map, List.getElem?_range inside, Option.map_some, word]

theorem wordPaths_exact_five :
    letI := nearestEven Format.binary32
    let word := fun i => (philox4x32R sqPhiloxRounds
      ⟨(BitVec.ofNat 64 (i / 4)).setWidth 32, (BitVec.ofNat 64 (i / 4) >>> 32).setWidth 32,
        (1#64).setWidth 32, (2#64).setWidth 32⟩
      ⟨(7#64).setWidth 32, (7#64 >>> 32).setWidth 32⟩).lane (i % 4)
    (∀ (path : WordPath) out i,
        path.words streamOfSeven 5 out i = if i < 5 then word i else out i) ∧
      (∀ bitWidth scale prescribedWords grid blockSize m later, 0 < grid * blockSize →
        (prescribedWords = true → ∀ i < 5, (m.cell (.word i) : Word) = word i) →
        Task.Steps (roundKernel bitWidth 5 scale prescribedWords streamOfSeven grid blockSize) m
          .done later →
        ∀ i < 5, isfinite (m.cell (.value i) : F32) = true →
          later.cell (.code i) =
            elementCode (signedLimit bitWidth) scale (m.cell (.value i)) (word i)) ∧
      ∃ words, philoxWords (5 : ℕ) (7#64).toNat (1#64).toNat (2#64).toNat = .ok words ∧
        words.length = 5 ∧ ∀ i < 5, words[i]? = some (word i) :=
  letI := nearestEven Format.binary32
  wordPaths_exact (s := streamOfSeven) rfl (by decide)

/-! ## Draws -/

/-- A draw of four words whose identifiers are accepted. -/
@[ext] structure AcceptedDraw where
  seed : BitVec 64
  group : BitVec 64
  tensorId : BitVec 64
  invocationId : BitVec 64
  tensorFits : tensorId.toNat ≤ uint32Max
  invocationFits : invocationId.toNat ≤ uint32Max

/-- The stream that `sq_rng_stream_init` makes for it. -/
def AcceptedDraw.stream (draw : AcceptedDraw) : SqRngStream :=
  ⟨draw.seed, draw.tensorId.setWidth 32, draw.invocationId.setWidth 32⟩

/-- Its key and its counter. -/
def AcceptedDraw.philox (draw : AcceptedDraw) : Philox4x32Key × Philox4x32Ctr :=
  (sqPhiloxKey draw.stream, sqPhiloxCtr draw.stream draw.group)

theorem AcceptedDraw.accepted (draw : AcceptedDraw) :
    sqRngStreamInit draw.seed draw.tensorId draw.invocationId = some draw.stream :=
  if_neg (not_or.mpr ⟨not_lt.mpr draw.tensorFits, not_lt.mpr draw.invocationFits⟩)

theorem AcceptedDraw.philox_injective : Function.Injective AcceptedDraw.philox := by
  intro draw other same
  obtain ⟨key, ctr⟩ := Prod.ext_iff.mp same
  obtain ⟨seed, group, tensorId, invocationId⟩ :=
    draw_injective draw.accepted other.accepted key ctr
  exact AcceptedDraw.ext seed group tensorId invocationId

theorem AcceptedDraw.block_injective {draw other : AcceptedDraw} (seed : draw.seed = other.seed)
    (same : philoxBlock draw.stream draw.group.toNat =
      philoxBlock other.stream other.group.toNat) : draw = other := by
  have accepted := draw.accepted
  rw [seed] at accepted
  obtain ⟨groups, tensors, invocations⟩ := philoxBlock_injective accepted other.accepted same
  exact AcceptedDraw.ext seed groups tensors invocations

theorem WordPath.group_words (path : WordPath) (s : SqRngStream) {n g : ℕ}
    (fits : 4 * n ≤ sizeMax) (inside : 4 * g + 4 ≤ n) (out : ℕ → Word) {lane : ℕ}
    (below : lane < 4) : path.words s n out (4 * g + lane) = (philoxBlock s g).lane lane := by
  rw [path.words_eq s fits, ← streamWord_group s g below]
  exact if_pos (by omega)

/-- Draws never alias.  Accepted draws have different keys and counters, the rounds of
`philox_chunk` and of the oracle permute the counters under every key, so different draws of one
seed have different blocks, in every array that holds them, and an identifier that does not fit
is rejected. -/
theorem draws_apart :
    Function.Injective AcceptedDraw.philox ∧
      (∀ key, Function.Bijective (philoxLane key) ∧ Function.Bijective (philox4x3210Row key)) ∧
      (∀ draw other : AcceptedDraw, draw.seed = other.seed → draw ≠ other →
        philoxBlock draw.stream draw.group.toNat ≠
          philoxBlock other.stream other.group.toNat) ∧
      (∀ (draw other : AcceptedDraw) (path path' : WordPath) (n n' : ℕ) (out out' : ℕ → Word),
        draw.seed = other.seed → draw ≠ other →
        4 * n ≤ sizeMax → 4 * draw.group.toNat + 4 ≤ n →
        4 * n' ≤ sizeMax → 4 * other.group.toNat + 4 ≤ n' →
        ∃ lane < 4, path.words draw.stream n out (4 * draw.group.toNat + lane) ≠
          path'.words other.stream n' out' (4 * other.group.toNat + lane)) ∧
      (∀ draw : AcceptedDraw,
        sqRngStreamInit draw.seed draw.tensorId draw.invocationId = some draw.stream) ∧
      ∀ seed tensorId invocationId : BitVec 64,
        tensorId.toNat > uint32Max ∨ invocationId.toNat > uint32Max →
        sqRngStreamInit seed tensorId invocationId = none := by
  refine ⟨AcceptedDraw.philox_injective,
    fun key => ⟨philoxLane_bijective key, philox4x3210Row_bijective key⟩, ?_, ?_,
    AcceptedDraw.accepted, fun _ _ _ tooLarge => if_pos tooLarge⟩
  · intro draw other seed different same
    exact different (AcceptedDraw.block_injective seed same)
  · intro draw other path path' n n' out out' seed different fits inside fits' inside'
    by_contra agree
    push Not at agree
    apply different
    have lanes : ∀ lane < 4, (philoxBlock draw.stream draw.group.toNat).lane lane =
        (philoxBlock other.stream other.group.toNat).lane lane := by
      intro lane below
      rw [← path.group_words draw.stream fits inside out below,
        ← path'.group_words other.stream fits' inside' out' below]
      exact agree lane below
    apply AcceptedDraw.block_injective seed
    exact Philox4x32Ctr.ext (lanes 0 (by norm_num)) (lanes 1 (by norm_num))
      (lanes 2 (by norm_num)) (lanes 3 (by norm_num))

end Stoquant

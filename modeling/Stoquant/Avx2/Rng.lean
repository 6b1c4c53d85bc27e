import Stoquant.Avx2.Region
import Stoquant.Par.Array
import Stoquant.Rng.Philox

/-!
# Random words of the AVX2 backend

`philox_chunk` computes sixty-four groups side by side, and the chunks are
shared by the threads of a region.  The last chunk goes through a buffer, of
which only the words in range are copied.
-/

namespace Stoquant

open Par Loop

/-- `PHILOX_CHUNK`. -/
def philoxChunkGroups : ℕ := 64

/-- `SQ_PHILOX_WORDS_PER_GROUP * PHILOX_CHUNK`. -/
def chunkWords : ℕ := 256

/-- One lane of round `r` of `philox_chunk`. -/
def philoxLaneRound (key : Philox4x32Key) (r : ℕ) (c : Philox4x32Ctr) :
    Philox4x32Ctr :=
  let ka := key.v0 + BitVec.ofNat 32 r * philoxW32_0
  let kb := key.v1 + BitVec.ofNat 32 r * philoxW32_1
  let p0 : BitVec 64 := philoxM4x32_0.setWidth 64 * c.v0.setWidth 64
  let p1 : BitVec 64 := philoxM4x32_1.setWidth 64 * c.v2.setWidth 64
  let n0 := (p1 >>> 32).setWidth 32 ^^^ c.v1 ^^^ ka
  let n2 := (p0 >>> 32).setWidth 32 ^^^ c.v3 ^^^ kb
  ⟨n0, p1.setWidth 32, n2, p0.setWidth 32⟩

/-- The rounds of `philox_chunk` on one lane. -/
def philoxLane (key : Philox4x32Key) (c : Philox4x32Ctr) : Philox4x32Ctr :=
  upTo sqPhiloxRounds (philoxLaneRound key) c

/-- `philox_chunk`: word `k` of the chunk, lane `k / 4` being one group. -/
def philoxChunk (s : SqRngStream) (firstGroup : BitVec 64) (k : ℕ) : Word :=
  let group := firstGroup + BitVec.ofNat 64 (k / sqPhiloxWordsPerGroup)
  (philoxLane (sqPhiloxKey s) (sqPhiloxCtr s group)).lane
    (k % sqPhiloxWordsPerGroup)

/-- One iteration of the chunk loop of `sq_avx2_rng_words`. -/
def rngChunk (s : SqRngStream) (n c : ℕ) : ArrayTask Word Empty :=
  let firstWord := c * chunkWords
  let words := philoxChunk s (BitVec.ofNat 64 (c * philoxChunkGroups))
  if (firstWord + chunkWords) % 2 ^ 64 ≤ n then
    .storeRun firstWord chunkWords words
  else .storeRun firstWord (n - firstWord) words

/-- The number of chunks; the sum is one of 64-bit integers. -/
def rngChunks (n : ℕ) : ℕ := (n + chunkWords - 1) % 2 ^ 64 / chunkWords

/-- The parallel region of `sq_avx2_rng_words`. -/
def rngRegion (s : SqRngStream) (n team : ℕ) : ArrayTask Word Empty :=
  .team team
    (fun thread =>
      let share := split (rngChunks n) thread team
      List.range' share.1 (share.2 - share.1))
    fun _ => rngChunk s n

/-- `sq_avx2_rng_words`. -/
def sqAvx2RngWords (region : OmpRegion) (s : SqRngStream) (n : ℕ)
    (out : ℕ → Word) : ℕ → Word :=
  (region.scheduler.run (rngRegion s n region.team) ⟨out, 0⟩).cell

theorem philoxLaneRound_eq (key : Philox4x32Key) (r : ℕ) (c : Philox4x32Ctr) :
    philoxLaneRound key r c =
      philox4x32round c
        ⟨key.v0 + BitVec.ofNat 32 r * philoxW32_0,
          key.v1 + BitVec.ofNat 32 r * philoxW32_1⟩ := rfl

theorem philox4x32bumpedRound_iterate (rest : ℕ) (c : Philox4x32Ctr)
    (key : Philox4x32Key) :
    philox4x32bumpedRound^[rest] (philox4x32round c key, key) =
      (upTo (rest + 1) (philoxLaneRound key) c,
        ⟨key.v0 + BitVec.ofNat 32 rest * philoxW32_0,
          key.v1 + BitVec.ofNat 32 rest * philoxW32_1⟩) := by
  induction rest with
  | zero => simp [upTo, philoxLaneRound_eq]
  | succ rest ih =>
      have next : ∀ w k : Word, k + BitVec.ofNat 32 rest * w + w =
          k + BitVec.ofNat 32 (rest + 1) * w := by
        intro w k
        rw [BitVec.ofNat_add, BitVec.add_mul, BitVec.one_mul, BitVec.add_assoc]
      rw [Function.iterate_succ_apply', ih, philox4x32bumpedRound,
        philox4x32bumpkey]
      simp only [next]
      rfl

/-- The lanes of `philox_chunk` are Philox4x32. -/
theorem philoxLane_eq (key : Philox4x32Key) (c : Philox4x32Ctr) :
    philoxLane key c = philox4x32R sqPhiloxRounds c key := by
  have := philox4x32bumpedRound_iterate 9 c key
  rw [philoxLane, sqPhiloxRounds, philox4x32R, this]

/-- Chunk `c` holds the words of the stream from `c * 256` on. -/
theorem philoxChunk_eq (s : SqRngStream) (c k : ℕ) :
    philoxChunk s (BitVec.ofNat 64 (c * philoxChunkGroups)) k =
      streamWord s (c * chunkWords + k) := by
  have group : (c * chunkWords + k) / sqPhiloxWordsPerGroup =
      c * philoxChunkGroups + k / sqPhiloxWordsPerGroup := by
    unfold chunkWords sqPhiloxWordsPerGroup philoxChunkGroups
    omega
  have lane : (c * chunkWords + k) % sqPhiloxWordsPerGroup =
      k % sqPhiloxWordsPerGroup := by
    unfold chunkWords sqPhiloxWordsPerGroup
    omega
  rw [streamWord, group, lane, philoxChunk, philoxBlock, BitVec.ofNat_add,
    philoxLane_eq]

/-- The words of chunk `c` that are in range. -/
def chunkCells (n c : ℕ) : Set ℕ :=
  { a | c * chunkWords ≤ a ∧ a < min (c * chunkWords + chunkWords) n }

section

variable (s : SqRngStream) {n : ℕ} (bound : 4 * n ≤ sizeMax) {c : ℕ}

include bound in
theorem lt_rngChunks_iff : c < rngChunks n ↔ c * chunkWords < n := by
  unfold rngChunks chunkWords
  unfold sizeMax at bound
  rw [Nat.mod_eq_of_lt (by omega)]
  omega

include bound in
theorem rngChunk_eq (more : c * chunkWords < n) :
    rngChunk s n c =
      .storeRun (c * chunkWords)
        (min (c * chunkWords + chunkWords) n - c * chunkWords)
        fun k => streamWord s (c * chunkWords + k) := by
  have small : c * chunkWords + chunkWords < 2 ^ 64 := by
    have width : chunkWords = 256 := rfl
    unfold sizeMax at bound
    omega
  have words := funext (philoxChunk_eq s c)
  unfold rngChunk
  dsimp only
  rw [words, Nat.mod_eq_of_lt small]
  split
  · rename_i whole
    rw [Nat.min_eq_left whole, Nat.add_sub_cancel_left]
  · rename_i tail
    rw [Nat.min_eq_right (by omega)]

include bound in
theorem rngTeam (team : ℕ) :
    Task.Team team
      (fun thread =>
        let share := split (rngChunks n) thread team
        List.range' share.1 (share.2 - share.1))
      (fun _ => rngChunk s n) ∅ (chunkCells n) fun _ => ∅ where
  nodup _ _ := List.nodup_range'
  disjoint b _ c _ different i member := by
    simp only [range'_split] at member ⊢
    exact range_disjoint (splitCut_mono _ _) different member
  within b bBound c member := by
    simp only [range'_split, mem_range] at member
    have last := splitCut_mono (rngChunks n) team (show b + 1 ≤ team from bBound)
    rw [splitCut_team _ (by omega)] at last
    have more := (lt_rngChunks_iff bound).mp (show c < rngChunks n by omega)
    rw [rngChunk_eq s bound more]
    refine (Task.within_storeRun _ _ _).mono (Set.Subset.refl _) ?_
    rintro a ⟨ge, lt⟩
    exact .inl ⟨ge, by omega⟩
  free _ _ c _ := by
    unfold rngChunk
    dsimp only
    split <;> exact Task.raceFree_storeRun _ _ _
  inputs_kept _ input := input.elim
  outputs_apart c d different a := by
    rintro ⟨ge, lt⟩ ⟨ge', lt'⟩
    unfold chunkWords at *
    omega
  scratch_apart _ _ _ _ scratch := scratch.elim
  scratch_private _ _ _ _ scratch := scratch

include bound in
/-- `sq_avx2_rng_words` stores the first `n` words of the stream, no more,
whatever the team and the order of its threads. -/
theorem sqAvx2RngWords_eq (region : OmpRegion) (out : ℕ → Word) :
    sqAvx2RngWords region s n out =
      fun i => if i < n then streamWord s i else out i := by
  have team := rngTeam s bound region.team
  unfold sqAvx2RngWords rngRegion
  rw [region.scheduler.run_eq team.raceFree]
  funext i
  by_cases inRange : i < n
  · have ge : i / chunkWords * chunkWords ≤ i := Nat.div_mul_le_self _ _
    have lt : i < i / chunkWords * chunkWords + chunkWords :=
      Nat.lt_div_mul_add (by decide)
    have more : i / chunkWords * chunkWords < n := by omega
    have chunk := (lt_rngChunks_iff bound).mpr more
    obtain ⟨t, tBound, member⟩ := exists_split region.team_pos chunk
    rw [if_pos inRange]
    refine team.cell tBound (i := i / chunkWords)
      (by simpa only [range'_split] using member) ⟨ge, by omega⟩ _ fun k _ => ?_
    rw [rngChunk_eq s bound more, Task.storeRun_cell, if_pos (by omega)]
    congr 1
    omega
  · rw [if_neg inRange]
    refine team.frame ?_ (fun _ _ outside => outside) _
    rintro b - c - ⟨-, lt⟩
    omega

end

end Stoquant

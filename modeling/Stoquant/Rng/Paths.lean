import Stoquant.Backends
import Stoquant.Cuda.Round
import Stoquant.Oracle.Philox
import Stoquant.Rng.Permutation

/-!
# One stream on every path

The scalar loop, the chunks of the AVX2 backend, the CUDA kernels and the oracle give
every element the same word, and no two draws of a seed share a block.
-/

namespace Stoquant

open Ieee Par

/-- `rng_words_kernel`. -/
def rngWordsKernel (s : SqRngStream) (n grid blockSize : ℕ) : ArrayTask Word Empty :=
  .team (grid * blockSize) (fun thread => strided thread (grid * blockSize) n) fun _ i =>
    .write i ((philox4x32R sqPhiloxRounds
      (sqPhiloxCtr s (BitVec.ofNat 64 (i / sqPhiloxWordsPerGroup))) (sqPhiloxKey s)).lane
        (i % sqPhiloxWordsPerGroup)) .done

/-- An array after a path has stored the words of a stream below a bound. -/
def streamWords (s : SqRngStream) (n : ℕ) (out : ℕ → Word) : ℕ → Word :=
  fun i => if i < n then streamWord s i else out i

/-- The threads of `rng_words_kernel` share out the words. -/
theorem rngWordsTeam (s : SqRngStream) (n : ℕ) {threads : ℕ} (pos : 0 < threads) :
    Task.Team threads (fun thread => strided thread threads n)
      (fun _ i => (.write i (streamWord s i) .done : ArrayTask Word Empty)) ∅ (fun i => {i})
      fun _ => ∅ :=
  Task.ownTeam (shares_strided pos n) (fun _ _ => id) (fun _ => id) (fun _ => ⟨rfl, trivial⟩)
    fun _ => trivial

/-- `rng_words_kernel` stores the first `n` words of the stream, no more, in any order of
its threads. -/
theorem rngWordsKernel_eq (s : SqRngStream) (n : ℕ) {grid blockSize : ℕ}
    (pos : 0 < grid * blockSize) (out : ℕ → Word) {later : Mem (fun _ : ℕ => Word) Empty}
    (ran : Task.Steps (rngWordsKernel s n grid blockSize) ⟨out, 0⟩ .done later) :
    later.cell = streamWords s n out := by
  have team := rngWordsTeam s n pos
  have ends : later = (rngWordsKernel s n grid blockSize).eval ⟨out, 0⟩ :=
    ran.eval_eq team.raceFree
  rw [ends]
  funext i
  unfold streamWords
  by_cases inside : i < n
  · obtain ⟨thread, below, member⟩ := ((shares_strided pos n).cover i).mp inside
    rw [if_pos inside]
    apply team.cell below member rfl
    intro k _
    exact Function.update_self ..
  · rw [if_neg inside]
    refine team.frame ?_ (fun _ _ => id) _
    rintro thread below _ member rfl
    exact inside (((shares_strided pos n).cover i).mpr ⟨thread, below, member⟩)

theorem streamWord_accepted {seed tensorId invocationId : BitVec 64} {s : SqRngStream}
    (accepted : sqRngStreamInit seed tensorId invocationId = some s) (i : ℕ) :
    streamWord s i = (philox4x32R sqPhiloxRounds
      ⟨(BitVec.ofNat 64 (i / 4)).setWidth 32, (BitVec.ofNat 64 (i / 4) >>> 32).setWidth 32,
        tensorId.setWidth 32, invocationId.setWidth 32⟩
      ⟨seed.setWidth 32, (seed >>> 32).setWidth 32⟩).lane (i % 4) := by
  unfold sqRngStreamInit at accepted
  split at accepted
  · cases accepted
  · obtain rfl := Option.some.inj accepted
    rfl

/-- Every path gives element `i` lane `i % 4` of ten rounds on group `i / 4`: the scalar
loop, the AVX2 chunks, `rng_words_kernel` and the oracle, none of which stores a word
behind the last, and K2 where it draws its own words. -/
theorem rngPaths_agree [Arith Format.binary32] {seed tensorId invocationId : BitVec 64}
    {s : SqRngStream} (accepted : sqRngStreamInit seed tensorId invocationId = some s) {n : ℕ}
    (fits : 4 * n ≤ sizeMax) (region : OmpRegion) {grid blockSize : ℕ}
    (pos : 0 < grid * blockSize) (out : ℕ → Word) :
    (∀ i, streamWord s i =
      (philox4x32R sqPhiloxRounds
        ⟨(BitVec.ofNat 64 (i / 4)).setWidth 32, (BitVec.ofNat 64 (i / 4) >>> 32).setWidth 32,
          tensorId.setWidth 32, invocationId.setWidth 32⟩
        ⟨seed.setWidth 32, (seed >>> 32).setWidth 32⟩).lane (i % 4)) ∧
      sqRngWordsCpu s n out = streamWords s n out ∧
      sqAvx2RngWords region s n out = streamWords s n out ∧
      (∀ later, Task.Steps (rngWordsKernel s n grid blockSize) ⟨out, 0⟩ .done later →
        later.cell = streamWords s n out) ∧
      (∀ bitWidth scale m later,
        Task.Steps (roundKernel bitWidth n scale false s grid blockSize) m .done later →
        ∀ i < n, isfinite (m.cell (.value i) : F32) = true →
        later.cell (.code i) =
          elementCode (signedLimit bitWidth) scale (m.cell (.value i)) (streamWord s i)) ∧
      philoxWords n seed.toNat tensorId.toNat invocationId.toNat =
        .ok ((List.range n).map (streamWord s)) := by
  exact ⟨streamWord_accepted accepted, sqRngWordsCpu_eq s n out,
    sqAvx2RngWords_eq s fits region out, fun _ ran => rngWordsKernel_eq s n pos out ran,
    fun _ _ _ _ ran _ inside finite => roundKernel_code pos ran inside finite,
    philoxWords_eq accepted n⟩

/-- The stream of seed 7, tensor 1 and invocation 2. -/
def streamOfSeven : SqRngStream := ⟨7#64, 1#32, 2#32⟩

theorem rngPaths_agree_five :
    letI := nearestEven Format.binary32
    (∀ i, streamWord streamOfSeven i =
      (philox4x32R sqPhiloxRounds
        ⟨(BitVec.ofNat 64 (i / 4)).setWidth 32, (BitVec.ofNat 64 (i / 4) >>> 32).setWidth 32,
          (1#64).setWidth 32, (2#64).setWidth 32⟩
        ⟨(7#64).setWidth 32, (7#64 >>> 32).setWidth 32⟩).lane (i % 4)) ∧
      sqRngWordsCpu streamOfSeven 5 (fun _ => 0#32) = streamWords streamOfSeven 5 (fun _ => 0#32) ∧
      sqAvx2RngWords threeThreads streamOfSeven 5 (fun _ => 0#32) =
        streamWords streamOfSeven 5 (fun _ => 0#32) ∧
      (∀ later, Task.Steps (rngWordsKernel streamOfSeven 5 1 2) ⟨fun _ => 0#32, 0⟩ .done later →
        later.cell = streamWords streamOfSeven 5 (fun _ => 0#32)) ∧
      (∀ bitWidth scale m later,
        Task.Steps (roundKernel bitWidth 5 scale false streamOfSeven 1 2) m .done later →
        ∀ i < 5, isfinite (m.cell (.value i) : F32) = true →
        later.cell (.code i) =
          elementCode (signedLimit bitWidth) scale (m.cell (.value i))
            (streamWord streamOfSeven i)) ∧
      philoxWords (5 : ℕ) (7#64).toNat (1#64).toNat (2#64).toNat =
        .ok ((List.range 5).map (streamWord streamOfSeven)) :=
  letI := nearestEven Format.binary32
  rngPaths_agree (s := streamOfSeven) rfl (by decide) threeThreads (by decide) fun _ => 0#32

theorem draw_injective {seed tensorId invocationId seed' tensorId' invocationId' group group' :
    BitVec 64} {s s' : SqRngStream} (accepted : sqRngStreamInit seed tensorId invocationId = some s)
    (accepted' : sqRngStreamInit seed' tensorId' invocationId' = some s')
    (key : sqPhiloxKey s = sqPhiloxKey s') (ctr : sqPhiloxCtr s group = sqPhiloxCtr s' group') :
    seed = seed' ∧ group = group' ∧ tensorId = tensorId' ∧ invocationId = invocationId' := by
  obtain ⟨seedEq, tensorEq, invocationEq⟩ := sqRngStreamInit_eq_some accepted
  obtain ⟨seedEq', tensorEq', invocationEq'⟩ := sqRngStreamInit_eq_some accepted'
  obtain ⟨groups, tensors, invocations⟩ := sqPhiloxCtr_injective ctr
  refine ⟨?_, groups, ?_, ?_⟩
  · rw [← seedEq, ← seedEq', sqPhiloxKey_injective key]
  · rw [← tensorEq, ← tensorEq', tensors]
  · rw [← invocationEq, ← invocationEq', invocations]

theorem philoxLane_bijective (key : Philox4x32Key) : Function.Bijective (philoxLane key) := by
  rw [funext (philoxLane_eq key)]
  exact philox4x32R_bijective sqPhiloxRounds key

theorem philox4x3210Row_bijective (key : Philox4x32Key) :
    Function.Bijective (philox4x3210Row key) := by
  rw [funext (philox4x3210Row_eq key)]
  exact philox4x32R_bijective sqPhiloxRounds key

/-- Distinct draws never alias.  Accepted streams and groups are told apart by their key
and counter; for every key the rounds of `philox_chunk` and of the oracle permute the
counters; so one seed gives different groups, tensors or invocations different blocks, and
an identifier that does not fit is rejected. -/
theorem draws_never_alias :
    (∀ {seed tensorId invocationId seed' tensorId' invocationId' group group' : BitVec 64}
      {s s' : SqRngStream}, sqRngStreamInit seed tensorId invocationId = some s →
      sqRngStreamInit seed' tensorId' invocationId' = some s' →
      sqPhiloxKey s = sqPhiloxKey s' → sqPhiloxCtr s group = sqPhiloxCtr s' group' →
      seed = seed' ∧ group = group' ∧ tensorId = tensorId' ∧ invocationId = invocationId') ∧
    (∀ key, Function.Bijective (philoxLane key)) ∧
    (∀ key, Function.Bijective (philox4x3210Row key)) ∧
    (∀ {seed tensorId invocationId tensorId' invocationId' group group' : BitVec 64}
      {s s' : SqRngStream}, sqRngStreamInit seed tensorId invocationId = some s →
      sqRngStreamInit seed tensorId' invocationId' = some s' →
      (group, tensorId, invocationId) ≠ (group', tensorId', invocationId') →
      philoxBlock s group.toNat ≠ philoxBlock s' group'.toNat) ∧
    ∀ {seed tensorId invocationId : BitVec 64},
      sqRngStreamInit seed tensorId invocationId = none ↔
        tensorId.toNat > uint32Max ∨ invocationId.toNat > uint32Max := by
  refine ⟨draw_injective, philoxLane_bijective, philox4x3210Row_bijective, ?_,
    sqRngStreamInit_eq_none_iff⟩
  · intro seed tensorId invocationId tensorId' invocationId' group group' s s' accepted accepted'
      different same
    obtain ⟨groups, tensors, invocations⟩ := philoxBlock_injective accepted accepted' same
    exact different (Prod.ext groups (Prod.ext tensors invocations))

end Stoquant

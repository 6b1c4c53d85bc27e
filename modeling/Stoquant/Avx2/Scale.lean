import Stoquant.Avx2.Region
import Stoquant.Par.Array
import Stoquant.Quantizer.Encode
import Stoquant.Tree.Halves

/-!
# Scale of the AVX2 backend

The largest magnitude is the largest bit pattern with the sign masked off, and
the sums add halves of bit-reversed storage instead of adjacent pairs.
-/

namespace Stoquant

open Ieee Loop Par

/-- `MAGNITUDE_MASK`. -/
def magnitudeMask : Word := 0x7FFFFFFF#32

/-- `NONFINITE_BITS`. -/
def nonfiniteBits : Word := 0x7F800000#32

/-- The loop of `max_magnitude_bits` over the range of one thread. -/
def localMaxBits (values : ℕ → F32) (first length : ℕ) : Word :=
  upTo length
    (fun k result =>
      let m := f32Bits (values (first + k)) &&& magnitudeMask
      if m > result then m else result) 0#32

/-- The parallel region of `max_magnitude_bits`: every thread submits its local
maximum to the critical section. -/
def maxMagnitudeRegion (values : ℕ → F32) (count team : ℕ) :
    ArrayTask Unit Word :=
  .threads team fun thread =>
    let share := unitRange count thread team
    .atomic (localMaxBits values share.1 (share.2 - share.1)) .done

/-- The shared `result` after the critical sections of some threads. -/
def absorbMaxBits (submitted : Multiset Word) : Word :=
  BitVec.ofNat 32 (submitted.map BitVec.toNat).sup

/-- `max_magnitude_bits`. -/
def maxMagnitudeBits (region : OmpRegion) (values : ℕ → F32) (count : ℕ) : Word :=
  absorbMaxBits
    (region.scheduler.run (maxMagnitudeRegion values count region.team)
      ⟨fun _ => (), 0⟩).log

/-- `scan_avx2_encode_input`. -/
def scanAvx2EncodeInput (region : OmpRegion) : SqEncodeInputScan :=
  fun values count =>
    let maxBits := maxMagnitudeBits region values count
    if maxBits ≥ nonfiniteBits then (.errNonfinite, false)
    else (.ok, maxBits ≠ 0#32)

/-- `reverse_bits`. -/
def reverseBits (x bits : ℕ) : ℕ :=
  (upTo bits (fun _ state => (state.1 <<< 1 ||| (state.2 &&& 1), state.2 >>> 1))
    (0, x)).1

/-- `while (((size_t)1 << padded_bits) < padded_count) padded_bits++`. -/
def countPaddedBits (paddedCount bits : ℕ) : ℕ :=
  if 2 ^ bits < paddedCount then countPaddedBits paddedCount (bits + 1) else bits
termination_by paddedCount - bits
decreasing_by
  have := Nat.lt_two_pow_self (n := bits)
  omega

section

variable [Arith Format.binary32]

/-- `gather_terms`. -/
def gatherTerms (block : ℕ → F32) (rev : ℕ → ℕ) (maxAbs : F32) : ℕ → F32 :=
  fun j =>
    let ratio := fabsf (block (rev j)) / maxAbs
    ratio * ratio

/-- `halves_tree`, with `add_halves` for each level. -/
def halvesTree (terms : ℕ → F32) (n : ℕ) : ℕ → F32 :=
  (halvings (n / 2)).foldl
    (fun terms half =>
      upTo half
        (fun j terms => Function.update terms j (terms j + terms (half + j)))
        terms)
    terms

/-- `block_sum`. -/
def blockSum (values : ℕ → F32) (count start : ℕ) (maxAbs : F32)
    (rev : ℕ → ℕ) : F32 :=
  let n := count - start
  let block : ℕ → F32 := fun j =>
    if n < sqScaleBlockSize then if j < n then values (start + j) else zeroF
    else values (start + j)
  halvesTree (gatherTerms block rev maxAbs) sqScaleBlockSize 0

/-- The parallel region of `sq_avx2_compute_scale_with_workspace`. -/
def blockSumsRegion (values : ℕ → F32) (count : ℕ) (maxAbs : F32)
    (rev : ℕ → ℕ) (paddedBits team : ℕ) : ArrayTask F32 Empty :=
  .team team
    (fun thread =>
      let share := split (blockCount count) thread team
      List.range' share.1 (share.2 - share.1))
    fun _ b =>
      .write (reverseBits b paddedBits)
        (blockSum values count (b * sqScaleBlockSize) maxAbs rev) .done

/-- `sq_avx2_compute_scale_with_workspace`, with the regions of its scan and of
its block sums. -/
def sqAvx2ComputeScaleWithWorkspace (scan sums : OmpRegion) (values : Ptr F32)
    (count : ℕ) (scale : Option F32) (partials : Ptr F32)
    (partialCapacity : ℕ) : SqStatus × Option F32 × Ptr F32 :=
  match scale, values with
  | none, _ => (.errArgument, none, partials)
  | some scale, none =>
      if count ≠ 0 then (.errArgument, some scale, partials)
      else (.ok, some zeroF, partials)
  | some _, some values =>
      if count = 0 then (.ok, some zeroF, partials)
      else
        let maxBits := maxMagnitudeBits scan values count
        if maxBits ≥ nonfiniteBits then (.errNonfinite, some zeroF, partials)
        else if maxBits = 0#32 then (.ok, some zeroF, partials)
        else
          let maxAbs := ofF32Bits maxBits
          let paddedCount := sqScaleWorkspaceElements count
          if paddedCount = sizeMax then (.errMemory, some zeroF, partials)
          else if paddedCount > sizeMax / 4 then
            (.errMemory, some zeroF, partials)
          else
            match partials with
            | none => (.errArgument, some zeroF, none)
            | some array =>
                if partialCapacity < paddedCount then
                  (.errArgument, some zeroF, some array)
                else
                  let array := upTo paddedCount
                    (fun i array => Function.update array i zeroF) array
                  let bits := countPaddedBits paddedCount 0
                  let rev := fun i => reverseBits i 8
                  let array := (sums.scheduler.run
                    (blockSumsRegion values count maxAbs rev bits sums.team)
                    ⟨array, 0⟩).cell
                  let array := halvesTree array paddedCount
                  let root := sqrt (array 0)
                  let result := maxAbs * root
                  if isfinite result then (.ok, some result, some array)
                  else (.errScaleOverflow, some zeroF, some array)

end

/-! ## The largest bit pattern -/

theorem toNat_magnitude (x : F32) :
    (f32Bits x &&& magnitudeMask).toNat = x.mag := by
  have magLt : x.mag < 2 ^ 31 := x.mag_lt
  have bitsLt : x.toBits < 2 ^ 32 := x.toBits_lt
  rw [BitVec.toNat_and, f32Bits, BitVec.toNat_ofNat, Nat.mod_eq_of_lt bitsLt,
    show magnitudeMask.toNat = 2 ^ 31 - 1 from rfl, Nat.and_two_pow_sub_one_eq_mod]
  unfold Fp.toBits
  rw [magBits_binary32]
  split
  · rw [Nat.add_mod_left, Nat.mod_eq_of_lt magLt]
  · rw [Nat.zero_add, Nat.mod_eq_of_lt magLt]

theorem localMaxBits_le_iff (values : ℕ → F32) (first length bound : ℕ) :
    (localMaxBits values first length).toNat ≤ bound ↔
      ∀ k < length, (values (first + k)).mag ≤ bound := by
  unfold localMaxBits
  induction length with
  | zero => simp [upTo]
  | succ n ih =>
      have max : ∀ m r : Word,
          (if m > r then m else r).toNat ≤ bound ↔
            r.toNat ≤ bound ∧ m.toNat ≤ bound := by
        intro m r
        split
        · rename_i above
          have := BitVec.lt_def.mp above
          omega
        · rename_i above
          have := mt BitVec.lt_def.mpr above
          omega
      rw [upTo, max, ih, toNat_magnitude]
      constructor
      · rintro ⟨before, last⟩ k below
        rcases Nat.lt_succ_iff_lt_or_eq.mp below with below | rfl
        · exact before k below
        · exact last
      · intro each
        exact ⟨fun k below => each k (Nat.lt_succ_of_lt below),
          each n (Nat.lt_succ_self n)⟩

theorem raceFree_maxMagnitudeRegion (values : ℕ → F32) (count team : ℕ) :
    (maxMagnitudeRegion values count team).RaceFree :=
  Task.raceFree_threads (fun _ => ∅) (fun _ => ∅) (fun _ _ => trivial)
    (fun _ _ _ _ written => written.elim) fun _ _ => trivial

theorem log_maxMagnitudeRegion (values : ℕ → F32) (count team : ℕ) :
    ((maxMagnitudeRegion values count team).eval ⟨fun _ => (), 0⟩).log =
      ((List.range team).map fun thread =>
        let share := unitRange count thread team
        ({localMaxBits values share.1 (share.2 - share.1)} :
          Multiset Word)).sum := by
  have within : ∀ thread < team,
      ((fun thread =>
        let share := unitRange count thread team
        .atomic (localMaxBits values share.1 (share.2 - share.1)) .done :
          ℕ → ArrayTask Unit Word) thread).Within ∅ ∅ := fun _ _ => trivial
  rw [maxMagnitudeRegion, Task.threads_log within
    fun _ _ _ _ written => written.elim, add_zero]
  rfl

/-- Whatever the team, the result is the largest magnitude. -/
theorem maxMagnitudeBits_eq (region : OmpRegion) (values : ℕ → F32)
    (count : ℕ) :
    maxMagnitudeBits region values count =
      BitVec.ofNat 32 (maxMag values count) := by
  rw [maxMagnitudeBits,
    region.scheduler.run_eq (raceFree_maxMagnitudeRegion _ _ _),
    log_maxMagnitudeRegion, absorbMaxBits]
  congr 1
  refine eq_of_forall_ge_iff fun bound => ?_
  rw [Multiset.sup_le, maxMag_le_iff]
  simp only [Multiset.mem_map, Task.Team.mem_sum, List.mem_range,
    Multiset.mem_singleton]
  constructor
  · intro each i below
    have unit : i / sqScaleBlockSize < blockCount count :=
      lt_blockCount_iff.mpr (lt_of_le_of_lt (Nat.div_mul_le_self _ _) below)
    obtain ⟨t, tBound, member⟩ := exists_split region.team_pos unit
    obtain ⟨ge, lt⟩ := mem_unitRange.mpr ⟨below, member⟩
    have localMax := each _ ⟨_, ⟨t, tBound, rfl⟩, rfl⟩
    rw [localMaxBits_le_iff] at localMax
    have found := localMax (i - (unitRange count t region.team).1) (by omega)
    rwa [Nat.add_sub_cancel' ge] at found
  · rintro each _ ⟨_, ⟨t, tBound, rfl⟩, rfl⟩
    rw [localMaxBits_le_iff]
    intro k below
    exact each _ (mem_unitRange.mp ⟨Nat.le_add_right _ _, by omega⟩).1

theorem toNat_maxMag (values : ℕ → F32) (count : ℕ) :
    (BitVec.ofNat 32 (maxMag values count)).toNat = maxMag values count := by
  have bound : maxMag values count ≤ 2 ^ 31 - 1 :=
    maxMag_le_iff.mpr fun i _ => Nat.le_pred_of_lt (values i).mag_lt
  rw [BitVec.toNat_ofNat, Nat.mod_eq_of_lt (by omega)]

theorem maxMag_ge_nonfiniteBits (values : ℕ → F32) (count : ℕ) :
    BitVec.ofNat 32 (maxMag values count) ≥ nonfiniteBits ↔
      allFinite values count = false := by
  rw [← Bool.not_eq_true, allFinite_iff_maxMag, ge_iff_le, BitVec.le_def,
    toNat_maxMag, infMag_binary32]
  exact Nat.not_lt.symm

theorem maxMag_eq_zero_iff (values : ℕ → F32) (count : ℕ) :
    BitVec.ofNat 32 (maxMag values count) = 0#32 ↔ maxMag values count = 0 := by
  rw [← BitVec.toNat_inj, toNat_maxMag]
  rfl

theorem scanAvx2EncodeInput_correct (region : OmpRegion) :
    ScanCorrect (scanAvx2EncodeInput region) := by
  intro values count
  have nonfinite := maxMag_ge_nonfiniteBits values count
  have zero := maxMag_eq_zero_iff values count
  have nonzero : anyNonzero values count = true ↔ maxMag values count ≠ 0 :=
    anyNonzero_iff
  unfold scanAvx2EncodeInput
  dsimp only
  rw [maxMagnitudeBits_eq]
  by_cases finite : allFinite values count = true
  · have notBelow : ¬ BitVec.ofNat 32 (maxMag values count) ≥ nonfiniteBits := by
      rw [nonfinite, finite]
      simp
    rw [if_pos finite, if_neg notBelow]
    congr 1
    rw [Bool.eq_iff_iff, decide_eq_true_iff, nonzero, Ne, zero]
  · rw [if_neg finite, if_pos (nonfinite.mpr (by simpa using finite))]

theorem ofF32Bits_maxMag {values : ℕ → F32} {count : ℕ}
    (finite : allFinite values count = true) :
    ofF32Bits (BitVec.ofNat 32 (maxMag values count)) =
      magF (maxMag values count) := by
  have small := allFinite_iff_maxMag.mp finite
  rw [infMag_binary32] at small
  have bits : f32Bits (magF (maxMag values count)) =
      BitVec.ofNat 32 (maxMag values count) := by
    rw [f32Bits, Fp.toBits, sign_magF, mag_magF (by rwa [infMag_binary32])]
    simp
  rw [← bits, ofF32Bits_f32Bits]

/-! ## Bit-reversed sums -/

theorem reverseBits_eq (x bits : ℕ) : reverseBits x bits = Tree.reversed bits x := by
  have run : upTo bits
      (fun _ (state : ℕ × ℕ) =>
        (state.1 <<< 1 ||| (state.2 &&& 1), state.2 >>> 1)) (0, x) =
      (Tree.reversed bits x, x / 2 ^ bits) := by
    induction bits with
    | zero => simp [upTo, Tree.reversed]
    | succ bits ih =>
        have bit : x / 2 ^ bits % 2 < 2 ^ 1 := Nat.mod_lt _ (by norm_num)
        rw [upTo, ih, Nat.and_one_is_mod, ← Nat.shiftLeft_add_eq_or_of_lt bit,
          Tree.reversed_succ, Nat.shiftLeft_eq, Nat.shiftRight_eq_div_pow,
          Nat.div_div_eq_div_mul, ← pow_add, pow_one, Nat.mul_comm 2]
  rw [reverseBits, run]

theorem countPaddedBits_pow {k j : ℕ} (le : j ≤ k) :
    countPaddedBits (2 ^ k) j = k := by
  induction rest : k - j generalizing j with
  | zero =>
      have : j = k := by omega
      rw [countPaddedBits, this, if_neg (lt_irrefl _)]
  | succ rest ih =>
      have more : 2 ^ j < 2 ^ k := Nat.pow_lt_pow_right (by norm_num) (by omega)
      rw [countPaddedBits, if_pos more, ih (by omega) (by omega)]

section

variable [RoundedArith Format.binary32]

theorem zeroTerm {maxAbs : F32} (finite : maxAbs.isFinite = true)
    (nonzero : maxAbs.mag ≠ 0) (sign : maxAbs.sign = false) :
    fabsf zeroF / maxAbs * (fabsf zeroF / maxAbs) = zeroF := by
  have zeroFinite : zeroF.isFinite = true := Fp.isFinite_zero
  have absZero : fabsf zeroF = zeroF := rfl
  have zeroReal : zeroF.toReal = 0 := Fp.toReal_eq_zero_iff.mpr Fp.mag_zero
  have ratio : zeroF / maxAbs = zeroF := by
    have same : SameValue (zeroF / maxAbs) zeroF :=
      (div_rounds zeroFinite finite nonzero).of_exact zeroFinite
        (by rw [zeroReal, zero_div])
    refine Fp.eq_of_key_of_sign same.key ?_
    rw [div_sign zeroFinite finite nonzero, sign]
    rfl
  have square : zeroF * zeroF = zeroF := by
    have same : SameValue (zeroF * zeroF) zeroF :=
      (mul_rounds zeroFinite zeroFinite).of_exact zeroFinite
        (by rw [zeroReal, zero_mul])
    refine Fp.eq_of_key_of_sign same.key ?_
    rw [mul_sign zeroFinite zeroFinite]
    rfl
  rw [absZero, ratio, square]

/-- The halves tree over a block gives the tree of its terms. -/
theorem blockSum_eq (values : ℕ → F32) (count block : ℕ) {maxAbs : F32}
    (finite : maxAbs.isFinite = true) (nonzero : maxAbs.mag ≠ 0)
    (sign : maxAbs.sign = false) :
    blockSum values count (block * sqScaleBlockSize) maxAbs
        (fun i => reverseBits i 8) =
      blockTree values count maxAbs block := by
  unfold blockSum blockTree halvesTree
  dsimp only
  rw [show sqScaleBlockSize / 2 = 2 ^ 8 / 2 from rfl]
  refine Tree.foldl_halves (· + ·) 8 fun j below => ?_
  have inBlock := Tree.reversed_lt 8 j
  unfold gatherTerms scaleTerm
  dsimp only
  rw [reverseBits_eq]
  generalize Tree.reversed 8 j = r at inBlock
  unfold sqScaleBlockSize
  split_ifs <;>
    first
      | rfl
      | exact zeroTerm finite nonzero sign
      | omega

theorem blockSumsTeam (values : ℕ → F32) (count : ℕ) (maxAbs : F32)
    (rev : ℕ → ℕ) (bits team : ℕ) (enough : blockCount count ≤ 2 ^ bits) :
    Task.Team team
      (fun thread =>
        let share := split (blockCount count) thread team
        List.range' share.1 (share.2 - share.1))
      (fun _ b =>
        (.write (reverseBits b bits)
          (blockSum values count (b * sqScaleBlockSize) maxAbs rev) .done :
          ArrayTask F32 Empty))
      ∅ (fun b => { a | b < 2 ^ bits ∧ a = reverseBits b bits })
      fun _ => ∅ where
  nodup _ _ := List.nodup_range'
  disjoint b _ c _ different i member := by
    simp only [range'_split] at member ⊢
    exact range_disjoint (splitCut_mono _ _) different member
  within t tBound b member := by
    simp only [range'_split, mem_range] at member
    have last := splitCut_mono (blockCount count) team (show t + 1 ≤ team from tBound)
    rw [splitCut_team _ (by omega)] at last
    exact ⟨.inl ⟨by omega, rfl⟩, trivial⟩
  free _ _ _ _ := trivial
  inputs_kept _ input := input.elim
  outputs_apart b c different a := by
    rintro ⟨bLt, rfl⟩ ⟨cLt, same⟩
    rw [reverseBits_eq, reverseBits_eq] at same
    apply different
    rw [← Tree.reversed_reversed bLt, same, Tree.reversed_reversed cLt]
  scratch_apart _ _ _ _ scratch := scratch.elim
  scratch_private _ _ _ _ scratch := scratch

/-- After the region a partial sum is stored at the reverse of its index. -/
theorem blockSumsRegion_cell (region : OmpRegion) (values : ℕ → F32)
    (count : ℕ) (maxAbs : F32) (rev : ℕ → ℕ) {bits : ℕ}
    (enough : blockCount count ≤ 2 ^ bits) (array : ℕ → F32) {j : ℕ}
    (inRange : j < 2 ^ bits) :
    (region.scheduler.run
        (blockSumsRegion values count maxAbs rev bits region.team)
        ⟨array, 0⟩).cell j =
      let b := Tree.reversed bits j
      if b < blockCount count then
        blockSum values count (b * sqScaleBlockSize) maxAbs rev
      else array j := by
  have team := blockSumsTeam values count maxAbs rev bits region.team enough
  have back := Tree.reversed_reversed inRange
  unfold blockSumsRegion
  rw [region.scheduler.run_eq team.raceFree]
  dsimp only
  split
  · rename_i present
    obtain ⟨t, tBound, member⟩ := exists_split region.team_pos present
    refine team.cell tBound (by simpa only [range'_split] using member)
      ⟨Tree.reversed_lt bits j, by rw [reverseBits_eq, back]⟩ _ fun k _ => ?_
    have here : reverseBits (Tree.reversed bits j) bits = j := by
      rw [reverseBits_eq, back]
    simp [Task.eval, Mem.set, here]
  · rename_i absent
    refine team.frame ?_ (fun _ _ scratch => scratch) _
    rintro t tBound b member ⟨bLt, rfl⟩
    simp only [range'_split, mem_range] at member
    have last := splitCut_mono (blockCount count) region.team
      (show t + 1 ≤ region.team from tBound)
    rw [splitCut_team _ region.team_pos] at last
    rw [reverseBits_eq, Tree.reversed_reversed bLt] at absent
    omega

/-- With a workspace that suffices, the AVX2 scale is the scale of the tensor,
whatever the teams and the order of their threads. -/
theorem sqAvx2ComputeScaleWithWorkspace_eq (scan sums : OmpRegion)
    (values : ℕ → F32) {count : ℕ} (scale : F32) (partials : Ptr F32)
    {partialCapacity : ℕ} (bound : count ≤ sizeMax)
    (sufficient : count ≠ 0 → partials.isSome ∧
      sqScaleWorkspaceElements count ≤ partialCapacity) :
    ∃ partials', sqAvx2ComputeScaleWithWorkspace scan sums (some values) count
        (some scale) partials partialCapacity =
      ((scaleOutcome (tensorScale values count)).1,
        some (scaleOutcome (tensorScale values count)).2, partials') := by
  by_cases empty : count = 0
  · subst empty
    exact ⟨partials, rfl⟩
  obtain ⟨present, capacity⟩ := sufficient empty
  obtain ⟨array, rfl⟩ := Option.isSome_iff_exists.mp present
  have elements := sqScaleWorkspaceElements_eq empty bound
  have small := sqScaleWorkspaceElements_le bound
  have enough : blockCount count ≤ 2 ^ paddedBits count :=
    Nat.le_pow_clog (by norm_num) _
  unfold sqAvx2ComputeScaleWithWorkspace tensorScale
  dsimp only
  rw [if_neg empty, maxMagnitudeBits_eq, scanMaxAbs_eq]
  by_cases finite : allFinite values count = true
  · have maxSmall := allFinite_iff_maxMag.mp finite
    have notBelow : ¬ BitVec.ofNat 32 (maxMag values count) ≥ nonfiniteBits := by
      rw [maxMag_ge_nonfiniteBits, finite]
      simp
    rw [if_neg notBelow, if_pos finite]
    dsimp only
    rw [magF_eq_zeroF maxSmall]
    by_cases zero : maxMag values count = 0
    · rw [if_pos ((maxMag_eq_zero_iff _ _).mpr zero), if_pos (by simpa using zero)]
      exact ⟨some array, rfl⟩
    · have notZero := mt (maxMag_eq_zero_iff values count).mp zero
      have notMax : sqScaleWorkspaceElements count ≠ sizeMax := by
        unfold sizeMax
        omega
      have fits : ¬ sqScaleWorkspaceElements count > sizeMax / 4 := by
        unfold sizeMax
        omega
      have notZeroF : ¬ decide (maxMag values count = 0) = true := by
        simpa using zero
      rw [if_neg notZero, if_neg notZeroF, if_neg notMax, if_neg fits,
        if_neg (Nat.not_lt.mpr capacity), ofF32Bits_maxMag finite,
        elements, countPaddedBits_pow (Nat.zero_le _)]
      have sum : halvesTree
          (sums.scheduler.run
            (blockSumsRegion values count (magF (maxMag values count))
              (fun i => reverseBits i 8) (paddedBits count) sums.team)
            ⟨upTo (2 ^ paddedBits count)
              (fun i array => Function.update array i zeroF) array, 0⟩).cell
          (2 ^ paddedBits count) 0 =
          squareSum values count (magF (maxMag values count)) := by
        refine Tree.foldl_halves (· + ·) _ fun j below => ?_
        rw [blockSumsRegion_cell sums values count _ _ enough _ below]
        simp only [upTo_store, below, if_true, partialLeaf]
        rw [blockSum_eq values count _ (isFinite_magF maxSmall)
          (by rwa [mag_magF maxSmall]) rfl]
      rw [sum]
      split
      · exact ⟨_, rfl⟩
      · exact ⟨_, rfl⟩
  · have nonfinite := (maxMag_ge_nonfiniteBits values count).mpr
      (by simpa using finite)
    rw [if_pos nonfinite, if_neg finite]
    exact ⟨some array, rfl⟩

end

end Stoquant

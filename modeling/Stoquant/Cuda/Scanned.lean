import Stoquant.Cuda.Scan
import Stoquant.Par.Owner
import Stoquant.Quantizer.Magnitude

/-!
# Pairs that stand for values

A pair of words stands for a set of indices: the largest magnitude of the finite values
there, and whether all of them are finite.  Pairs combine as their sets do, so the levels
of a block and the shuffles of a warp leave the pair of all their lanes.
-/

namespace Stoquant

open Ieee Loop Par

/-! ## Pairs of words that stand for sets of indices -/

/-- A local maximum and a local flag that stand for the values at some indices. -/
structure Scanned (value : ℕ → Word) (indices : Set ℕ) (localMax localInvalid : Word) :
    Prop where
  largest : ∃ m < Format.binary32.infMag, localMax = f32Bits (magF m) ∧
    (∀ i ∈ indices, isfinite (ofF32Bits (value i)) = true → (ofF32Bits (value i)).mag ≤ m) ∧
    (m = 0 ∨ ∃ i ∈ indices, isfinite (ofF32Bits (value i)) = true ∧
      (ofF32Bits (value i)).mag = m)
  flag : (localInvalid = 0#32 ∧ ∀ i ∈ indices, isfinite (ofF32Bits (value i)) = true) ∨
    (localInvalid = 1#32 ∧ ∃ i ∈ indices, isfinite (ofF32Bits (value i)) = false)

namespace Scanned

variable {value : ℕ → Word} {s t : Set ℕ} {localMax localInvalid otherMax otherInvalid : Word}

theorem empty : Scanned value ∅ (f32Bits zeroF) 0#32 where
  largest := ⟨0, Format.binary32.infMag_pos, rfl, fun _ none => none.elim, .inl rfl⟩
  flag := .inl ⟨rfl, fun _ none => none.elim⟩

theorem largerMax_magF {m n : ℕ} (mSmall : m < Format.binary32.infMag)
    (nSmall : n < Format.binary32.infMag) :
    largerMax (f32Bits (magF m)) (f32Bits (magF n)) = f32Bits (magF (max m n)) := by
  rw [largerMax, ofF32Bits_f32Bits, ofF32Bits_f32Bits]
  exact (apply_ite f32Bits _ _ _).symm.trans (congrArg f32Bits (magF_max mSmall nSmall))

theorem union (first : Scanned value s localMax localInvalid)
    (second : Scanned value t otherMax otherInvalid) :
    Scanned value (s ∪ t) (largerMax localMax otherMax) (localInvalid ||| otherInvalid) where
  largest := by
    obtain ⟨m, mSmall, rfl, bound, reached⟩ := first.largest
    obtain ⟨n, nSmall, rfl, bound', reached'⟩ := second.largest
    refine ⟨max m n, max_lt mSmall nSmall, largerMax_magF mSmall nSmall, ?_, ?_⟩
    · rintro i (member | member) finite
      · exact (bound i member finite).trans (le_max_left m n)
      · exact (bound' i member finite).trans (le_max_right m n)
    · rcases le_total n m with le | le
      · rw [max_eq_left le]
        rcases reached with zero | ⟨i, member, rest⟩
        · exact .inl zero
        · exact .inr ⟨i, .inl member, rest⟩
      · rw [max_eq_right le]
        rcases reached' with zero | ⟨i, member, rest⟩
        · exact .inl zero
        · exact .inr ⟨i, .inr member, rest⟩
  flag := by
    rcases first.flag with ⟨rfl, finite⟩ | ⟨rfl, i, member, notFinite⟩ <;>
      rcases second.flag with ⟨rfl, finite'⟩ | ⟨rfl, j, member', notFinite'⟩
    · exact .inl ⟨rfl, fun i member => member.elim (finite i) (finite' i)⟩
    · exact .inr ⟨rfl, j, .inr member', notFinite'⟩
    · exact .inr ⟨rfl, i, .inl member, notFinite⟩
    · exact .inr ⟨rfl, i, .inl member, notFinite⟩

theorem absorb (first : Scanned value s localMax localInvalid) (i : ℕ) :
    Scanned value (s ∪ {i}) (absorbMax (value i) localMax localInvalid).1
      (absorbMax (value i) localMax localInvalid).2 := by
  unfold absorbMax
  by_cases finite : isfinite (ofF32Bits (value i)) = true
  · have own : Scanned value {i} (f32Bits (fabsf (ofF32Bits (value i)))) 0#32 := by
      constructor
      · refine ⟨_, Fp.isFinite_iff.mp finite, by rw [fabsf_eq finite], ?_,
        .inr ⟨i, rfl, finite, rfl⟩⟩
        rintro _ rfl _
        exact le_rfl
      · refine .inl ⟨rfl, ?_⟩
        rintro _ rfl
        exact finite
    have both := first.union own
    rw [BitVec.or_zero] at both
    rw [if_neg (by rw [finite]; exact Bool.noConfusion)]
    exact both
  · have notFinite : isfinite (ofF32Bits (value i)) = false := by simpa using finite
    rw [if_pos notFinite]
    constructor
    · obtain ⟨m, small, rfl, bound, reached⟩ := first.largest
      refine ⟨m, small, rfl, ?_, ?_⟩
      · rintro j (member | rfl) finite'
        · exact bound j member finite'
        · exact absurd finite' finite
      · exact reached.imp_right fun ⟨j, member, rest⟩ => ⟨j, .inl member, rest⟩
    · exact .inr ⟨rfl, i, .inr rfl, notFinite⟩

theorem congr (first : Scanned value s localMax localInvalid) {other : ℕ → Word}
    (same : ∀ i, other i = value i) : Scanned other s localMax localInvalid := by
  rw [funext same]
  exact first

end Scanned

/-- The pair for the values before a count tells whether they are finite, and then holds
their largest magnitude. -/
theorem Scanned.whole {value : ℕ → Word} {count : ℕ} {localMax localInvalid : Word}
    (scanned : Scanned value { i | i < count } localMax localInvalid) :
    let values := fun i => ofF32Bits (value i)
    (localInvalid = 0#32 ↔ allFinite values count = true) ∧
      (allFinite values count = true → localMax = f32Bits (magF (maxMag values count))) := by
  dsimp only
  constructor
  · rw [allFinite_iff]
    rcases scanned.flag with ⟨rfl, finite⟩ | ⟨rfl, i, below, notFinite⟩
    · exact ⟨fun _ i below => finite i below, fun _ => rfl⟩
    · constructor
      · exact fun zero => absurd zero (by decide)
      · intro finite
        have both := finite i below
        rw [notFinite] at both
        cases both
  · intro finite
    obtain ⟨m, -, rfl, bound, reached⟩ := scanned.largest
    rw [allFinite_iff] at finite
    have largest : m = maxMag (fun i => ofF32Bits (value i)) count := by
      apply le_antisymm
      · rcases reached with rfl | ⟨i, below, -, rfl⟩
        · exact Nat.zero_le _
        · have each := maxMag_le_iff.mp (le_refl (maxMag (fun i => ofF32Bits (value i)) count))
          exact each i below
      · exact maxMag_le_iff.mpr fun i below => bound i below (finite i below)
    rw [largest]

/-- The input in the memory of the maximum kernels. -/
abbrev inputWords (m : Mem (fun _ : MaxAddr => Word) Empty) (i : ℕ) : Word := m.cell (.value i)

/-- A loop over values continues with the pair for its indices. -/
theorem eval_absorbValues (indices : List ℕ) {s : Set ℕ} {localMax localInvalid : Word}
    (next : Word → Word → MaxTask) (m : Mem (fun _ : MaxAddr => Word) Empty)
    (before : Scanned (inputWords m) s localMax localInvalid) :
    ∃ max invalid,
      (absorbValues indices localMax localInvalid next).eval m = (next max invalid).eval m ∧
      Scanned (inputWords m) (s ∪ { i | i ∈ indices }) max invalid := by
  induction indices generalizing s localMax localInvalid with
  | nil =>
      refine ⟨_, _, rfl, ?_⟩
      simpa using before
  | cons i rest ih =>
      obtain ⟨max, invalid, ran, after⟩ := ih (before.absorb i)
      refine ⟨max, invalid, ran, ?_⟩
      have same : s ∪ {j | j ∈ i :: rest} = s ∪ {i} ∪ {j | j ∈ rest} := by
        ext j
        simp only [Set.mem_union, Set.mem_ofPred_eq, List.mem_cons, Set.mem_singleton_iff, or_assoc]
      rw [same]
      exact after

/-! ## Halving the shared arrays of a block -/

/-- The lane that may write a word in a level of given stride. -/
def levelOwner (block stride : ℕ) : MaxAddr → Option ℕ
  | .blockMax b lane => if b = block ∧ lane < stride then some lane else none
  | .blockInvalid b lane => if b = block ∧ lane < stride then some lane else none
  | _ => none

section

variable (block : ℕ) {stride : ℕ}

theorem levelOwner_own {lane : ℕ} (below : lane < stride) :
    levelOwner block stride (.blockMax block lane) = some lane ∧
      levelOwner block stride (.blockInvalid block lane) = some lane :=
  ⟨if_pos ⟨rfl, below⟩, if_pos ⟨rfl, below⟩⟩

theorem levelOwner_other (block stride lane : ℕ) :
    levelOwner block stride (.blockMax block (lane + stride)) = none ∧
      levelOwner block stride (.blockInvalid block (lane + stride)) = none :=
  ⟨if_neg fun both => absurd both.2 (by omega), if_neg fun both => absurd both.2 (by omega)⟩

/-- What one thread does in a level. -/
abbrev levelThread (block stride lane : ℕ) : MaxTask :=
  .seq
    (.read (.blockMax block (lane + stride)) fun otherMax =>
      .read (.blockMax block lane) fun own =>
        if (ofF32Bits own).lt (ofF32Bits otherMax) then
          .write (.blockMax block lane) otherMax .done
        else .done)
    (.read (.blockInvalid block lane) fun own =>
      .read (.blockInvalid block (lane + stride)) fun other =>
        .write (.blockInvalid block lane) (own ||| other) .done)

theorem levelThread_within {lane : ℕ} (below : lane < stride) :
    (levelThread block stride lane).Within (Task.unowned (levelOwner block stride))
      (Task.owned (levelOwner block stride) lane) := by
  obtain ⟨ownMax, ownInvalid⟩ := levelOwner_own block below
  obtain ⟨otherMax, otherInvalid⟩ := levelOwner_other block stride lane
  constructor
  · refine ⟨.inl otherMax, fun _ => ⟨.inr ownMax, fun _ => ?_⟩⟩
    dsimp only
    split
    · exact ⟨ownMax, trivial⟩
    · trivial
  · exact ⟨.inr ownInvalid, fun _ => ⟨.inl otherInvalid, fun _ => ⟨ownInvalid, trivial⟩⟩⟩

theorem levelThread_raceFree (lane : ℕ) : (levelThread block stride lane).RaceFree := by
  constructor
  · intro _ _
    dsimp only
    split <;> trivial
  · exact fun _ _ => trivial

theorem eval_levelThread (block stride lane : ℕ) (m : Mem (fun _ : MaxAddr => Word) Empty) :
    ((levelThread block stride lane).eval m).cell (.blockMax block lane) =
        largerMax (m.cell (.blockMax block lane)) (m.cell (.blockMax block (lane + stride))) ∧
      ((levelThread block stride lane).eval m).cell (.blockInvalid block lane) =
        m.cell (.blockInvalid block lane) ||| m.cell (.blockInvalid block (lane + stride)) := by
  simp only [Task.eval]
  unfold largerMax
  split
  · simp [Task.eval, Mem.set]
  · simp [Task.eval, Mem.set]

theorem maxLevel_thread (lane : ℕ) :
    (Task.forEach (if lane < stride then [lane] else [])
        fun lane => levelThread block stride lane) =
      if lane < stride then .seq (levelThread block stride lane) .done else .done := by
  split <;> rfl

theorem maxLevel_spec (enough : stride ≤ sqCudaReductionThreads)
    (m : Mem (fun _ : MaxAddr => Word) Empty) :
    (maxLevel block stride).RaceFree ∧
    (∀ lane < stride,
      ((maxLevel block stride).eval m).cell (.blockMax block lane) =
        largerMax (m.cell (.blockMax block lane)) (m.cell (.blockMax block (lane + stride))) ∧
      ((maxLevel block stride).eval m).cell (.blockInvalid block lane) =
        m.cell (.blockInvalid block lane) ||| m.cell (.blockInvalid block (lane + stride))) ∧
    ∀ a, levelOwner block stride a = none →
      ((maxLevel block stride).eval m).cell a = m.cell a := by
  have within : ∀ lane < sqCudaReductionThreads,
      (Task.forEach (if lane < stride then [lane] else [])
        fun lane => levelThread block stride lane).Within
        (Task.unowned (levelOwner block stride)) (Task.owned (levelOwner block stride) lane) := by
    intro lane _
    apply Task.within_forEach
    intro item member
    split at member
    · rename_i below
      obtain rfl := List.mem_singleton.mp member
      exact levelThread_within block below
    · cases member
  refine ⟨?_, ?_, ?_⟩
  · apply Task.raceFree_owned within
    intro lane _
    exact Task.raceFree_forEach fun item _ => levelThread_raceFree block item
  · intro lane below
    obtain ⟨ownMax, ownInvalid⟩ := levelOwner_own block below
    have inTeam := below.trans_le enough
    have alone := eval_levelThread block stride lane m
    unfold maxLevel Task.team
    rw [Task.eval_owned within inTeam ownMax, Task.eval_owned within inTeam ownInvalid,
      maxLevel_thread, if_pos below]
    exact alone
  · intro a other
    apply Task.eval_notOwned within
    intro lane _ own
    exact absurd (other.symm.trans own) (Option.some_ne_none lane).symm

end

/-- The indices of the lanes below a bound. -/
def lanesBelow (bound : ℕ) (indices : ℕ → Set ℕ) : Set ℕ := { i | ∃ lane < bound, i ∈ indices lane }

theorem lanesBelow_one (indices : ℕ → Set ℕ) : lanesBelow (2 ^ 0) indices = indices 0 := by
  ext i
  constructor
  · rintro ⟨lane, below, member⟩
    obtain rfl : lane = 0 := by simpa using below
    exact member
  · exact fun member => ⟨0, by norm_num, member⟩

theorem lanesBelow_halve (k : ℕ) (indices : ℕ → Set ℕ) :
    lanesBelow (2 ^ k) (fun lane => indices lane ∪ indices (lane + 2 ^ k)) =
      lanesBelow (2 ^ (k + 1)) indices := by
  have twice : 2 ^ (k + 1) = 2 ^ k + 2 ^ k := by rw [pow_succ, Nat.mul_two]
  ext i
  constructor
  · rintro ⟨lane, below, member | member⟩
    · exact ⟨lane, by omega, member⟩
    · exact ⟨lane + 2 ^ k, by omega, member⟩
  · rintro ⟨lane, below, member⟩
    by_cases low : lane < 2 ^ k
    · exact ⟨lane, low, .inl member⟩
    · refine ⟨lane - 2 ^ k, by omega, .inr ?_⟩
      rw [Nat.sub_add_cancel (by omega)]
      exact member

section

variable {value : ℕ → Word} {block k : ℕ}

theorem eval_maxLevels (small : 2 ^ k ≤ sqCudaReductionThreads) {indices : ℕ → Set ℕ}
    {m : Mem (fun _ : MaxAddr => Word) Empty}
    (holds : ∀ lane < 2 ^ k, Scanned value (indices lane) (m.cell (.blockMax block lane))
      (m.cell (.blockInvalid block lane))) :
    Scanned value (lanesBelow (2 ^ k) indices)
      (((Task.forEach (halvings (2 ^ k / 2)) fun stride => maxLevel block stride).eval m).cell
        (.blockMax block 0))
      (((Task.forEach (halvings (2 ^ k / 2)) fun stride => maxLevel block stride).eval m).cell
        (.blockInvalid block 0)) := by
  induction k generalizing indices m with
  | zero =>
      rw [halvings_half_one, lanesBelow_one]
      exact holds 0 (by norm_num)
  | succ k ih =>
      have twice : 2 ^ (k + 1) = 2 ^ k + 2 ^ k := by rw [pow_succ, Nat.mul_two]
      obtain ⟨-, level, -⟩ := maxLevel_spec block (show 2 ^ k ≤ sqCudaReductionThreads by omega) m
      rw [halvings_half_pow_succ, ← lanesBelow_halve]
      apply ih (show 2 ^ k ≤ sqCudaReductionThreads by omega)
      intro lane below
      obtain ⟨maxEq, invalidEq⟩ := level lane below
      rw [maxEq, invalidEq]
      exact (holds lane (by omega)).union (holds (lane + 2 ^ k) (by omega))

/-- All levels of a block. -/
theorem eval_allLevels {indices : ℕ → Set ℕ} {m : Mem (fun _ : MaxAddr => Word) Empty}
    (holds : ∀ lane < sqCudaReductionThreads, Scanned value (indices lane)
      (m.cell (.blockMax block lane)) (m.cell (.blockInvalid block lane))) :
    Scanned value (lanesBelow sqCudaReductionThreads indices)
      (((Task.forEach (halvings (sqCudaReductionThreads / 2)) fun stride =>
        maxLevel block stride).eval m).cell (.blockMax block 0))
      (((Task.forEach (halvings (sqCudaReductionThreads / 2)) fun stride =>
        maxLevel block stride).eval m).cell (.blockInvalid block 0)) := by
  have width : sqCudaReductionThreads = 2 ^ 8 := by norm_num [sqCudaReductionThreads]
  rw [width] at holds ⊢
  exact eval_maxLevels width.ge holds

theorem maxLevels_raceFree (block : ℕ) (strides : List ℕ)
    (small : ∀ stride ∈ strides, stride ≤ sqCudaReductionThreads) :
    (Task.forEach strides fun stride => maxLevel block stride).RaceFree :=
  Task.raceFree_forEach fun stride member =>
    (maxLevel_spec block (small stride member) ⟨fun _ => 0#32, 0⟩).1

end

/-! ## Shuffling the lanes of a warp -/

theorem laneMax_injective (warp : ℕ) : Function.Injective2 (MaxAddr.laneMax warp) := by
  intro side side' lane lane' same
  cases same
  exact ⟨rfl, rfl⟩

theorem laneInvalid_injective (warp : ℕ) : Function.Injective2 (MaxAddr.laneInvalid warp) := by
  intro side side' lane lane' same
  cases same
  exact ⟨rfl, rfl⟩

section

variable {value : ℕ → Word} {warp k : ℕ}

theorem shuffleMax_raceFree (warp : ℕ) (offsets : List ℕ) {side : Bool} {next : Bool → MaxTask}
    (free : ∀ side, (next side).RaceFree) : (shuffleMax warp offsets side next).RaceFree := by
  have shares : ∀ offset, ∀ phase ∈ [Task.Phase.shuffle sqCudaWarp offset],
      ∃ width, Shares sqCudaWarp phase.items width := by
    intro offset phase member
    obtain rfl := List.mem_singleton.mp member
    exact ⟨sqCudaWarp, shares_single le_rfl⟩
  induction offsets generalizing side with
  | nil => exact free side
  | cons offset rest ih =>
      apply Task.raceFree_phases _ (laneMax_injective warp) (shares offset)
      intro _
      apply Task.raceFree_phases _ (laneInvalid_injective warp) (shares offset)
      exact fun _ => ih

/-- The shuffles leave the pair of all lanes in the first one. -/
theorem eval_shuffleMax (small : 2 ^ k ≤ sqCudaWarp) {indices : ℕ → Set ℕ} (side : Bool)
    (next : Bool → MaxTask) (m : Mem (fun _ : MaxAddr => Word) Empty)
    (holds : ∀ lane < 2 ^ k, Scanned value (indices lane) (m.cell (.laneMax warp side lane))
      (m.cell (.laneInvalid warp side lane))) :
    ∃ final later, (shuffleMax warp (halvings (2 ^ k / 2)) side next).eval m =
        (next final).eval later ∧
      Scanned value (lanesBelow (2 ^ k) indices) (later.cell (.laneMax warp final 0))
        (later.cell (.laneInvalid warp final 0)) := by
  induction k generalizing indices side m with
  | zero =>
      rw [halvings_half_one, lanesBelow_one]
      exact ⟨side, m, rfl, holds 0 (by norm_num)⟩
  | succ k ih =>
      have twice : 2 ^ (k + 1) = 2 ^ k + 2 ^ k := by rw [pow_succ, Nat.mul_two]
      let shuffle := Task.Phase.shuffle sqCudaWarp (2 ^ k)
      let afterMax := (Task.team sqCudaWarp shuffle.items fun _ =>
        Task.combine largerMax (.laneMax warp) side shuffle.left shuffle.right).eval m
      let afterBoth := (Task.team sqCudaWarp shuffle.items fun _ =>
        Task.combine (· ||| ·) (.laneInvalid warp) side shuffle.left shuffle.right).eval afterMax
      obtain ⟨maxima, frame⟩ : (∀ lane < sqCudaWarp,
          afterMax.cell (.laneMax warp (!side) lane) = _) ∧ _ :=
        Task.eval_combineTeam largerMax (laneMax_injective warp) (shares_single le_rfl) side
          shuffle.left shuffle.right m
      obtain ⟨flags, frame'⟩ : (∀ lane < sqCudaWarp,
          afterBoth.cell (.laneInvalid warp (!side) lane) = _) ∧ _ :=
        Task.eval_combineTeam (· ||| ·) (laneInvalid_injective warp) (shares_single le_rfl) side
          shuffle.left shuffle.right afterMax
      have pairs : ∀ lane < 2 ^ k, Scanned value (indices lane ∪ indices (lane + 2 ^ k))
          (afterBoth.cell (.laneMax warp (!side) lane))
          (afterBoth.cell (.laneInvalid warp (!side) lane)) := by
        intro lane below
        have behind : shuffle.right lane = lane + 2 ^ k := if_pos (by omega)
        have kept : ∀ lane, afterMax.cell (.laneInvalid warp side lane) =
            m.cell (.laneInvalid warp side lane) := fun lane => frame _ fun _ => nofun
        have stays : afterBoth.cell (.laneMax warp (!side) lane) =
            afterMax.cell (.laneMax warp (!side) lane) := frame' _ fun _ => nofun
        rw [stays, maxima lane (by omega), flags lane (by omega), behind, kept, kept]
        exact (holds lane (by omega)).union (holds (lane + 2 ^ k) (by omega))
      rw [halvings_half_pow_succ, ← lanesBelow_halve]
      exact ih (show 2 ^ k ≤ sqCudaWarp by omega) (!side) afterBoth pairs

end

end Stoquant

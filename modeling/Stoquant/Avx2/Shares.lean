import Stoquant.Avx2.Encode
import Stoquant.Ieee.Nearest
import Stoquant.Par.Trace

/-!
# The shares of a team

`unit_range` gives every thread whole units of 256 elements.  In their order the
shares are the elements, each once; so are the payload bytes that the threads
store, also where two codes share a byte.
-/

namespace Stoquant

open Ieee Loop Par

/-! ## The shares in `size_t` arithmetic -/

/-- `split`, in the arithmetic of `size_t`. -/
def splitSizeT (n thread team : ℕ) : ℕ × ℕ :=
  let base := n / team
  let extra := n % team
  let first := (thread * base % 2 ^ 64 + (if thread < extra then thread else extra)) % 2 ^ 64
  (first, ((first + base) % 2 ^ 64 + (if thread < extra then 1 else 0)) % 2 ^ 64)

/-- `unit_range`, in the arithmetic of `size_t`. -/
def unitRangeSizeT (count thread team : ℕ) : ℕ × ℕ :=
  let share := splitSizeT (blockCount count) thread team
  let first := share.1 * sqScaleBlockSize % 2 ^ 64
  let last := share.2 * sqScaleBlockSize % 2 ^ 64
  (first, if last > count then count else last)

/-- The elements of a share, none when it begins at its end or after it. -/
def shareElements (count team thread : ℕ) : List ℕ :=
  let share := unitRange count thread team
  List.range' share.1 (share.2 - share.1)

/-- The units of a share. -/
def shareUnits (count team thread : ℕ) : ℕ :=
  let share := split (blockCount count) thread team
  share.2 - share.1

section

variable {n team thread : ℕ}

theorem splitCut_le (below : thread ≤ team) (pos : 0 < team) : splitCut n team thread ≤ n := by
  have mono := splitCut_mono n team below
  rwa [splitCut_team n pos] at mono

/-- No sum or product of `split` wraps. -/
theorem splitSizeT_eq (pos : 0 < team) (below : thread < team) (fits : n < 2 ^ 64) :
    splitSizeT n thread team = split n thread team := by
  have last : splitCut n team (thread + 1) ≤ n := splitCut_le below pos
  unfold splitCut at last
  rw [Nat.succ_mul] at last
  unfold splitSizeT split
  dsimp only
  generalize thread * (n / team) = product at *
  generalize n / team = base at *
  generalize n % team = extra at *
  have whole : min (thread + 1) extra =
      (if thread < extra then thread else extra) + if thread < extra then 1 else 0 := by
    split_ifs <;> omega
  rw [whole] at last
  generalize (if thread < extra then thread else extra) = skipped at *
  generalize (if thread < extra then 1 else 0) = one at *
  rw [Nat.mod_eq_of_lt (show product < 2 ^ 64 by omega),
    Nat.mod_eq_of_lt (show product + skipped < 2 ^ 64 by omega),
    Nat.mod_eq_of_lt (show product + skipped + base < 2 ^ 64 by omega),
    Nat.mod_eq_of_lt (show product + skipped + base + one < 2 ^ 64 by omega)]

/-- Nothing in `unit_range` wraps. -/
theorem unitRangeSizeT_eq {count : ℕ} (pos : 0 < team) (below : thread < team)
    (fits : blockCount count * sqScaleBlockSize ≤ sizeMax) :
    unitRangeSizeT count thread team = unitRange count thread team := by
  have units : blockCount count < 2 ^ 64 := by
    unfold sqScaleBlockSize sizeMax at fits
    omega
  have first : splitCut (blockCount count) team thread ≤ blockCount count :=
    splitCut_le below.le pos
  have last : splitCut (blockCount count) team (thread + 1) ≤ blockCount count :=
    splitCut_le below pos
  unfold unitRangeSizeT unitRange
  rw [splitSizeT_eq pos below units, split_eq]
  dsimp only
  generalize splitCut (blockCount count) team thread = a at *
  generalize splitCut (blockCount count) team (thread + 1) = b at *
  unfold sqScaleBlockSize sizeMax at *
  rw [Nat.mod_eq_of_lt (show a * 256 < 2 ^ 64 by omega),
    Nat.mod_eq_of_lt (show b * 256 < 2 ^ 64 by omega)]

end

/-! ## The elements -/

/-- Where the elements of a share begin. -/
def elementCut (count team thread : ℕ) : ℕ :=
  min (splitCut (blockCount count) team thread * sqScaleBlockSize) count

theorem elementCut_mono (count team : ℕ) : Monotone (elementCut count team) := by
  intro t u le
  have cuts := splitCut_mono (blockCount count) team le
  exact min_le_min_right count (Nat.mul_le_mul_right _ cuts)

theorem le_blockCount_mul (count : ℕ) : count ≤ blockCount count * sqScaleBlockSize := by
  by_contra above
  exact lt_irrefl _ (lt_blockCount_iff.mpr (not_le.mp above))

theorem elementCut_zero (count team : ℕ) : elementCut count team 0 = 0 := by
  rw [elementCut, splitCut_zero, Nat.zero_mul, Nat.zero_min]

theorem elementCut_team (count : ℕ) {team : ℕ} (pos : 0 < team) :
    elementCut count team team = count := by
  rw [elementCut, splitCut_team _ pos]
  exact min_eq_right (le_blockCount_mul count)

/-- A share is the range between two cuts, also where it begins behind the input. -/
theorem shareElements_eq (count team thread : ℕ) :
    shareElements count team thread = range (elementCut count team) thread := by
  unfold shareElements range elementCut
  rw [unitRange_eq]
  dsimp only
  generalize splitCut (blockCount count) team thread * sqScaleBlockSize = first
  generalize splitCut (blockCount count) team (thread + 1) * sqScaleBlockSize = last
  by_cases inside : first ≤ count
  · rw [min_eq_left inside]
  · have left : min last count - first = 0 := by omega
    have right : min last count - min first count = 0 := by omega
    rw [left, right]
    rfl

theorem flatMap_shareElements (count : ℕ) {team : ℕ} (pos : 0 < team) :
    (List.range team).flatMap (shareElements count team) = List.range count := by
  have shares : shareElements count team = range (elementCut count team) :=
    funext (shareElements_eq count team)
  rw [shares, flatMap_range (elementCut_mono count team), elementCut_zero,
    elementCut_team count pos, Nat.sub_zero, List.range_eq_range']

theorem shareUnits_eq (count team thread : ℕ) :
    shareUnits count team thread =
      blockCount count / team + if thread < blockCount count % team then 1 else 0 := by
  unfold shareUnits split
  dsimp only
  rw [Nat.add_assoc, Nat.add_sub_cancel_left]

/-! ## The payload bytes of 4-bit codes -/

/-- Where the payload bytes of a share begin. -/
def nibbleCut (count team thread : ℕ) : ℕ := (elementCut count team thread + 1) / 2

theorem nibbleCut_mono (count team : ℕ) : Monotone (nibbleCut count team) := by
  intro t u le
  have cuts := elementCut_mono count team le
  unfold nibbleCut
  omega

theorem accesses_packNibbles (codes : ℕ → Byte) (n first : ℕ) :
    (packNibbles codes n first).Accesses ((List.range' first ((n + 1) / 2)).map .store) := by
  unfold packNibbles
  dsimp only
  by_cases odd : n % 2 = 1
  · have half : (n + 1) / 2 = n / 2 + 1 := by omega
    rw [if_pos odd, half, List.range'_1_concat, List.map_append]
    apply Task.Accesses.seq
    · exact Task.accesses_storeRun _ _ _
    · exact Task.accesses_done.write
  · have half : (n + 1) / 2 = n / 2 := by omega
    rw [if_neg odd, half, ← List.append_nil (List.map _ _)]
    apply Task.Accesses.seq
    · exact Task.accesses_storeRun _ _ _
    · exact Task.accesses_done

/-- From an even element on, the units of a share fill consecutive bytes. -/
theorem flatMap_units {first : ℕ} (even : 2 ∣ first) (last : ℕ) :
    (strided first sqScaleBlockSize last).flatMap (fun base =>
      List.range' (base / 2) ((min (last - base) sqScaleBlockSize + 1) / 2)) =
        List.range' (first / 2) ((last - first + 1) / 2) := by
  fun_induction strided first sqScaleBlockSize last with
  | case1 first more ih =>
      obtain ⟨half, rfl⟩ := even
      have next : 2 ∣ 2 * half + sqScaleBlockSize := ⟨half + 128, by
        unfold sqScaleBlockSize
        ring⟩
      rw [List.flatMap_cons, ih next]
      unfold sqScaleBlockSize
      by_cases whole : 256 ≤ last - 2 * half
      · have place : (2 * half + 256) / 2 = 2 * half / 2 + (min (last - 2 * half) 256 + 1) / 2 := by
          omega
        rw [place, List.range'_append_1]
        congr 1
        omega
      · have rest : (last - (2 * half + 256) + 1) / 2 = 0 := by omega
        have size : min (last - 2 * half) 256 = last - 2 * half := by omega
        rw [rest, size]
        simp
  | case2 first stop =>
      have done : (last - first + 1) / 2 = 0 := by
        have pos : 0 < sqScaleBlockSize := by decide
        omega
      rw [done]
      rfl

theorem nibbleCut_zero (count team : ℕ) : nibbleCut count team 0 = 0 := by
  rw [nibbleCut, elementCut_zero]

theorem nibbleCut_team (count : ℕ) {team : ℕ} (pos : 0 < team) :
    nibbleCut count team team = sqPayloadSize sqQ4Bits count := by
  have size : sqPayloadSize sqQ4Bits count = count / 2 + count % 2 := rfl
  rw [nibbleCut, elementCut_team count pos, size]
  omega

section

variable [Arith Format.binary32] (values : ℕ → F32) (count : ℕ) (scale : F32) (s : ℕ)
  (words : ℕ → Word) (team thread : ℕ)

/-- `encode_range` of 4-bit codes, over the share of a thread. -/
def encodeShareQ4 : ArrayTask Byte Empty :=
  let share := unitRange count thread team
  .forEach (strided share.1 sqScaleBlockSize share.2)
    (encodeUnit sqQ4Bits values share.2 scale s words)

theorem accesses_encodeShareQ4 :
    (encodeShareQ4 values count scale s words team thread).Accesses
      ((range (nibbleCut count team) thread).map .store) := by
  have units : ∀ last base,
      (encodeUnit sqQ4Bits values last scale s words base).Accesses
        ((List.range' (base / 2) ((min (last - base) sqScaleBlockSize + 1) / 2)).map
          .store) := by
    intro last base
    have size : min (last - base) sqScaleBlockSize =
        if last - base < sqScaleBlockSize then last - base else sqScaleBlockSize := by
      split_ifs <;> omega
    unfold encodeUnit
    dsimp only
    rw [if_neg sqQ4Bits_ne, ← size]
    exact accesses_packNibbles _ _ _
  have stored : (Task.forEach (strided (unitRange count thread team).1 sqScaleBlockSize
      (unitRange count thread team).2) fun base => _).Accesses _ :=
    Task.accesses_forEach fun base _ => units (unitRange count thread team).2 base
  have even : 2 ∣ (unitRange count thread team).1 := by
    rw [unitRange_eq]
    exact Dvd.dvd.mul_left (by decide) _
  have bytes : List.range' ((unitRange count thread team).1 / 2)
      (((unitRange count thread team).2 - (unitRange count thread team).1 + 1) / 2) =
        range (nibbleCut count team) thread := by
    unfold range nibbleCut elementCut
    rw [unitRange_eq] at even ⊢
    dsimp only at even ⊢
    generalize splitCut (blockCount count) team thread * sqScaleBlockSize = first at *
    generalize splitCut (blockCount count) team (thread + 1) * sqScaleBlockSize = last
    by_cases inside : first ≤ count
    · rw [min_eq_left inside]
      congr 1
      · omega
      · omega
    · have left : (min last count - first + 1) / 2 = 0 := by omega
      have right : (min last count + 1) / 2 - (min first count + 1) / 2 = 0 := by omega
      rw [left, right]
      rfl
  rw [← List.map_flatMap, flatMap_units even, bytes] at stored
  exact stored

end

/-- The shares of `unit_range` partition the elements and, in 4-bit encoding, the bytes
of the payload. -/
theorem unitRange_partition [Arith Format.binary32] (n : ℕ) {team : ℕ} (pos : 0 < team)
    (fits : blockCount n * sqScaleBlockSize ≤ sizeMax) :
    (∀ t < team, unitRangeSizeT n t team = unitRange n t team) ∧
    (List.range team).flatMap (shareElements n team) = List.range n ∧
    (∀ i < n, ∃! t, t < team ∧ i ∈ shareElements n team t) ∧
    (∀ t < team, ∀ u < team, shareUnits n team t ≤ shareUnits n team u + 1) ∧
    (∀ t < team, shareElements n team t ≠ [] →
      sqScaleBlockSize ∣ (unitRange n t team).1) ∧
    (∀ values scale s words, ∃ stores : ℕ → List ℕ,
      (∀ t < team, (encodeShareQ4 values n scale s words team t).Accesses
        ((stores t).map .store)) ∧
      (List.range team).flatMap stores = List.range (sqPayloadSize sqQ4Bits n) ∧
      (∀ a < sqPayloadSize sqQ4Bits n, ∃! t, t < team ∧ a ∈ stores t) ∧
      ∀ t < team, blockCount n ≤ (split (blockCount n) t team).1 → stores t = []) ∧
    ∀ t < team, blockCount n ≤ (split (blockCount n) t team).1 →
      shareElements n team t = [] := by
  have idle : ∀ t < team, blockCount n ≤ (split (blockCount n) t team).1 →
      elementCut n team t = n ∧ elementCut n team (t + 1) = n := by
    intro t below behind
    rw [split_eq] at behind
    have whole := le_blockCount_mul n
    have first := whole.trans (Nat.mul_le_mul_right sqScaleBlockSize behind)
    have later := splitCut_mono (blockCount n) team (Nat.le_succ t)
    refine ⟨min_eq_right first, min_eq_right (first.trans ?_)⟩
    exact Nat.mul_le_mul_right sqScaleBlockSize later
  refine ⟨fun t below => unitRangeSizeT_eq pos below fits, flatMap_shareElements n pos,
    ?_, ?_, ?_, ?_, ?_⟩
  · intro i below
    simp only [shareElements_eq]
    apply existsUnique_range (elementCut_mono n team)
    · rw [elementCut_zero]
      exact Nat.zero_le i
    · rwa [elementCut_team n pos]
  · intro t _ u _
    rw [shareUnits_eq, shareUnits_eq]
    split_ifs <;> omega
  · intro t _ _
    rw [unitRange_eq]
    exact Dvd.intro_left _ rfl
  · intro values scale s words
    refine ⟨range (nibbleCut n team),
      fun t _ => accesses_encodeShareQ4 values n scale s words team t, ?_, ?_, ?_⟩
    · rw [flatMap_range (nibbleCut_mono n team), nibbleCut_zero, nibbleCut_team n pos,
        Nat.sub_zero, List.range_eq_range']
    · intro a below
      apply existsUnique_range (nibbleCut_mono n team)
      · rw [nibbleCut_zero]
        exact Nat.zero_le a
      · rwa [nibbleCut_team n pos]
    · intro t below behind
      obtain ⟨first, last⟩ := idle t below behind
      rw [range, nibbleCut, nibbleCut, first, last, Nat.sub_self]
      rfl
  · intro t below behind
    obtain ⟨first, last⟩ := idle t below behind
    rw [shareElements_eq, range, first, last, Nat.sub_self]
    rfl

/-- Nine hundred elements shared by three threads. -/
theorem unitRange_partition_threeThreads :
    letI := nearestArith Format.binary32
    (List.range 3).flatMap (shareElements 900 3) = List.range 900 ∧
      shareUnits 900 3 0 ≤ shareUnits 900 3 2 + 1 := by
  let _ := nearestArith Format.binary32
  obtain ⟨-, covers, -, balanced, -⟩ :=
    unitRange_partition 900 (show 0 < 3 by decide) (by decide)
  exact ⟨covers, balanced 0 (by decide) 2 (by decide)⟩

end Stoquant

import Stoquant.Native.Agreement

/-!
# Invocation identifiers

`run_invocation.h` over 64-bit words: the range check accepts exactly the runs
whose identifiers fit in 32 bits, and then no identifier wraps, repetitions and
warm-ups never share one, and the printed lists are the expected ones.
-/

namespace Stoquant

/-- `UINT32_MAX` as a 64-bit word. -/
def uint32MaxWord : BitVec 64 := 0xFFFFFFFF#64

/-- `sq_invocation_range_valid` over 64-bit words. -/
def invocationRangeValidWord (tensorId baseInvocationId warmups reps step : BitVec 64) : Bool :=
  if tensorId > uint32MaxWord ∨ baseInvocationId > uint32MaxWord ∨
      warmups > BitVec.allOnes 64 - reps then false
  else
    let totalRuns := warmups + reps
    if totalRuns = 0#64 then false
    else step = 0#64 ∨ totalRuns - 1#64 ≤ (uint32MaxWord - baseInvocationId) / step

/-- `sq_run_invocation_id` over 64-bit words. -/
def runInvocationIdWord (baseInvocationId warmups reps executionIndex step : BitVec 64) :
    BitVec 64 :=
  let offset :=
    if executionIndex < warmups then reps + executionIndex else executionIndex - warmups
  baseInvocationId + offset * step

section

variable {tensorId base warmups reps step : BitVec 64}

/-- The words compute what the unbounded check computes. -/
theorem invocationRangeValidWord_eq (tensorId base warmups reps step : BitVec 64) :
    invocationRangeValidWord tensorId base warmups reps step =
      sqInvocationRangeValid tensorId.toNat base.toNat warmups.toNat reps.toNat step.toNat := by
  have tensorLt := tensorId.isLt
  have baseLt := base.isLt
  have warmupsLt := warmups.isLt
  have repsLt := reps.isLt
  have stepLt := step.isLt
  have maximum : uint32MaxWord.toNat = uint32Max := rfl
  have ones : (BitVec.allOnes 64 - reps).toNat = uint64Max - reps.toNat := by
    have limit : uint64Max = 18446744073709551615 := by norm_num [uint64Max]
    rw [BitVec.toNat_sub, BitVec.toNat_allOnes, limit]
    omega
  unfold invocationRangeValidWord sqInvocationRangeValid
  simp only [gt_iff_lt, BitVec.lt_def, maximum, ones]
  by_cases rejected : uint32Max < tensorId.toNat ∨ uint32Max < base.toNat ∨
      uint64Max - reps.toNat < warmups.toNat
  · rw [if_pos rejected, if_pos rejected]
  · rw [if_neg rejected, if_neg rejected]
    have limit : uint64Max = 18446744073709551615 := by norm_num [uint64Max]
    have total : (warmups + reps).toNat = warmups.toNat + reps.toNat := by
      rw [BitVec.toNat_add, Nat.mod_eq_of_lt]
      omega
    have zero : warmups + reps = 0#64 ↔ warmups.toNat + reps.toNat = 0 := by
      rw [← BitVec.toNat_inj, total]
      rfl
    have stepZero : step = 0#64 ↔ step.toNat = 0 := by
      rw [← BitVec.toNat_inj]
      rfl
    have room : (uint32MaxWord - base).toNat = uint32Max - base.toNat := by
      rw [BitVec.toNat_sub, maximum]
      omega
    simp only [zero, stepZero, BitVec.le_def, BitVec.toNat_udiv, room]
    by_cases none : warmups.toNat + reps.toNat = 0
    · rw [if_pos none, if_pos none]
    · have last : (warmups + reps - 1#64).toNat = warmups.toNat + reps.toNat - 1 := by
        rw [BitVec.toNat_sub, total, BitVec.toNat_ofNat]
        omega
      rw [if_neg none, if_neg none, last]

end

/-- The check is exact over the unbounded integers. -/
theorem sqInvocationRangeValid_iff {tensorId base warmups reps step : ℕ}
    (repsFit : reps ≤ uint64Max) :
    sqInvocationRangeValid tensorId base warmups reps step = true ↔
      1 ≤ warmups + reps ∧ warmups + reps ≤ uint64Max ∧ tensorId ≤ uint32Max ∧
        base + (warmups + reps - 1) * step ≤ uint32Max := by
  unfold sqInvocationRangeValid
  by_cases rejected : tensorId > uint32Max ∨ base > uint32Max ∨ warmups > uint64Max - reps
  · rw [if_pos rejected]
    apply iff_of_false Bool.false_ne_true
    intro exact
    obtain ⟨-, total, tensor, ids⟩ := exact
    have baseFits : base ≤ uint32Max := (Nat.le_add_right _ _).trans ids
    omega
  · rw [if_neg rejected]
    have tensor : tensorId ≤ uint32Max := by omega
    have baseFits : base ≤ uint32Max := by omega
    have total : warmups + reps ≤ uint64Max := by omega
    dsimp only
    by_cases none : warmups + reps = 0
    · rw [if_pos none]
      apply iff_of_false Bool.false_ne_true
      omega
    · have some : 1 ≤ warmups + reps := Nat.one_le_iff_ne_zero.mpr none
      have product : (step = 0 ∨ warmups + reps - 1 ≤ (uint32Max - base) / step) ↔
          base + (warmups + reps - 1) * step ≤ uint32Max := by
        rcases Nat.eq_zero_or_pos step with rfl | positive
        · simp [baseFits]
        · rw [or_iff_right positive.ne', Nat.le_div_iff_mul_le positive]
          omega
      rw [if_neg none, decide_eq_true_iff, product]
      exact ⟨fun ids => ⟨some, total, tensor, ids⟩, fun exact => exact.2.2.2⟩

/-- Where an execution stands among the identifiers: repetitions first. -/
def invocationOffset (warmups reps executionIndex : ℕ) : ℕ :=
  if executionIndex < warmups then reps + executionIndex else executionIndex - warmups

section

variable {tensorId base warmups reps step : ℕ}
  (valid : sqInvocationRangeValid tensorId base warmups reps step = true)
  (repsFit : reps ≤ uint64Max)

include valid repsFit

/-- No identifier of an accepted run wraps. -/
theorem sqRunInvocationId_eq {executionIndex : ℕ} (inside : executionIndex < warmups + reps) :
    sqRunInvocationId base warmups reps executionIndex step =
        base + invocationOffset warmups reps executionIndex * step ∧
      base + invocationOffset warmups reps executionIndex * step ≤ uint32Max := by
  obtain ⟨-, total, -, ids⟩ := (sqInvocationRangeValid_iff repsFit).mp valid
  have limit : uint64Max = 2 ^ 64 - 1 := rfl
  have narrow : uint32Max = 2 ^ 32 - 1 := rfl
  have offset : invocationOffset warmups reps executionIndex ≤ warmups + reps - 1 := by
    unfold invocationOffset
    split
    · omega
    · omega
  have bound : base + invocationOffset warmups reps executionIndex * step ≤ uint32Max :=
    (Nat.add_le_add_left (Nat.mul_le_mul_right _ offset) _).trans ids
  refine ⟨?_, bound⟩
  have wrapped : (if executionIndex < warmups then (reps + executionIndex) % 2 ^ 64
      else executionIndex - warmups) = invocationOffset warmups reps executionIndex := by
    unfold invocationOffset
    split
    · exact Nat.mod_eq_of_lt (by omega)
    · rfl
  unfold sqRunInvocationId
  dsimp only
  rw [wrapped, Nat.mod_eq_of_lt]
  omega

omit valid repsFit in
theorem invocationOffset_perm (warmups reps : ℕ) :
    ((List.range (warmups + reps)).map (invocationOffset warmups reps)).Perm
      (List.range (warmups + reps)) := by
  have first : (List.range warmups).map (invocationOffset warmups reps) =
      List.range' reps warmups := by
    rw [List.range'_eq_map_range]
    apply List.map_congr_left
    intro i member
    rw [invocationOffset, if_pos (List.mem_range.mp member)]
  have second : (List.range' warmups reps).map (invocationOffset warmups reps) =
      List.range reps := by
    rw [List.range'_eq_map_range, List.map_map]
    conv_rhs => rw [← List.map_id (List.range reps)]
    apply List.map_congr_left
    intro i _
    have later : ¬ warmups + i < warmups := by omega
    rw [Function.comp_apply, invocationOffset, if_neg later, Nat.add_sub_cancel_left, id]
  have split : List.range (warmups + reps) = List.range warmups ++ List.range' warmups reps := by
    have joined := @List.range'_append_1 0 warmups reps
    rw [Nat.zero_add] at joined
    rw [List.range_eq_range', List.range_eq_range', joined]
  have whole : List.range reps ++ List.range' reps warmups = List.range (warmups + reps) := by
    rw [List.range_eq_range', List.range_eq_range', Nat.add_comm warmups]
    have joined := @List.range'_append_1 0 reps warmups
    rwa [Nat.zero_add] at joined
  rw [split, List.map_append, first, second]
  exact List.perm_append_comm.trans (List.Perm.of_eq (whole.trans split))

/-- With step one the identifiers of a run are consecutive and never repeat. -/
theorem sqRunInvocationId_perm (stepOne : step = 1) :
    ((List.range (warmups + reps)).map fun execution : ℕ =>
      sqRunInvocationId base warmups reps execution step).Perm
        (List.range' base (warmups + reps)) := by
  have plain : ((List.range (warmups + reps)).map fun execution : ℕ =>
      sqRunInvocationId base warmups reps execution step) =
        ((List.range (warmups + reps)).map (invocationOffset warmups reps)).map (base + ·) := by
    rw [List.map_map]
    apply List.map_congr_left
    intro execution member
    rw [(sqRunInvocationId_eq valid repsFit (List.mem_range.mp member)).1, stepOne,
      Nat.mul_one]
    rfl
  rw [plain, List.range'_eq_map_range]
  exact (invocationOffset_perm warmups reps).map _

end

/-! ## The printed lists -/

theorem printInvocationIds_eq {result : BenchResult} {tensorId : ℕ}
    (valid : sqInvocationRangeValid tensorId result.invocationId result.warmups result.reps
      result.invocationIdStep = true) (repsFit : result.reps ≤ uint64Max)
    {count first : ℕ} (inside : first + count ≤ result.warmups + result.reps) :
    printInvocationIds result count first =
      .arr ((List.range count).map fun i : ℕ =>
        .int ((result.invocationId + invocationOffset result.warmups result.reps (first + i) *
          result.invocationIdStep : ℕ) : ℤ)) := by
  obtain ⟨-, total, -⟩ := (sqInvocationRangeValid_iff repsFit).mp valid
  have limit : uint64Max = 2 ^ 64 - 1 := rfl
  unfold printInvocationIds
  congr 1
  apply List.map_congr_left
  intro i member
  have below := List.mem_range.mp member
  rw [Nat.mod_eq_of_lt (by omega), (sqRunInvocationId_eq valid repsFit (by omega)).1]

/-- The words compute the identifier that the unbounded formula reduces. -/
theorem runInvocationIdWord_toNat (base warmups reps executionIndex step : BitVec 64) :
    (runInvocationIdWord base warmups reps executionIndex step).toNat =
      sqRunInvocationId base.toNat warmups.toNat reps.toNat executionIndex.toNat step.toNat := by
  unfold runInvocationIdWord sqRunInvocationId
  simp only [BitVec.lt_def]
  by_cases warmup : executionIndex.toNat < warmups.toNat
  · rw [if_pos warmup, if_pos warmup, BitVec.toNat_add, BitVec.toNat_mul, BitVec.toNat_add,
      Nat.add_mod_mod]
  · have indexLt := executionIndex.isLt
    have difference : (executionIndex - warmups).toNat =
        executionIndex.toNat - warmups.toNat := by
      rw [BitVec.toNat_sub]
      omega
    rw [if_neg warmup, if_neg warmup, BitVec.toNat_add, BitVec.toNat_mul, difference,
      Nat.add_mod_mod]

/-- What the identifiers of a run are. -/
structure InvocationIds (base warmups reps step : BitVec 64) : Prop where
  /-- Repetition `r` uses `base + r * step`, unwrapped. -/
  repetition : ∀ r < reps.toNat,
    (runInvocationIdWord base warmups reps (warmups + BitVec.ofNat 64 r) step).toNat =
      base.toNat + r * step.toNat
  /-- Warm-up `w` uses `base + (reps + w) * step`, unwrapped. -/
  warmup : ∀ w < warmups.toNat,
    (runInvocationIdWord base warmups reps (BitVec.ofNat 64 w) step).toNat =
      base.toNat + (reps.toNat + w) * step.toNat
  /-- With step one they are `base .. base + total - 1`, each once. -/
  exact : step = 1#64 →
    ((List.range (warmups.toNat + reps.toNat)).map fun execution : ℕ =>
      (runInvocationIdWord base warmups reps (BitVec.ofNat 64 execution) step).toNat).Perm
        (List.range' base.toNat (warmups.toNat + reps.toNat))

theorem invocationIds_of_valid {tensorId base warmups reps step : BitVec 64}
    (valid : invocationRangeValidWord tensorId base warmups reps step = true) :
    InvocationIds base warmups reps step := by
  rw [invocationRangeValidWord_eq] at valid
  have repsLt := reps.isLt
  have limit : uint64Max = 2 ^ 64 - 1 := rfl
  have repsFit : reps.toNat ≤ uint64Max := by omega
  obtain ⟨-, total, -⟩ := (sqInvocationRangeValid_iff repsFit).mp valid
  constructor
  · intro r below
    have index : (warmups + BitVec.ofNat 64 r).toNat = warmups.toNat + r := by
      rw [BitVec.toNat_add, BitVec.toNat_ofNat]
      omega
    have later : ¬ warmups.toNat + r < warmups.toNat := by omega
    rw [runInvocationIdWord_toNat, index,
      (sqRunInvocationId_eq valid repsFit (by omega)).1, invocationOffset, if_neg later,
      Nat.add_sub_cancel_left]
  · intro w below
    have index : (BitVec.ofNat 64 w).toNat = w := by
      rw [BitVec.toNat_ofNat]
      omega
    rw [runInvocationIdWord_toNat, index,
      (sqRunInvocationId_eq valid repsFit (by omega)).1, invocationOffset, if_pos below]
  · intro stepOne
    have one : step.toNat = 1 := by
      rw [stepOne]
      rfl
    have words : ((List.range (warmups.toNat + reps.toNat)).map fun execution : ℕ =>
        (runInvocationIdWord base warmups reps (BitVec.ofNat 64 execution) step).toNat) =
          (List.range (warmups.toNat + reps.toNat)).map fun execution : ℕ =>
            sqRunInvocationId base.toNat warmups.toNat reps.toNat execution step.toNat := by
      apply List.map_congr_left
      intro execution member
      have below := List.mem_range.mp member
      rw [runInvocationIdWord_toNat, BitVec.toNat_ofNat, Nat.mod_eq_of_lt (by omega)]
    rw [words]
    exact sqRunInvocationId_perm valid repsFit one

theorem printInvocationIds_expected {result : BenchResult} {tensorId : ℕ}
    (valid : sqInvocationRangeValid tensorId result.invocationId result.warmups result.reps
      result.invocationIdStep = true) (repsFit : result.reps ≤ uint64Max)
    (baseZero : result.invocationId = 0) {step : ℤ} (stepEq : step = result.invocationIdStep) :
    printInvocationIds result result.reps result.warmups =
        (Expected.ids (expectedIds 0 result.reps step)).toJson ∧
      printInvocationIds result result.warmups 0 =
        (Expected.ids (expectedIds result.reps result.warmups step)).toJson := by
  constructor
  · rw [printInvocationIds_eq valid repsFit (by omega), Expected.toJson, expectedIds,
      Int.toNat_natCast, List.map_map]
    congr 1
    apply List.map_congr_left
    intro i _
    have later : ¬ result.warmups + i < result.warmups := by omega
    rw [invocationOffset, if_neg later, Nat.add_sub_cancel_left, baseZero, stepEq,
      Function.comp_apply]
    push_cast
    rw [zero_add, zero_add]
  · rw [printInvocationIds_eq valid repsFit (by omega), Expected.toJson, expectedIds,
      Int.toNat_natCast, List.map_map]
    congr 1
    apply List.map_congr_left
    intro i member
    have below := List.mem_range.mp member
    rw [Nat.zero_add, invocationOffset, if_pos below, baseZero, stepEq, Function.comp_apply]
    push_cast
    rw [zero_add]

/-- What the driver expects under a key. -/
def expectedEntry (request : BenchRequest) (boundary policy : String) (blockSize gridSize : ℤ)
    (threads : List (String × Expected)) (field : String) : Option Expected :=
  Dict.get? (expectedEntries request boundary policy blockSize gridSize threads) field

/-- The range check is exact over the unbounded integers for all 64-bit arguments;
an accepted run has the identifiers that its base, step and counts give, unwrapped,
and from base zero it prints the lists that the driver expects. -/
theorem sqInvocationRangeValid_exact (tensorId base warmups reps step : BitVec 64) :
    (invocationRangeValidWord tensorId base warmups reps step = true ↔
      1 ≤ warmups.toNat + reps.toNat ∧ warmups.toNat + reps.toNat < 2 ^ 64 ∧
        tensorId.toNat ≤ uint32Max ∧
        base.toNat + (warmups.toNat + reps.toNat - 1) * step.toNat ≤ uint32Max) ∧
    (invocationRangeValidWord tensorId base warmups reps step = true →
      InvocationIds base warmups reps step) ∧
    (invocationRangeValidWord tensorId base warmups reps step = true → base = 0#64 →
      ∀ (legality : SqLegality) (result : BenchResult) (request : BenchRequest)
        (policy : String) (blockSize gridSize : ℤ) (threads : List (String × Expected)),
        legality ∈ legalityTable → step.toNat = legality.idStep →
        result.invocationIdStep = step.toNat → result.invocationId = base.toNat →
        result.warmups = warmups.toNat → result.reps = reps.toNat →
        request.warmups = warmups.toNat → request.reps = reps.toNat →
        some (printInvocationIds result result.reps result.warmups) =
          (expectedEntry request legality.name policy blockSize gridSize threads
            "repetition_invocation_ids").map Expected.toJson ∧
        some (printInvocationIds result result.warmups 0) =
          (expectedEntry request legality.name policy blockSize gridSize threads
            "warmup_invocation_ids").map Expected.toJson) := by
  have repsLt := reps.isLt
  have limit : uint64Max = 2 ^ 64 - 1 := rfl
  have repsFit : reps.toNat ≤ uint64Max := by omega
  refine ⟨?_, invocationIds_of_valid, ?_⟩
  · rw [invocationRangeValidWord_eq, sqInvocationRangeValid_iff repsFit]
    have representable : warmups.toNat + reps.toNat ≤ uint64Max ↔
        warmups.toNat + reps.toNat < 2 ^ 64 := by omega
    rw [representable]
  · intro valid baseZero legality result request policy blockSize gridSize threads row idStep
      resultStep resultBase resultWarmups resultReps requestWarmups requestReps
    obtain ⟨-, -, -, stepEq, -⟩ := row_facts row
    rw [invocationRangeValidWord_eq, ← resultBase, ← resultWarmups, ← resultReps,
      ← resultStep] at valid
    have zero : result.invocationId = 0 := by
      rw [resultBase, baseZero]
      rfl
    have expectedStep : (if legality.name = "resident-graph" then 0 else 1 : ℤ) =
        result.invocationIdStep := by
      rw [resultStep, idStep, stepEq]
      split
      · rfl
      · rfl
    obtain ⟨repetitions, warmupList⟩ := printInvocationIds_expected valid
      (by rw [resultReps]; exact repsFit) zero expectedStep
    have requestRepsEq : request.reps = result.reps := by rw [requestReps, resultReps]
    have requestWarmupsEq : request.warmups = result.warmups := by
      rw [requestWarmups, resultWarmups]
    constructor
    · rw [repetitions, ← requestRepsEq]
      rfl
    · rw [warmupList, ← requestRepsEq, ← requestWarmupsEq]
      rfl

end Stoquant

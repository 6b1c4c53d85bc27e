import Stoquant.Cuda.Launch
import Stoquant.Par.Phases
import Stoquant.Quantizer.Encode

/-!
# The rounding and packing kernels

The rounding kernel gives a Philox group to each thread and stores a code for every
finite value; it raises flags for what `sq_cuda_compress` checks before it packs.
-/

namespace Stoquant

open Ieee Par

/-- The device memory of K2 and K3. -/
inductive CodeAddr where
  | value (i : ℕ)
  | word (i : ℕ)
  | code (i : ℕ)
  | payload (i : ℕ)
  deriving DecidableEq

/-- The types of the cells. -/
abbrev CodeAddr.Val : CodeAddr → Type
  | .value _ => F32
  | .word _ => Word
  | .code _ => Byte
  | .payload _ => Byte

/-- The bits of `validation_flags`. -/
inductive ValidationFlag where
  | nonfinite
  | anyNonzero
  | badZeroScale
  deriving DecidableEq, Repr

/-- Tasks of K2 and K3; the flags are absorbed by `atomicOr`. -/
abbrev CodeTask := Task CodeAddr.Val ValidationFlag

/-- `SQ_PHILOX_GROUP_WORD`. -/
def sqPhiloxGroupWord (group lane : ℕ) : ℕ := group * sqPhiloxWordsPerGroup + lane

/-- The lanes of a group that are in the input. -/
abbrev groupLanes (group count : ℕ) : List ℕ :=
  (List.range sqPhiloxWordsPerGroup).takeWhile fun lane => sqPhiloxGroupWord group lane < count

/-- `if (raised) atomicOr(validation_flags, flag)`. -/
def raiseIf (raised : Bool) (flag : ValidationFlag) (next : CodeTask) : CodeTask :=
  if raised then .atomic flag next else next

section

variable [Arith Format.binary32] (bitWidth count : ℕ) (scale : F32) (prescribedWords : Bool)
  (stream : SqRngStream)

/-- One element of `round_kernel`. -/
def roundElement (group index : ℕ) : CodeTask :=
  let s := signedLimit bitWidth
  .read (.value index) fun value : F32 =>
    if isfinite value = false then .atomic .nonfinite .done
    else
      raiseIf (!value.eq zeroF) .anyNonzero
        (if scale.eq zeroF then
          raiseIf (!value.eq zeroF) .badZeroScale
            (.write (.code index) (BitVec.ofNat 8 s) .done)
        else if prescribedWords then
          .read (.word index) fun word : Word =>
            .write (.code index) (BitVec.ofInt 8 (signedCode s scale value word + s)) .done
        else
          .write (.code index)
            (BitVec.ofInt 8 (signedCode s scale value
              ((philoxBlock stream group).lane (index % sqPhiloxWordsPerGroup)) + s)) .done)

/-- The group of a thread of `round_kernel`: its lanes up to the end of the input. -/
abbrev roundGroup (group : ℕ) : CodeTask :=
  .forEach (groupLanes group count) fun lane =>
    roundElement bitWidth scale prescribedWords stream group (sqPhiloxGroupWord group lane)

/-- `round_kernel`. -/
def roundKernel (grid blockSize : ℕ) : CodeTask :=
  let groupCount := ceilDiv count sqPhiloxWordsPerGroup
  let stride := grid * blockSize
  .team (grid * blockSize) (fun thread => strided thread stride groupCount)
    fun _ => roundGroup bitWidth count scale prescribedWords stream

/-- A byte of `pack_q8_kernel`. -/
def packQ8Byte (index : ℕ) : CodeTask :=
  .read (.code index) fun code : Byte => .write (.payload index) code .done

/-- `pack_q8_kernel`. -/
def packQ8Kernel (grid blockSize : ℕ) : CodeTask :=
  .team (grid * blockSize) (fun thread => strided thread (grid * blockSize) count)
    fun _ => packQ8Byte

/-- A byte of `pack_q4_kernel`. -/
def packQ4Byte (byteIndex : ℕ) : CodeTask :=
  let idx0 := byteIndex * 2
  let idx1 := idx0 + 1
  .read (.code idx0) fun low : Byte =>
    if idx1 < count then
      .read (.code idx1) fun high : Byte =>
        .write (.payload byteIndex) ((low &&& 0x0F#8) ||| (high &&& 0x0F#8) <<< 4) .done
    else .write (.payload byteIndex) ((low &&& 0x0F#8) ||| 0#8 <<< 4) .done

/-- `pack_q4_kernel`. -/
def packQ4Kernel (grid blockSize outputBytes : ℕ) : CodeTask :=
  .team (grid * blockSize) (fun thread => strided thread (grid * blockSize) outputBytes)
    fun _ => packQ4Byte count

/-- A byte of the payload. -/
def packByte : ℕ → CodeTask := if bitWidth = sqQ4Bits then packQ4Byte count else packQ8Byte

/-- The kernel that `sq_cuda_launch_k3` launches. -/
def packKernel (grid blockSize : ℕ) : CodeTask :=
  if bitWidth = sqQ4Bits then
    packQ4Kernel count grid blockSize (sqPayloadSize bitWidth count)
  else packQ8Kernel count grid blockSize

/-- What `sq_cuda_compress` makes of the flags after K2. -/
def compressCheck (flags : Multiset ValidationFlag) : SqStatus :=
  if .nonfinite ∈ flags then .errNonfinite
  else if (scale.eq zeroF = true ∧ .anyNonzero ∈ flags) ∨
      (scale.eq zeroF = false ∧ .anyNonzero ∉ flags) ∨ .badZeroScale ∈ flags then .errScale
  else .ok

/-- `sq_cuda_launch_k2`: the kernel it launches if its pointers are present, none for an
empty input. -/
def sqCudaLaunchK2 (present : Bool) (blockSize gridSize : ℤ) :
    Except CudaError (Option CodeTask) :=
  if bitWidth ≠ sqQ4Bits ∧ bitWidth ≠ sqQ8Bits then .error .invalidValue
  else if count = 0 then .ok none
  else if validLaunchGeometry blockSize gridSize = false then .error .invalidValue
  else
    let grid := launchGrid (ceilDiv count sqPhiloxWordsPerGroup) blockSize gridSize
    if present = false ∨ grid = 0 then .error .invalidValue
    else
      .ok (some (roundKernel bitWidth count scale prescribedWords stream grid
        blockSize.toNat))

/-- `sq_cuda_launch_k3`. -/
def sqCudaLaunchK3 (present : Bool) (blockSize gridSize : ℤ) :
    Except CudaError (Option CodeTask) :=
  if bitWidth ≠ sqQ4Bits ∧ bitWidth ≠ sqQ8Bits then .error .invalidValue
  else if count = 0 then .ok none
  else if validLaunchGeometry blockSize gridSize = false then .error .invalidValue
  else
    let outputBytes := sqPayloadSize bitWidth count
    let grid := launchGrid outputBytes blockSize gridSize
    if present = false ∨ grid = 0 then .error .invalidValue
    else .ok (some (packKernel bitWidth count grid blockSize.toNat))

/-- The word of an element: prescribed, or that of its group. -/
def roundWord (m : Mem CodeAddr.Val ValidationFlag) (i : ℕ) : Word :=
  if prescribedWords then m.cell (.word i) else streamWord stream i

end

/-! ## One element -/

/-- The cells that K2 reads and never writes. -/
def roundInputs : Set CodeAddr := { a | (∃ i, a = .value i) ∨ ∃ i, a = .word i }

/-- The codes of a group. -/
def groupCodes (group : ℕ) : Set CodeAddr :=
  { a | ∃ i, a = .code i ∧ i / sqPhiloxWordsPerGroup = group }

/-- The flags of an element. -/
def elementFlags [Arith Format.binary32] (scale value : F32) : Multiset ValidationFlag :=
  if isfinite value = false then {.nonfinite}
  else if value.eq zeroF then 0
  else if scale.eq zeroF then {.badZeroScale, .anyNonzero}
  else {.anyNonzero}

section

variable {reads writes : Set CodeAddr} {raised : Bool} {flag : ValidationFlag} {next : CodeTask}

theorem within_raiseIf (within : next.Within reads writes) :
    (raiseIf raised flag next).Within reads writes := by
  cases raised
  · exact within
  · exact within

theorem raceFree_raiseIf (free : next.RaceFree) : (raiseIf raised flag next).RaceFree := by
  cases raised
  · exact free
  · exact free

theorem eval_raiseIf_cell (m : Mem CodeAddr.Val ValidationFlag) :
    ((raiseIf raised flag next).eval m).cell =
      (next.eval (if raised then m.absorb flag else m)).cell := by
  cases raised
  · rfl
  · rfl

end

theorem groupWord_lane {lane : ℕ} (group : ℕ) (small : lane < sqPhiloxWordsPerGroup) :
    sqPhiloxGroupWord group lane / sqPhiloxWordsPerGroup = group ∧
      sqPhiloxGroupWord group lane % sqPhiloxWordsPerGroup = lane := by
  unfold sqPhiloxGroupWord sqPhiloxWordsPerGroup at *
  omega

section

variable [Arith Format.binary32] {bitWidth count : ℕ} {scale : F32} {prescribedWords : Bool}
  {stream : SqRngStream}

theorem roundElement_within (group index : ℕ) :
    (roundElement bitWidth scale prescribedWords stream group index).Within roundInputs
      {.code index} := by
  refine ⟨.inl (.inl ⟨_, rfl⟩), ?_⟩
  intro value
  dsimp only
  split_ifs
  · trivial
  · exact within_raiseIf (within_raiseIf ⟨rfl, trivial⟩)
  · exact within_raiseIf ⟨.inl (.inr ⟨_, rfl⟩), fun _ => ⟨rfl, trivial⟩⟩
  · exact within_raiseIf ⟨rfl, trivial⟩

theorem roundElement_raceFree (group index : ℕ) :
    (roundElement bitWidth scale prescribedWords stream group index).RaceFree := by
  intro value
  dsimp only
  split_ifs
  · trivial
  · exact raceFree_raiseIf (raceFree_raiseIf trivial)
  · exact raceFree_raiseIf fun _ => trivial
  · exact raceFree_raiseIf trivial

theorem roundElement_cell {group index : ℕ} (inGroup : index / sqPhiloxWordsPerGroup = group)
    (m : Mem CodeAddr.Val ValidationFlag)
    (finite : isfinite (m.cell (.value index) : F32) = true) :
    ((roundElement bitWidth scale prescribedWords stream group index).eval m).cell
        (.code index) =
      elementCode (signedLimit bitWidth) scale (m.cell (.value index))
        (roundWord prescribedWords stream m index) := by
  subst inGroup
  have absorbed : ∀ raised flag, (if raised = true then m.absorb flag else m).cell = m.cell := by
    intro raised flag
    split <;> rfl
  have notNonfinite : ¬ isfinite (m.cell (.value index) : F32) = false := by
    rw [finite]
    exact Bool.noConfusion
  unfold roundElement elementCode roundWord
  dsimp only
  rw [Task.eval, if_neg notNonfinite, eval_raiseIf_cell]
  by_cases zero : scale.eq zeroF = true
  · rw [if_pos zero, if_pos zero, eval_raiseIf_cell]
    exact Function.update_self ..
  · rw [if_neg zero, if_neg zero]
    cases prescribedWords with
    | true =>
        rw [if_pos rfl, if_pos rfl, Task.eval, absorbed]
        exact Function.update_self ..
    | false =>
        simp only [Bool.false_eq_true, if_false]
        exact Function.update_self ..

/-- The flags that an element raises. -/
theorem roundElement_events (group index : ℕ) (m : Mem CodeAddr.Val ValidationFlag) :
    (roundElement bitWidth scale prescribedWords stream group index).events m =
      elementFlags scale (m.cell (.value index)) := by
  unfold Task.events roundElement elementFlags
  dsimp only
  rw [Task.eval]
  dsimp only
  by_cases nonfinite : isfinite (m.cell (.value index) : F32) = false
  · rw [if_pos nonfinite, if_pos nonfinite]
    rfl
  rw [if_neg nonfinite, if_neg nonfinite]
  by_cases scaleZero : scale.eq zeroF = true
  · rw [if_pos scaleZero, if_pos scaleZero]
    cases Fp.eq (m.cell (.value index) : F32) zeroF <;> rfl
  · rw [if_neg scaleZero, if_neg scaleZero]
    cases Fp.eq (m.cell (.value index) : F32) zeroF <;> cases prescribedWords <;> rfl

end

/-! ## Groups -/

/-- A loop that breaks at the first index without a property that only fails from some
index on. -/
theorem mem_takeWhile_range' {p : ℕ → Bool} (down : ∀ i j, i ≤ j → p j = true → p i = true)
    {first n k : ℕ} :
    k ∈ (List.range' first n).takeWhile p ↔ first ≤ k ∧ k < first + n ∧ p k = true := by
  induction n generalizing first with
  | zero =>
      simp only [List.range'_zero, List.takeWhile_nil, List.not_mem_nil, Nat.add_zero, false_iff]
      omega
  | succ n ih =>
      rw [List.range'_succ, List.takeWhile_cons]
      by_cases here : p first = true
      · rw [if_pos here, List.mem_cons, ih]
        constructor
        · rintro (rfl | ⟨le, lt, holds⟩)
          · exact ⟨le_rfl, by omega, here⟩
          · exact ⟨by omega, by omega, holds⟩
        · rintro ⟨le, lt, holds⟩
          by_cases same : k = first
          · exact .inl same
          · exact .inr ⟨by omega, by omega, holds⟩
      · rw [if_neg here]
        simp only [List.not_mem_nil, false_iff]
        rintro ⟨le, -, holds⟩
        exact here (down first k le holds)

theorem mem_groupLanes {group count lane : ℕ} :
    lane ∈ groupLanes group count ↔
      lane < sqPhiloxWordsPerGroup ∧ sqPhiloxGroupWord group lane < count := by
  have down : ∀ i j, i ≤ j → decide (sqPhiloxGroupWord group j < count) = true →
      decide (sqPhiloxGroupWord group i < count) = true := by
    intro i j le holds
    rw [decide_eq_true_iff] at holds ⊢
    unfold sqPhiloxGroupWord at *
    omega
  rw [groupLanes, List.range_eq_range', mem_takeWhile_range' down, decide_eq_true_iff]
  simp

theorem groupLanes_nodup (group count : ℕ) : (groupLanes group count).Nodup :=
  List.nodup_range.sublist (List.takeWhile_sublist _)

section

variable [Arith Format.binary32] {bitWidth count : ℕ} {scale : F32} {prescribedWords : Bool}
  {stream : SqRngStream}

theorem roundGroup_within (group : ℕ) :
    (roundGroup bitWidth count scale prescribedWords stream group).Within roundInputs
      (groupCodes group) := by
  apply Task.within_forEach
  intro lane member
  refine (roundElement_within group _).mono (Set.Subset.refl _) ?_
  rintro _ rfl
  exact ⟨_, rfl, (groupWord_lane group (mem_groupLanes.mp member).1).1⟩

theorem roundTeam {threads : ℕ} (pos : 0 < threads) (groupCount : ℕ) :
    Task.Team threads (fun thread => strided thread threads groupCount)
      (fun _ => roundGroup bitWidth count scale prescribedWords stream) roundInputs groupCodes
      fun _ => ∅ where
  nodup := (shares_strided pos groupCount).nodup
  disjoint := (shares_strided pos groupCount).disjoint
  within := fun _ _ group _ =>
    (roundGroup_within group).mono (Set.Subset.refl _) Set.subset_union_left
  free := fun _ _ group _ => Task.raceFree_forEach fun _ _ => roundElement_raceFree group _
  inputs_kept := by
    rintro _ (⟨i, rfl⟩ | ⟨i, rfl⟩)
    · exact ⟨fun _ => by rintro ⟨_, ⟨⟩, _⟩, fun _ => id⟩
    · exact ⟨fun _ => by rintro ⟨_, ⟨⟩, _⟩, fun _ => id⟩
  outputs_apart := by
    rintro group other different _ ⟨i, rfl, same⟩ ⟨_, ⟨⟩, same'⟩
    exact different (same.symm.trans same')
  scratch_apart := fun _ _ _ _ none => none.elim
  scratch_private := fun _ _ _ _ none => none

theorem lanes_within (group : ℕ) : ∀ lane ∈ groupLanes group count,
    (roundElement bitWidth scale prescribedWords stream group
      (sqPhiloxGroupWord group lane)).Within roundInputs
      {.code (sqPhiloxGroupWord group lane)} :=
  fun _ _ => roundElement_within group _

omit [Arith Format.binary32] in
theorem lanes_separated (group : ℕ) : Task.Separated (fun _ : ℕ => roundInputs)
    fun lane => {CodeAddr.code (sqPhiloxGroupWord group lane)} := by
  rintro a b different _ rfl
  refine ⟨by rintro (⟨_, ⟨⟩⟩ | ⟨_, ⟨⟩⟩), ?_⟩
  intro same
  have indices := CodeAddr.code.inj same
  unfold sqPhiloxGroupWord at indices
  omega

theorem roundGroup_cell {i : ℕ} (inside : i < count) (m : Mem CodeAddr.Val ValidationFlag)
    (finite : isfinite (m.cell (.value i) : F32) = true) :
    ((roundGroup bitWidth count scale prescribedWords stream
        (i / sqPhiloxWordsPerGroup)).eval m).cell (.code i) =
      elementCode (signedLimit bitWidth) scale (m.cell (.value i))
        (roundWord prescribedWords stream m i) := by
  let group := i / sqPhiloxWordsPerGroup
  let lane := i % sqPhiloxWordsPerGroup
  have recompose : sqPhiloxGroupWord group lane = i := Nat.div_add_mod' i sqPhiloxWordsPerGroup
  have member : lane ∈ groupLanes group count :=
    mem_groupLanes.mpr ⟨Nat.mod_lt i (by decide), by rw [recompose]; exact inside⟩
  have own : CodeAddr.code i ∈
      ({.code (sqPhiloxGroupWord group lane)} : Set CodeAddr) := by
    rw [recompose]
    rfl
  rw [roundGroup, Task.eval_forEach]
  refine (Task.foldl_cell (lanes_within group) (lanes_separated group)
    (groupLanes_nodup group count) member own m).trans ?_
  rw [recompose]
  exact roundElement_cell rfl m finite

/-- The flags that a group raises are those of its elements. -/
theorem roundGroup_events (group : ℕ) (m : Mem CodeAddr.Val ValidationFlag) :
    (roundGroup bitWidth count scale prescribedWords stream group).events m =
      ((groupLanes group count).map fun lane =>
        elementFlags scale (m.cell (.value (sqPhiloxGroupWord group lane)))).sum := by
  rw [Task.events, Task.eval_forEach, Task.foldl_log (lanes_within group)
    (lanes_separated group) (groupLanes_nodup group count), add_zero]
  congr 1
  apply List.map_congr_left
  intro lane _
  exact roundElement_events group _ _

section

variable {grid blockSize : ℕ} (pos : 0 < grid * blockSize)
  {m later : Mem CodeAddr.Val ValidationFlag}
  (ran : Task.Steps (roundKernel bitWidth count scale prescribedWords stream grid blockSize) m
    .done later)

include pos ran

theorem roundKernel_eval :
    later = (roundKernel bitWidth count scale prescribedWords stream grid blockSize).eval m :=
  ran.eval_eq (roundTeam pos _).raceFree

/-- After the rounding kernel every finite element has its code, and the inputs are as
before. -/
theorem roundKernel_code {i : ℕ} (inside : i < count)
    (finite : isfinite (m.cell (.value i) : F32) = true) :
    later.cell (.code i) =
      elementCode (signedLimit bitWidth) scale (m.cell (.value i))
        (roundWord prescribedWords stream m i) := by
  have groupInside : i / sqPhiloxWordsPerGroup < ceilDiv count sqPhiloxWordsPerGroup := by
    rw [lt_ceilDiv_iff (by decide)]
    exact (Nat.div_mul_le_self _ _).trans_lt inside
  obtain ⟨thread, below, member⟩ := ((shares_strided pos _).cover _).mp groupInside
  rw [roundKernel_eval pos ran]
  apply (roundTeam pos _).cell below member ⟨i, rfl, rfl⟩
  intro k agree
  have sameValue : k.cell (.value i) = m.cell (.value i) := agree _ (.inl ⟨i, rfl⟩)
  have sameWord : roundWord prescribedWords stream k i = roundWord prescribedWords stream m i := by
    unfold roundWord
    rw [agree (.word i) (.inr ⟨i, rfl⟩)]
  rw [roundGroup_cell inside k (by rw [sameValue]; exact finite), sameValue, sameWord]

/-- It raises the flags of the elements. -/
theorem roundKernel_flags (clear : m.log = 0) {flag : ValidationFlag} :
    flag ∈ later.log ↔ ∃ i < count, flag ∈ elementFlags scale (m.cell (.value i)) := by
  let flags : ℕ → ℕ → Multiset ValidationFlag := fun _ group =>
    (roundGroup bitWidth count scale prescribedWords stream group).events m
  have absorbs : ∀ thread < grid * blockSize,
      ∀ group ∈ strided thread (grid * blockSize) (ceilDiv count sqPhiloxWordsPerGroup),
      ∀ k : Mem CodeAddr.Val ValidationFlag, (∀ a ∈ roundInputs, k.cell a = m.cell a) →
      (roundGroup bitWidth count scale prescribedWords stream group).events k =
        flags thread group := by
    intro thread _ group _ k agree
    have values : ∀ i, k.cell (.value i) = m.cell (.value i) := fun i => agree _ (.inl ⟨i, rfl⟩)
    simp only [flags, roundGroup_events, values]
  rw [roundKernel_eval pos ran]
  refine ((roundTeam pos _).mem_log absorbs).trans ?_
  rw [clear]
  simp only [flags, roundGroup_events, Task.Team.mem_sum, Multiset.notMem_zero, or_false]
  constructor
  · rintro ⟨thread, _, group, _, lane, member, raised⟩
    exact ⟨_, (mem_groupLanes.mp member).2, raised⟩
  · rintro ⟨i, inside, raised⟩
    have groupInside : i / sqPhiloxWordsPerGroup < ceilDiv count sqPhiloxWordsPerGroup := by
      rw [lt_ceilDiv_iff (by decide)]
      exact (Nat.div_mul_le_self _ _).trans_lt inside
    obtain ⟨thread, below, member⟩ := ((shares_strided pos _).cover _).mp groupInside
    have recompose : sqPhiloxGroupWord (i / sqPhiloxWordsPerGroup) (i % sqPhiloxWordsPerGroup) =
        i := Nat.div_add_mod' i sqPhiloxWordsPerGroup
    refine ⟨thread, below, _, member, i % sqPhiloxWordsPerGroup,
      mem_groupLanes.mpr ⟨Nat.mod_lt i (by decide), ?_⟩, ?_⟩
    · rw [recompose]
      exact inside
    · rw [recompose]
      exact raised

/-- Without the flag of values that are not finite all are finite. -/
theorem roundKernel_finite (clear : m.log = 0) (quiet : .nonfinite ∉ later.log) {i : ℕ}
    (inside : i < count) : isfinite (m.cell (.value i) : F32) = true := by
  by_contra notFinite
  apply quiet
  rw [roundKernel_flags pos ran clear]
  refine ⟨i, inside, ?_⟩
  rw [elementFlags, if_pos (by simpa using notFinite)]
  exact Multiset.mem_singleton_self _

end

end

/-! ## Packing -/

section

variable {bitWidth count grid blockSize : ℕ} (pos : 0 < grid * blockSize)
  {m later : Mem CodeAddr.Val ValidationFlag}

include pos

theorem packQ8Kernel_spec (m : Mem CodeAddr.Val ValidationFlag) :
    (packQ8Kernel count grid blockSize).RaceFree ∧
    ∀ k < count, ((packQ8Kernel count grid blockSize).eval m).cell (.payload k) =
      m.cell (.code k) := by
  have shares := shares_strided pos count
  have injective : Function.Injective CodeAddr.payload := fun _ _ => CodeAddr.payload.inj
  have apart : ∀ k, CodeAddr.payload k ∉ Set.range CodeAddr.code := by
    rintro k ⟨_, ⟨⟩⟩
  refine Task.ownTeam_spec shares injective apart ?_ ?_ ?_
  · exact fun k => ⟨.inl ⟨k, rfl⟩, fun _ => ⟨rfl, trivial⟩⟩
  · exact fun _ _ => trivial
  · intro k _ later agree
    rw [← agree _ ⟨k, rfl⟩]
    exact Function.update_self ..

theorem packQ4Kernel_spec (outputBytes : ℕ) (m : Mem CodeAddr.Val ValidationFlag) :
    (packQ4Kernel count grid blockSize outputBytes).RaceFree ∧
    ∀ k < outputBytes,
      ((packQ4Kernel count grid blockSize outputBytes).eval m).cell (.payload k) =
        payloadByte sqQ4Bits count (fun i => m.cell (.code i)) k := by
  have shares := shares_strided pos outputBytes
  have injective : Function.Injective CodeAddr.payload := fun _ _ => CodeAddr.payload.inj
  have apart : ∀ k, CodeAddr.payload k ∉ Set.range CodeAddr.code := by
    rintro k ⟨_, ⟨⟩⟩
  refine Task.ownTeam_spec shares injective apart ?_ ?_ ?_
  · intro k
    refine ⟨.inl ⟨_, rfl⟩, fun _ => ?_⟩
    dsimp only
    split
    · exact ⟨.inl ⟨_, rfl⟩, fun _ => ⟨rfl, trivial⟩⟩
    · exact ⟨rfl, trivial⟩
  · intro k _
    dsimp only
    split
    · exact fun _ => trivial
    · trivial
  · intro k _ later agree
    have codes : ∀ i, later.cell (.code i) = m.cell (.code i) := fun i => agree _ ⟨i, rfl⟩
    have twice : k * 2 = 2 * k := Nat.mul_comm k 2
    unfold packQ4Byte
    dsimp only
    rw [payloadByte, if_neg (by decide), Task.eval, twice]
    split_ifs
    · rw [Task.eval, ← codes, ← codes]
      exact Function.update_self ..
    · rw [← codes]
      exact Function.update_self ..

/-- The packing kernel stores the payload of the codes. -/
theorem packKernel_payload (supported : Supported bitWidth)
    (ran : Task.Steps (packKernel bitWidth count grid blockSize) m .done later) :
    ∀ k < sqPayloadSize bitWidth count,
      later.cell (.payload k) = payloadByte bitWidth count (fun i => m.cell (.code i)) k := by
  unfold packKernel at ran
  rcases supported with rfl | rfl
  · rw [if_pos rfl] at ran
    obtain ⟨free, packed⟩ : (packQ4Kernel count grid blockSize
        (sqPayloadSize sqQ4Bits count)).RaceFree ∧ _ := packQ4Kernel_spec pos _ m
    have ends : later = _ := ran.eval_eq free
    rw [ends]
    exact packed
  · rw [if_neg (by decide)] at ran
    obtain ⟨free, packed⟩ : (packQ8Kernel count grid blockSize).RaceFree ∧ _ :=
      packQ8Kernel_spec pos m
    have ends : later = _ := ran.eval_eq free
    rw [ends]
    exact packed

end

end Stoquant

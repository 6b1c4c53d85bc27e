import Stoquant.CpuCompress
import Stoquant.Par.Embed

/-!
# Accesses to the random words

The stores that fill `generated_words` and the loads of the encoders, every one
written out, and the indices they stay within.
-/

namespace Stoquant

open Ieee Loop Par

/-! ## Drawing the words -/

/-- `if (i < n) { out[i] = word; i++; }` and what follows. -/
def storeWord (n i : ℕ) (word : Word) (next : ArrayTask Word Empty) :
    ArrayTask Word Empty :=
  if i < n then .write i word next else next

/-- One iteration of `sq_rng_words_cpu`, at `i = 4 * g`. -/
def rngGroup (s : SqRngStream) (n g : ℕ) : ArrayTask Word Empty :=
  let r := philoxBlock s g
  .write (4 * g) r.v0
    (storeWord n (4 * g + 1) r.v1
      (storeWord n (4 * g + 2) r.v2 (storeWord n (4 * g + 3) r.v3 .done)))

/-- The stores of `sq_rng_words_cpu`. -/
def rngWordsTask (s : SqRngStream) (n : ℕ) : ArrayTask Word Empty :=
  .forEach (List.range ((n + 3) / 4)) (rngGroup s n)

/-- The stores of `cpu_rng_words`. -/
def drawAccesses (omp : OmpRuntime) (backend : SqBackend) (stream : SqRngStream)
    (count : ℕ) : ArrayTask Word Empty :=
  match backend with
  | .cpu => rngWordsTask stream count
  | _ => rngRegion stream count omp.rngWords.team

theorem storeWord_within {n i : ℕ} {word : Word} {next : ArrayTask Word Empty}
    (within : next.Within ∅ { a | a < n }) :
    (storeWord n i word next).Within ∅ { a | a < n } := by
  unfold storeWord
  split
  · rename_i below
    exact ⟨below, within⟩
  · exact within

theorem rngWordsTask_within (s : SqRngStream) (n : ℕ) :
    (rngWordsTask s n).Within ∅ { a | a < n } := by
  apply Task.within_forEach
  intro g member
  have group := List.mem_range.mp member
  refine ⟨show 4 * g < n by omega, ?_⟩
  apply storeWord_within
  apply storeWord_within
  apply storeWord_within
  trivial

/-- Drawing words touches no word beyond the count. -/
theorem drawAccesses_within (omp : OmpRuntime) (backend : SqBackend)
    (stream : SqRngStream) {count : ℕ} (bound : 4 * count ≤ sizeMax) :
    (drawAccesses omp backend stream count).Within ∅ { a | a < count } := by
  unfold drawAccesses
  split
  · exact rngWordsTask_within stream count
  · have discipline := rngTeam stream bound omp.rngWords.team
    unfold rngRegion Task.team
    apply Task.within_threads
    intro thread tBound
    apply Task.within_forEach
    intro c member
    refine (discipline.within thread tBound c member).mono (Set.Subset.refl _) ?_
    rintro a (⟨-, below⟩ | scratch)
    · exact below.trans_le (Nat.min_le_right _ _)
    · exact scratch.elim

theorem rngGroup_cell (s : SqRngStream) {n g : ℕ} (more : 4 * g < n)
    (m : Mem (fun _ : ℕ => Word) Empty) :
    ((rngGroup s n g).eval m).cell = (storeGroup s n (4 * g, m.cell)).2 := by
  have first : 4 * g / sqPhiloxWordsPerGroup = g := by
    rw [sqPhiloxWordsPerGroup, Nat.mul_div_cancel_left _ (by norm_num)]
  simp only [rngGroup, storeGroup, storeNext, storeWord, first]
  split_ifs <;> first | rfl | omega

theorem rngGroups_cell (s : SqRngStream) (n : ℕ) {k : ℕ} (groups : k ≤ (n + 3) / 4)
    (m : Mem (fun _ : ℕ => Word) Empty) :
    ((Task.forEach (List.range k) (rngGroup s n)).eval m).cell =
      fun i => if i < min (4 * k) n then streamWord s i else m.cell i := by
  rw [Task.eval_forEach]
  induction k with
  | zero =>
      funext i
      simp
  | succ k ih =>
      have more : 4 * k < n := by omega
      rw [List.range_succ, List.foldl_append, List.foldl_cons, List.foldl_nil,
        rngGroup_cell s more, storeGroup_eq s _ more, ih (by omega)]
      funext i
      dsimp only
      split_ifs <;> first | rfl | omega

/-- The words afterwards are what those stores leave. -/
theorem cpuRngWords_words (omp : OmpRuntime) (backend : SqBackend) (stream : SqRngStream)
    {count : ℕ} (bound : 4 * count ≤ sizeMax) (out : ℕ → Word) :
    cpuRngWords omp stream count (some out) backend =
      some ((drawAccesses omp backend stream count).eval ⟨out, 0⟩).cell := by
  have free : (rngRegion stream count omp.rngWords.team).RaceFree :=
    (rngTeam stream bound omp.rngWords.team).raceFree
  have region : sqAvx2RngWords omp.rngWords stream count out =
      ((rngRegion stream count omp.rngWords.team).eval ⟨out, 0⟩).cell := by
    unfold sqAvx2RngWords
    rw [omp.rngWords.scheduler.run_eq free]
  cases backend with
  | cpu =>
      rw [cpuRngWords, Option.map_some, sqRngWordsCpu_eq, drawAccesses, rngWordsTask,
        rngGroups_cell stream count le_rfl]
      congr 1
      funext i
      split_ifs <;> first | rfl | omega
  | cpuAvx2 => exact congrArg some region
  | cuda => exact congrArg some region

/-! ## Encoding with the words -/

/-- The words an encoder loads and the payload bytes it stores. -/
inductive EncodeCell where
  | word (i : ℕ)
  | payload (k : ℕ)
  deriving DecidableEq

/-- What a cell holds. -/
abbrev EncodeCell.Val : EncodeCell → Type
  | .word _ => Word
  | .payload _ => Byte

/-- The tasks of an encoder. -/
abbrev EncodeTask := Task EncodeCell.Val Empty

/-- The memory of an encoder. -/
def encodeMem (words : ℕ → Word) (payload : ℕ → Byte) : Mem EncodeCell.Val Empty where
  cell
    | .word i => words i
    | .payload k => payload k
  log := 0

/-- Load `words[first]` to `words[first + n - 1]`. -/
def loadWords (first : ℕ) : ℕ → ((ℕ → Word) → EncodeTask) → EncodeTask
  | 0, next => next fun _ => 0#32
  | n + 1, next =>
      loadWords first n fun words =>
        .read (.word (first + n)) fun word => next (Function.update words (first + n) word)

section

variable [Arith Format.binary32]

/-- The 8-bit loop of `sq_encode_payload`. -/
def encodeQ8Task (values : ℕ → F32) (count : ℕ) (scale : F32) (s : ℕ) : EncodeTask :=
  .forEach (List.range count) fun i =>
    .read (.word i) fun word =>
      .write (.payload i) (BitVec.ofInt 8 (signedCode s scale (values i) word + s)) .done

/-- The 4-bit loop of `sq_encode_payload` and its odd last element. -/
def encodeQ4Task (values : ℕ → F32) (count : ℕ) (scale : F32) (s : ℕ) : EncodeTask :=
  .seq
    (.forEach (List.range (count / 2)) fun i =>
      .read (.word (2 * i)) fun word0 =>
        .read (.word (2 * i + 1)) fun word1 =>
          let sc0 := signedCode s scale (values (2 * i)) word0
          let sc1 := signedCode s scale (values (2 * i + 1)) word1
          .write (.payload i)
            ((BitVec.ofInt 8 (sc0 + s) &&& 0x0F#8) |||
              (BitVec.ofInt 8 (sc1 + s) &&& 0x0F#8) <<< 4) .done)
    (if count % 2 = 1 then
      .read (.word (count - 1)) fun word =>
        let sc := signedCode s scale (values (count - 1)) word
        .write (.payload (count / 2)) (BitVec.ofInt 8 (sc + s) &&& 0x0F#8) .done
    else .done)

/-- One iteration of `encode_range`: the loads of a unit, then its stores. -/
def encodeUnitTask (bitWidth : ℕ) (values : ℕ → F32) (last : ℕ) (scale : F32) (s base : ℕ) :
    EncodeTask :=
  let n := if last - base < sqScaleBlockSize then last - base else sqScaleBlockSize
  loadWords base n fun words =>
    (encodeUnit bitWidth values last scale s words base).embed EncodeCell.payload

/-- The parallel region of `sq_avx2_encode_payload`. -/
def encodeRegionTask (bitWidth : ℕ) (values : ℕ → F32) (count : ℕ) (scale : F32)
    (s team : ℕ) : EncodeTask :=
  .team team
    (fun thread =>
      let share := unitRange count thread team
      strided share.1 sqScaleBlockSize share.2)
    fun thread base =>
      encodeUnitTask bitWidth values (unitRange count thread team).2 scale s base

/-- The loads of words and the stores of `cpu_encode_payload` that follow its checks. -/
def encodeAccesses (omp : OmpRuntime) (backend : SqBackend) (bitWidth : ℕ)
    (values : ℕ → F32) (count : ℕ) (scale : F32) (s : ℕ) : EncodeTask :=
  match backend with
  | .cpu =>
      if bitWidth = sqQ8Bits then encodeQ8Task values count scale s
      else encodeQ4Task values count scale s
  | _ => encodeRegionTask bitWidth values count scale s omp.encode.team

end

/-- The loads of words below a count, with stores anywhere in the payload. -/
def LoadsBelow (task : EncodeTask) (count : ℕ) : Prop :=
  task.Within (EncodeCell.word '' { i | i < count }) (Set.range EncodeCell.payload)

theorem loadWords_below {first n count : ℕ} {next : (ℕ → Word) → EncodeTask}
    (inside : first + n ≤ count) (after : ∀ words, LoadsBelow (next words) count) :
    LoadsBelow (loadWords first n next) count := by
  induction n generalizing next with
  | zero => exact after _
  | succ n ih =>
      apply ih (by omega)
      intro words
      have below : first + n < count := by omega
      exact ⟨.inl ⟨first + n, below, rfl⟩, fun word => after _⟩

section

variable [Arith Format.binary32]

theorem encodeQ8Task_below (values : ℕ → F32) (count : ℕ) (scale : F32) (s : ℕ) :
    LoadsBelow (encodeQ8Task values count scale s) count := by
  apply Task.within_forEach
  intro i member
  exact ⟨.inl ⟨i, List.mem_range.mp member, rfl⟩, fun word => ⟨⟨i, rfl⟩, trivial⟩⟩

theorem encodeQ4Task_below (values : ℕ → F32) (count : ℕ) (scale : F32) (s : ℕ) :
    LoadsBelow (encodeQ4Task values count scale s) count := by
  constructor
  · apply Task.within_forEach
    intro i member
    have pair := List.mem_range.mp member
    have low : 2 * i < count := by omega
    have high : 2 * i + 1 < count := by omega
    exact ⟨.inl ⟨2 * i, low, rfl⟩, fun _ =>
      ⟨.inl ⟨2 * i + 1, high, rfl⟩, fun _ => ⟨⟨i, rfl⟩, trivial⟩⟩⟩
  · split
    · have last : count - 1 < count := by omega
      exact ⟨.inl ⟨count - 1, last, rfl⟩, fun _ => ⟨⟨count / 2, rfl⟩, trivial⟩⟩
    · trivial

theorem encodeUnit_within (bitWidth : ℕ) (values : ℕ → F32) (last : ℕ) (scale : F32)
    (s : ℕ) (words : ℕ → Word) (base : ℕ) :
    (encodeUnit bitWidth values last scale s words base).Within ∅ Set.univ := by
  unfold encodeUnit
  dsimp only
  split
  · exact (Task.within_storeRun _ _ _).mono (Set.Subset.refl _) (Set.subset_univ _)
  · exact (within_packNibbles _ _ _).mono (Set.Subset.refl _) (Set.subset_univ _)

omit [Arith Format.binary32] in
theorem embed_within {task : ArrayTask Byte Empty} (within : task.Within ∅ Set.univ) :
    (task.embed EncodeCell.payload : EncodeTask).Within (EncodeCell.payload '' ∅)
      (EncodeCell.payload '' Set.univ) := Task.Within.embed within

omit [Arith Format.binary32] in
theorem embed_below {task : ArrayTask Byte Empty} (within : task.Within ∅ Set.univ)
    (count : ℕ) : LoadsBelow (task.embed EncodeCell.payload) count := by
  apply (embed_within within).mono
  · rintro _ ⟨_, none, _⟩
    exact none.elim
  · rintro _ ⟨k, -, rfl⟩
    exact ⟨k, rfl⟩

theorem encodeRegionTask_below (bitWidth : ℕ) (values : ℕ → F32) (count : ℕ) (scale : F32)
    (s team : ℕ) : LoadsBelow (encodeRegionTask bitWidth values count scale s team) count := by
  unfold encodeRegionTask Task.team
  apply Task.within_threads
  intro thread tBound
  apply Task.within_forEach
  intro base member
  have below := ((mem_strided (by decide)).mp member).1
  have last : (unitRange count thread team).2 ≤ count := by
    rw [unitRange_eq]
    exact Nat.min_le_right _ _
  apply loadWords_below
  · split <;> omega
  · intro words
    exact embed_below (encodeUnit_within _ _ _ _ _ _ _) count

/-- Encoding loads no word beyond the count. -/
theorem encodeAccesses_below (omp : OmpRuntime) (backend : SqBackend) (bitWidth : ℕ)
    (values : ℕ → F32) (count : ℕ) (scale : F32) (s : ℕ) :
    LoadsBelow (encodeAccesses omp backend bitWidth values count scale s) count := by
  unfold encodeAccesses
  split
  · split
    · exact encodeQ8Task_below values count scale s
    · exact encodeQ4Task_below values count scale s
  · exact encodeRegionTask_below bitWidth values count scale s _

/-! ## The payload afterwards -/

omit [Arith Format.binary32] in
theorem encodeMem_set (words : ℕ → Word) (payload : ℕ → Byte) (k : ℕ) (byte : Byte) :
    (encodeMem words payload).set (.payload k) byte =
      encodeMem words (Function.update payload k byte) := by
  apply Mem.ext
  · funext cell
    cases cell with
    | word i => simp [Mem.set, encodeMem]
    | payload j =>
        by_cases same : j = k
        · subst same
          simp [Mem.set, encodeMem]
        · have different : EncodeCell.payload j ≠ .payload k := by simpa using same
          simp [Mem.set, encodeMem, Function.update_of_ne same,
            Function.update_of_ne different]
  · rfl

theorem encodeQ8Task_eval (values : ℕ → F32) (count : ℕ) (scale : F32) (s : ℕ)
    (words : ℕ → Word) (payload : ℕ → Byte) :
    (encodeQ8Task values count scale s).eval (encodeMem words payload) =
      encodeMem words (encodeQ8 values count scale words s payload) := by
  rw [encodeQ8Task, encodeQ8, Task.eval_forEach, upTo_eq_foldl]
  apply List.foldl_hom (encodeMem words)
  intro payload i
  exact encodeMem_set words payload i _

theorem encodeQ4Task_eval (values : ℕ → F32) (count : ℕ) (scale : F32) (s : ℕ)
    (words : ℕ → Word) (payload : ℕ → Byte) :
    (encodeQ4Task values count scale s).eval (encodeMem words payload) =
      encodeMem words (encodeQ4 values count scale words s payload) := by
  rw [encodeQ4Task, encodeQ4, Task.eval, Task.eval_forEach, upTo_eq_foldl,
    List.foldl_hom (encodeMem words) fun payload i => encodeMem_set words payload i _]
  dsimp only
  split
  · exact encodeMem_set words _ _ _
  · rfl

omit [Arith Format.binary32] in
theorem loadWords_eval (first n : ℕ) (next : (ℕ → Word) → EncodeTask) (words : ℕ → Word)
    (payload : ℕ → Byte) :
    ∃ loaded : ℕ → Word, (∀ k < n, loaded (first + k) = words (first + k)) ∧
      (loadWords first n next).eval (encodeMem words payload) =
        (next loaded).eval (encodeMem words payload) := by
  induction n generalizing next with
  | zero => exact ⟨_, fun k below => absurd below (Nat.not_lt_zero k), rfl⟩
  | succ n ih =>
      obtain ⟨loaded, agree, result⟩ := ih fun words =>
        .read (.word (first + n)) fun word => next (Function.update words (first + n) word)
      refine ⟨Function.update loaded (first + n) (words (first + n)), ?_, result⟩
      intro k below
      by_cases last : k = n
      · subst last
        rw [Function.update_self]
      · rw [Function.update_of_ne (by omega), agree k (by omega)]

theorem encodeUnit_congr (bitWidth : ℕ) (values : ℕ → F32) (last : ℕ) (scale : F32)
    (s base : ℕ) {words words' : ℕ → Word}
    (same : ∀ k < (if last - base < sqScaleBlockSize then last - base
      else sqScaleBlockSize), words (base + k) = words' (base + k)) :
    encodeUnit bitWidth values last scale s words base =
      encodeUnit bitWidth values last scale s words' base := by
  unfold encodeUnit
  dsimp only
  generalize (if last - base < sqScaleBlockSize then last - base
    else sqScaleBlockSize) = n at same ⊢
  have codes : ∀ k < n, avx2Code scale s (values (base + k)) (words (base + k)) =
      avx2Code scale s (values (base + k)) (words' (base + k)) := by
    intro k below
    rw [same k below]
  split
  · exact Task.storeRun_congr codes
  · unfold packNibbles
    dsimp only
    congr 1
    · apply Task.storeRun_congr
      intro k below
      rw [codes (2 * k) (by omega), codes (2 * k + 1) (by omega)]
    · split
      · rw [codes (n - 1) (by omega)]
      · rfl

omit [Arith Format.binary32] in
theorem embed_eval {task : ArrayTask Byte Empty} (within : task.Within ∅ Set.univ)
    (words : ℕ → Word) (payload : ℕ → Byte) :
    (task.embed EncodeCell.payload).eval (encodeMem words payload) =
      encodeMem words (task.eval ⟨payload, 0⟩).cell := by
  have injective : Function.Injective EncodeCell.payload := fun _ _ => EncodeCell.payload.inj
  have payloads := Task.eval_embed injective task (encodeMem words payload)
  apply Mem.ext
  · funext cell
    cases cell with
    | word i =>
        apply Task.eval_frame (embed_within within)
        rintro ⟨k, -, equal⟩
        cases equal
    | payload k => exact congrFun (congrArg Mem.cell payloads) k
  · exact Subsingleton.elim _ _

/-- The encoder's memory when the payload is that of an array task. -/
def encodeView (words : ℕ → Word) (m : Mem (fun _ : ℕ => Byte) Empty) :
    Mem EncodeCell.Val Empty := encodeMem words m.cell

theorem encodeRegionTask_eval (bitWidth : ℕ) (values : ℕ → F32) (count : ℕ) (scale : F32)
    (s team : ℕ) (words : ℕ → Word) (payload : ℕ → Byte) :
    (encodeRegionTask bitWidth values count scale s team).eval (encodeMem words payload) =
      encodeMem words
        ((encodeRegion bitWidth values count scale s words team).eval ⟨payload, 0⟩).cell := by
  change Task.eval _ (encodeView words ⟨payload, 0⟩) = encodeView words _
  apply Task.eval_team_view
  intro thread base m
  obtain ⟨loaded, agree, result⟩ := loadWords_eval base _
    (fun words => (encodeUnit bitWidth values (unitRange count thread team).2 scale s words
      base).embed EncodeCell.payload) words m.cell
  have memory : (⟨m.cell, 0⟩ : Mem (fun _ : ℕ => Byte) Empty) = m :=
    Mem.ext rfl (Subsingleton.elim _ _)
  unfold encodeUnitTask encodeView
  dsimp only
  rw [result, encodeUnit_congr bitWidth values _ scale s base agree,
    embed_eval (encodeUnit_within _ _ _ _ _ _ _), memory]

end

section

variable [RoundedArith Format.binary32]

/-- The region of the AVX2 encoder, whatever the order of its threads. -/
theorem encodeRegionTask_run {bitWidth : ℕ} (supported : Supported bitWidth)
    (values : ℕ → F32) (count : ℕ) (scale : F32) (s : ℕ) (region : OmpRegion)
    (words : ℕ → Word) (payload : ℕ → Byte) :
    (encodeRegionTask bitWidth values count scale s region.team).eval
        (encodeMem words payload) =
      encodeMem words
        (region.scheduler.run
          (encodeRegion bitWidth values count scale s words region.team) ⟨payload, 0⟩).cell := by
  have free : (encodeRegion bitWidth values count scale s words region.team).RaceFree :=
    (encodeTeam supported values count scale s words region.team).raceFree
  rw [encodeRegionTask_eval, region.scheduler.run_eq free]

/-- Once its checks have passed and the scale is not zero, the payload of either encoder
is what those accesses leave. -/
theorem cpuEncodePayload_accesses (omp : OmpRuntime) (backend : SqBackend) {bitWidth : ℕ}
    (supported : Supported bitWidth) {values : ℕ → F32} {count : ℕ} {scale : F32}
    (ok : encodeStatus values count scale = .ok) (nonzero : scale.eq zeroF = false)
    (words : ℕ → Word) (payload : ℕ → Byte) :
    ∃ payload',
      cpuEncodePayload omp bitWidth (some values) count scale (some words) (some payload)
          backend = (.ok, some payload') ∧
        (encodeAccesses omp backend bitWidth values count scale
          (signedLimit bitWidth)).eval (encodeMem words payload) =
            encodeMem words payload' := by
  have region := encodeRegionTask_run supported values count scale (signedLimit bitWidth)
    omp.encode words payload
  have avx2 : sqAvx2EncodePayload omp.encodeScan omp.encode bitWidth (some values) count scale
      (some words) (some payload) = (.ok, some (omp.encode.scheduler.run
        (encodeRegion bitWidth values count scale (signedLimit bitWidth) words
          omp.encode.team) ⟨payload, 0⟩).cell) := by
    unfold sqAvx2EncodePayload
    dsimp only
    rw [sqEncodePayloadPrologue_eq supported values count scale words payload
      (scanAvx2EncodeInput_correct omp.encodeScan)]
    simp [ok, nonzero]
  cases backend with
  | cpu =>
      have scalar : sqEncodePayload bitWidth (some values) count scale (some words)
          (some payload) = (.ok, some (if bitWidth = sqQ8Bits then
            encodeQ8 values count scale words (signedLimit bitWidth) payload
          else encodeQ4 values count scale words (signedLimit bitWidth) payload)) := by
        unfold sqEncodePayload
        dsimp only
        rw [sqEncodePayloadPrologue_eq supported values count scale words payload
          scanScalarEncodeInput_correct]
        simp [ok, nonzero]
      refine ⟨_, scalar, ?_⟩
      unfold encodeAccesses
      dsimp only
      split
      · exact encodeQ8Task_eval values count scale _ words payload
      · exact encodeQ4Task_eval values count scale _ words payload
  | cpuAvx2 => exact ⟨_, avx2, region⟩
  | cuda => exact ⟨_, avx2, region⟩

end

end Stoquant

import Stoquant.Backends
import Stoquant.Workspace.Partials
import Stoquant.Workspace.Words

/-!
# The workspace over whole runs

A workspace that holds blocks of memory of known lengths, the calls on it with
every `realloc` free to fail, and what holds after any sequence of calls.
-/

namespace Stoquant

open Ieee Par

/-! ## What a compression returns -/

/-- The status and the record buffer of a compression. -/
def outcome (result : SqStatus × SqCpuCompressWorkspace × Ptr Byte) : SqStatus × Ptr Byte :=
  (result.1, result.2.2)

/-- The stages of every backend are correct; `SQ_BACKEND_CUDA` runs those of AVX2. -/
theorem stagesCorrect [RoundedArith Format.binary32] (omp : OmpRuntime) (backend : SqBackend)
    (x : F32Array) : StagesCorrect omp backend x := by
  have avx2 := stagesCorrect_cpuAvx2 omp x
  cases backend with
  | cpu => exact stagesCorrect_cpu omp x
  | cpuAvx2 => exact avx2
  | cuda => exact ⟨avx2.scale, avx2.words, avx2.encode⟩

theorem Reserved.words {workspace : SqCpuCompressWorkspace} {count : ℕ}
    (reserved : Reserved workspace count) (nonempty : count ≠ 0) :
    workspace.generatedWords.isSome = true := by
  have capacity := reserved.words_capacity
  exact reserved.words_present (by omega)

theorem Reserved.partials {workspace : SqCpuCompressWorkspace} {count : ℕ}
    (reserved : Reserved workspace count) (bound : count ≤ sizeMax) (nonempty : count ≠ 0) :
    workspace.scalePartials.isSome = true ∧
      sqScaleWorkspaceElements count ≤ workspace.scalePartialCapacity := by
  have capacity := reserved.partials_capacity
  have pos := workspaceElements_pos nonempty bound
  exact ⟨reserved.partials_present (by omega), capacity⟩

section

variable [Arith Format.binary32] {omp omp' : OmpRuntime} {backend backend' : SqBackend}
  {x : F32Array} (stages : StagesCorrect omp backend x)
  (stages' : StagesCorrect omp' backend' x)

include stages stages'

/-- Storing depends on the words of the elements alone, also when it fails. -/
theorem cpuStore_congr (bitWidth : ℕ) (scale : F32) (words words' : Ptr Word)
    (present : x.count ≠ 0 → words.isSome = true)
    (present' : x.count ≠ 0 → words'.isSome = true)
    (same : ∀ i < x.count,
      words.getD (fun _ => 0#32) i = words'.getD (fun _ => 0#32) i)
    (buffer : ℕ → Byte) :
    cpuStore omp backend bitWidth x.values x.count scale words (some buffer) =
      cpuStore omp' backend' bitWidth x.values x.count scale words' (some buffer) := by
  unfold cpuStore
  by_cases unsupported : bitWidth ≠ sqQ4Bits ∧ bitWidth ≠ sqQ8Bits
  · simp only [sqHeaderEncode, if_pos unsupported]
  have supported : Supported bitWidth := by
    unfold Supported
    omega
  rcases sqHeaderEncode_eq supported x.get x.count scale buffer with stored | ⟨rejected, -⟩
  · rw [stored]
    dsimp only
    rw [stages.encode supported scale words _ present,
      stages'.encode supported scale words' _ present',
      packCodes_congr supported _ fun i below => by rw [same i below]]
  · rw [rejected]

theorem cpuDrawAndStore_congr (bitWidth : ℕ) (ids : StreamIds) (scale : F32)
    (prescribedWords : Ptr Word) (workspace workspace' : SqCpuCompressWorkspace)
    (present : x.count ≠ 0 → workspace.generatedWords.isSome = true)
    (present' : x.count ≠ 0 → workspace'.generatedWords.isSome = true)
    (buffer : ℕ → Byte) :
    outcome (cpuDrawAndStore omp backend bitWidth x.values x.count ids scale
        prescribedWords workspace (some buffer)) =
      outcome (cpuDrawAndStore omp' backend' bitWidth x.values x.count ids scale
        prescribedWords workspace' (some buffer)) := by
  unfold cpuDrawAndStore
  cases prescribedWords with
  | some words =>
      have stored := cpuStore_congr stages stages' bitWidth scale (some words)
        (some words) (fun _ => rfl) (fun _ => rfl) (fun i _ => rfl) buffer
      dsimp only
      rw [stored]
      rfl
  | none =>
      cases sqRngStreamInit ids.seed ids.tensorId ids.invocationId with
      | none => rfl
      | some stream =>
          have drawn : ∀ {omp : OmpRuntime} {backend : SqBackend} {words : Ptr Word},
              StagesCorrect omp backend x → (x.count ≠ 0 → words.isSome = true) →
              (x.count ≠ 0 →
                (cpuRngWords omp stream x.count words backend).isSome = true) ∧
              ∀ i < x.count, (cpuRngWords omp stream x.count words backend).getD
                (fun _ => 0#32) i = streamWord stream i := by
            intro omp backend words stages present
            constructor
            · intro nonempty
              obtain ⟨out, rfl⟩ := Option.isSome_iff_exists.mp (present nonempty)
              rw [stages.words]
              rfl
            · intro i below
              obtain ⟨out, rfl⟩ := Option.isSome_iff_exists.mp (present (by omega))
              rw [stages.words, Option.getD_some, if_pos below]
          obtain ⟨here, values⟩ := drawn stages present
          obtain ⟨here', values'⟩ := drawn stages' present'
          have stored := cpuStore_congr stages stages' bitWidth scale _ _ here here'
            (fun i below => (values i below).trans (values' i below).symm) buffer
          dsimp only
          rw [stored]
          rfl

/-- With sufficient buffers the status and the record do not depend on the workspace,
the teams or the backend. -/
theorem sqCpuCompress_congr {workspace workspace' : SqCpuCompressWorkspace}
    (reserved : Reserved workspace x.count) (reserved' : Reserved workspace' x.count)
    (bitWidth : ℕ) (ids : StreamIds) (prescribedScale : Option F32)
    (prescribedWords : Ptr Word) (buffer : ℕ → Byte) :
    outcome (sqCpuCompress omp backend bitWidth x.values x.count ids prescribedScale
        prescribedWords workspace (some buffer)) =
      outcome (sqCpuCompress omp' backend' bitWidth x.values x.count ids prescribedScale
        prescribedWords workspace' (some buffer)) := by
  cases prescribedScale with
  | some scale =>
      exact cpuDrawAndStore_congr stages stages' bitWidth ids scale prescribedWords
        workspace workspace' reserved.words reserved'.words buffer
  | none =>
      obtain ⟨partials, scaled⟩ := stages.scale workspace.scalePartials
        workspace.scalePartialCapacity (reserved.partials x.count_le)
      obtain ⟨partials', scaled'⟩ := stages'.scale workspace'.scalePartials
        workspace'.scalePartialCapacity (reserved'.partials x.count_le)
      unfold sqCpuCompress
      rw [scaled, scaled']
      cases found : tensorScale x.get x.count with
      | ok scale =>
          exact cpuDrawAndStore_congr stages stages' bitWidth ids scale prescribedWords
            { workspace with scalePartials := partials }
            { workspace' with scalePartials := partials' }
            reserved.words reserved'.words buffer
      | error status =>
          have notOk := tensorScale_error found
          cases status <;> first | rfl | exact absurd rfl notOk

end

/-! ## Blocks of memory -/

/-- An allocated block: its length in elements and its contents. -/
structure Block (α : Type) where
  length : ℕ
  cells : ℕ → α

/-- The length of the block a pointer holds, if any. -/
def heldLength {α : Type} : Option (Block α) → ℕ
  | none => 0
  | some block => block.length

/-- `realloc` of a block of 4-byte elements; absent when it fails. -/
def reallocBlock {α : Type} (realloc : Ptr α → ℕ → Ptr α) (block : Option (Block α))
    (bytes : ℕ) : Option (Block α) :=
  (realloc (block.map Block.cells) bytes).map fun cells => ⟨bytes / 4, cells⟩

/-- A block with new contents. -/
def refill {α : Type} (block : Option (Block α)) (cells : Ptr α) : Option (Block α) :=
  block.bind fun block => cells.map fun cells => ⟨block.length, cells⟩

/-- `sq_cpu_compress_workspace` with the blocks its pointers hold. -/
structure HeldWorkspace where
  generatedWords : Option (Block Word)
  generatedWordCapacity : ℕ
  scalePartials : Option (Block F32)
  scalePartialCapacity : ℕ

namespace HeldWorkspace

/-- The workspace without the lengths of its blocks. -/
def erase (ws : HeldWorkspace) : SqCpuCompressWorkspace :=
  ⟨ws.generatedWords.map Block.cells, ws.generatedWordCapacity,
    ws.scalePartials.map Block.cells, ws.scalePartialCapacity⟩

/-- `sq_cpu_compress_workspace_init`, also what a destroyed workspace is. -/
def init : HeldWorkspace := ⟨none, 0, none, 0⟩

/-- `sq_cpu_compress_workspace_reserve`. -/
def reserve (realloc : Realloc) (ws : HeldWorkspace) (backend : SqBackend) (threads : ℤ)
    (count : ℕ) : SqStatus × HeldWorkspace :=
  if (backend ≠ .cpu ∧ backend ≠ .cpuAvx2) ∨ (backend = .cpu ∧ threads ≠ 0) ∨
      (backend = .cpuAvx2 ∧ threads < 1) then (.errArgument, ws)
  else if count > sizeMax / 4 then (.errMemory, ws)
  else
    let partialCount := sqScaleWorkspaceElements count
    if partialCount = sizeMax ∨ partialCount > sizeMax / 4 then (.errMemory, ws)
    else
      let words :=
        if count > ws.generatedWordCapacity then
          (reallocBlock realloc.words ws.generatedWords (count * 4)).map fun block =>
            { ws with generatedWords := some block, generatedWordCapacity := count }
        else some ws
      match words with
      | none => (.errMemory, ws)
      | some ws =>
          if partialCount > ws.scalePartialCapacity then
            match reallocBlock realloc.floats ws.scalePartials (partialCount * 4) with
            | none => (.errMemory, ws)
            | some block =>
                (.ok, { ws with
                  scalePartials := some block, scalePartialCapacity := partialCount })
          else (.ok, ws)

/-- `sq_cpu_compress`, which keeps the blocks. -/
def compress [Arith Format.binary32] (omp : OmpRuntime) (backend : SqBackend) (bitWidth : ℕ)
    (x : F32Array) (ids : StreamIds) (prescribedScale : Option F32)
    (prescribedWords : Ptr Word) (ws : HeldWorkspace) (buffer : ℕ → Byte) :
    SqStatus × HeldWorkspace × Ptr Byte :=
  let (status, after, record) :=
    sqCpuCompress omp backend bitWidth x.values x.count ids prescribedScale prescribedWords
      ws.erase (some buffer)
  (status,
    ⟨refill ws.generatedWords after.generatedWords, after.generatedWordCapacity,
      refill ws.scalePartials after.scalePartials, after.scalePartialCapacity⟩,
    record)

/-- The capacities recorded are the lengths of the blocks held. -/
structure CapacitiesHeld (ws : HeldWorkspace) : Prop where
  words : ws.generatedWordCapacity = heldLength ws.generatedWords
  partials : ws.scalePartialCapacity = heldLength ws.scalePartials

/-- The blocks suffice for a count. -/
structure Covers (ws : HeldWorkspace) (count : ℕ) : Prop where
  addressable : count ≤ sizeMax
  words : count ≤ heldLength ws.generatedWords
  partials : sqScaleWorkspaceElements count ≤ heldLength ws.scalePartials

theorem reserve_erase (realloc : Realloc) (ws : HeldWorkspace) (backend : SqBackend)
    (threads : ℤ) (count : ℕ) :
    sqCpuCompressWorkspaceReserve realloc (some ws.erase) backend threads count =
      ((ws.reserve realloc backend threads count).1,
        some (ws.reserve realloc backend threads count).2.erase) := by
  unfold sqCpuCompressWorkspaceReserve reserve
  simp only [erase, reallocBlock]
  split
  · rfl
  split
  · rfl
  split
  · rfl
  -- Each buffer either suffices, or its `realloc` fails or succeeds.
  by_cases grow : count > ws.generatedWordCapacity
  · cases realloc.words (ws.generatedWords.map Block.cells) (count * 4) with
    | none => simp [grow]
    | some words =>
        by_cases more : sqScaleWorkspaceElements count > ws.scalePartialCapacity
        · cases partials : realloc.floats (ws.scalePartials.map Block.cells)
            (sqScaleWorkspaceElements count * 4) with
          | none => simp [grow, more, partials]
          | some array => simp [grow, more, partials]
        · simp [grow, more]
  · by_cases more : sqScaleWorkspaceElements count > ws.scalePartialCapacity
    · cases partials : realloc.floats (ws.scalePartials.map Block.cells)
        (sqScaleWorkspaceElements count * 4) with
      | none => simp [grow, more, partials]
      | some array => simp [grow, more, partials]
    · simp [grow, more]

/-- What every call does to the blocks: none shrinks, and the capacities stay true. -/
structure Grown (ws ws' : HeldWorkspace) : Prop where
  held : CapacitiesHeld ws'
  words : heldLength ws.generatedWords ≤ heldLength ws'.generatedWords
  partials : heldLength ws.scalePartials ≤ heldLength ws'.scalePartials

theorem Grown.refl {ws : HeldWorkspace} (held : CapacitiesHeld ws) : Grown ws ws :=
  ⟨held, le_rfl, le_rfl⟩

theorem Covers.grown {ws ws' : HeldWorkspace} {count : ℕ} (covers : Covers ws count)
    (grown : Grown ws ws') : Covers ws' count :=
  ⟨covers.addressable, covers.words.trans grown.words, covers.partials.trans grown.partials⟩

theorem heldLength_reallocBlock {α : Type} {realloc : Ptr α → ℕ → Ptr α}
    {block : Option (Block α)} {count : ℕ} {grown : Block α}
    (found : reallocBlock realloc block (count * 4) = some grown) : grown.length = count := by
  unfold reallocBlock at found
  obtain ⟨cells, -, rfl⟩ := Option.map_eq_some_iff.mp found
  exact Nat.mul_div_cancel count (by norm_num)

/-- `sq_cpu_compress_workspace_reserve` keeps what is held, whichever `realloc` fails,
and covers the count when it returns `SQ_OK`. -/
theorem reserve_spec {ws : HeldWorkspace} (held : CapacitiesHeld ws) (realloc : Realloc)
    (backend : SqBackend) (threads : ℤ) (count : ℕ) :
    Grown ws (ws.reserve realloc backend threads count).2 ∧
      ((ws.reserve realloc backend threads count).1 = .ok →
        Covers (ws.reserve realloc backend threads count).2 count) := by
  unfold reserve
  dsimp only
  split
  · exact ⟨.refl held, fun ok => SqStatus.noConfusion ok⟩
  split
  · exact ⟨.refl held, fun ok => SqStatus.noConfusion ok⟩
  rename_i small
  have addressable : count ≤ sizeMax := by omega
  split
  · exact ⟨.refl held, fun ok => SqStatus.noConfusion ok⟩
  have wordsHeld := held.words
  have partialsHeld := held.partials
  by_cases grow : count > ws.generatedWordCapacity
  · rw [if_pos grow]
    cases words : reallocBlock realloc.words ws.generatedWords (count * 4) with
    | none => exact ⟨.refl held, fun ok => SqStatus.noConfusion ok⟩
    | some block =>
        have length := heldLength_reallocBlock words
        have longer : heldLength ws.generatedWords ≤ block.length := by omega
        dsimp only [Option.map_some]
        split
        · rename_i more
          split
          · exact ⟨⟨⟨length.symm, partialsHeld⟩, longer, le_rfl⟩,
              fun ok => SqStatus.noConfusion ok⟩
          · rename_i array found
            have length' := heldLength_reallocBlock found
            have longer' : heldLength ws.scalePartials ≤ array.length := by omega
            exact ⟨⟨⟨length.symm, length'.symm⟩, longer, longer'⟩,
              fun _ => ⟨addressable, length.ge, length'.ge⟩⟩
        · rename_i enough
          have covered : sqScaleWorkspaceElements count ≤ heldLength ws.scalePartials := by
            omega
          exact ⟨⟨⟨length.symm, partialsHeld⟩, longer, le_rfl⟩,
            fun _ => ⟨addressable, length.ge, covered⟩⟩
  · rw [if_neg grow]
    have wordsCovered : count ≤ heldLength ws.generatedWords := by omega
    dsimp only
    split
    · rename_i more
      split
      · exact ⟨.refl held, fun ok => SqStatus.noConfusion ok⟩
      · rename_i array found
        have length' := heldLength_reallocBlock found
        have longer' : heldLength ws.scalePartials ≤ array.length := by omega
        exact ⟨⟨⟨wordsHeld, length'.symm⟩, le_rfl, longer'⟩,
          fun _ => ⟨addressable, wordsCovered, length'.ge⟩⟩
    · rename_i enough
      have covered : sqScaleWorkspaceElements count ≤ heldLength ws.scalePartials := by omega
      exact ⟨.refl held, fun _ => ⟨addressable, wordsCovered, covered⟩⟩

end HeldWorkspace

/-- A compression keeps the capacities and leaves a pointer null or not. -/
structure SameShape (workspace workspace' : SqCpuCompressWorkspace) : Prop where
  wordCapacity : workspace'.generatedWordCapacity = workspace.generatedWordCapacity
  words : workspace'.generatedWords.isSome = workspace.generatedWords.isSome
  partialCapacity : workspace'.scalePartialCapacity = workspace.scalePartialCapacity
  partials : workspace'.scalePartials.isSome = workspace.scalePartials.isSome

section

variable [Arith Format.binary32]

theorem sqComputeScaleWithWorkspace_isSome (values : Ptr F32) (count : ℕ)
    (scale : Option F32) (partials : Ptr F32) (capacity : ℕ) :
    (sqComputeScaleWithWorkspace values count scale partials capacity).2.2.isSome =
      partials.isSome := by
  unfold sqComputeScaleWithWorkspace
  dsimp only
  split
  · rfl
  · split <;> rfl
  split
  · rfl
  split
  · rfl
  split
  · rfl
  split
  · rfl
  split
  · rfl
  split
  · rfl
  split
  · rfl
  · split <;> rfl

theorem sqAvx2ComputeScaleWithWorkspace_isSome (scan sums : OmpRegion) (values : Ptr F32)
    (count : ℕ) (scale : Option F32) (partials : Ptr F32) (capacity : ℕ) :
    (sqAvx2ComputeScaleWithWorkspace scan sums values count scale partials
      capacity).2.2.isSome = partials.isSome := by
  unfold sqAvx2ComputeScaleWithWorkspace
  dsimp only
  split
  · rfl
  · split <;> rfl
  split
  · rfl
  split
  · rfl
  split
  · rfl
  split
  · rfl
  split
  · rfl
  split
  · rfl
  split
  · rfl
  · split <;> rfl

theorem cpuDrawAndStore_shape (omp : OmpRuntime) (backend : SqBackend) (bitWidth : ℕ)
    (values : Ptr F32) (count : ℕ) (ids : StreamIds) (scale : F32)
    (prescribedWords : Ptr Word) (workspace : SqCpuCompressWorkspace) (record : Ptr Byte) :
    SameShape workspace
      (cpuDrawAndStore omp backend bitWidth values count ids scale prescribedWords workspace
        record).2.1 := by
  unfold cpuDrawAndStore
  split
  · exact ⟨rfl, rfl, rfl, rfl⟩
  split
  · exact ⟨rfl, rfl, rfl, rfl⟩
  · refine ⟨rfl, ?_, rfl, rfl⟩
    unfold cpuRngWords
    split <;> exact Option.isSome_map

theorem sqCpuCompress_shape (omp : OmpRuntime) (backend : SqBackend) (bitWidth : ℕ)
    (values : Ptr F32) (count : ℕ) (ids : StreamIds) (prescribedScale : Option F32)
    (prescribedWords : Ptr Word) (workspace : SqCpuCompressWorkspace) (record : Ptr Byte) :
    SameShape workspace
      (sqCpuCompress omp backend bitWidth values count ids prescribedScale prescribedWords
        workspace record).2.1 := by
  unfold sqCpuCompress
  split
  · exact cpuDrawAndStore_shape omp backend bitWidth values count ids _ prescribedWords
      workspace record
  have kept : (cpuComputeScale omp values count (some zeroF) workspace.scalePartials
      workspace.scalePartialCapacity backend).2.2.isSome = workspace.scalePartials.isSome := by
    unfold cpuComputeScale
    split
    · exact sqComputeScaleWithWorkspace_isSome _ _ _ _ _
    · exact sqAvx2ComputeScaleWithWorkspace_isSome _ _ _ _ _ _ _
  generalize cpuComputeScale omp values count (some zeroF) workspace.scalePartials
    workspace.scalePartialCapacity backend = scaled at kept ⊢
  obtain ⟨status, scale, partials⟩ := scaled
  dsimp only at kept ⊢
  split
  · rename_i scale
    have after := cpuDrawAndStore_shape omp backend bitWidth values count ids scale
      prescribedWords { workspace with scalePartials := partials } record
    exact ⟨after.wordCapacity, after.words, after.partialCapacity, after.partials.trans kept⟩
  · exact ⟨rfl, rfl, rfl, kept⟩

end

theorem heldLength_refill {α : Type} {block : Option (Block α)} {cells : Ptr α}
    (same : cells.isSome = (block.map Block.cells).isSome) :
    heldLength (refill block cells) = heldLength block := by
  cases block with
  | none => rfl
  | some block =>
      obtain ⟨array, rfl⟩ := Option.isSome_iff_exists.mp same
      rfl

theorem refill_cells {α : Type} {block : Option (Block α)} {cells : Ptr α}
    (same : cells.isSome = (block.map Block.cells).isSome) :
    (refill block cells).map Block.cells = cells := by
  cases block with
  | none => exact (Option.isSome_eq_false_iff.mp same |> Option.isNone_iff_eq_none.mp).symm
  | some block =>
      obtain ⟨array, rfl⟩ := Option.isSome_iff_exists.mp same
      rfl

namespace HeldWorkspace

section

variable [Arith Format.binary32] (omp : OmpRuntime) (backend : SqBackend) (bitWidth : ℕ)
  (x : F32Array) (ids : StreamIds) (prescribedScale : Option F32)
  (prescribedWords : Ptr Word) (ws : HeldWorkspace) (buffer : ℕ → Byte)

theorem compress_erase :
    sqCpuCompress omp backend bitWidth x.values x.count ids prescribedScale prescribedWords
        ws.erase (some buffer) =
      let result := ws.compress omp backend bitWidth x ids prescribedScale prescribedWords buffer
      (result.1, result.2.1.erase, result.2.2) := by
  have shape := sqCpuCompress_shape omp backend bitWidth x.values x.count ids prescribedScale
    prescribedWords ws.erase (some buffer)
  have words := refill_cells shape.words
  have partials := refill_cells shape.partials
  unfold compress
  generalize sqCpuCompress omp backend bitWidth x.values x.count ids prescribedScale
    prescribedWords ws.erase (some buffer) = result at words partials ⊢
  refine Prod.ext rfl (Prod.ext ?_ rfl)
  dsimp only
  rw [erase, words, partials]

theorem compress_grown (held : CapacitiesHeld ws) :
    Grown ws (ws.compress omp backend bitWidth x ids prescribedScale prescribedWords
      buffer).2.1 := by
  have shape := sqCpuCompress_shape omp backend bitWidth x.values x.count ids prescribedScale
    prescribedWords ws.erase (some buffer)
  have words := heldLength_refill shape.words
  have partials := heldLength_refill shape.partials
  refine ⟨⟨?_, ?_⟩, words.ge, partials.ge⟩
  · exact (shape.wordCapacity.trans held.words).trans words.symm
  · exact (shape.partialCapacity.trans held.partials).trans partials.symm

end

end HeldWorkspace

/-! ## Runs -/

/-- The calls on a workspace, with what the caller and the environment choose. -/
inductive WorkspaceCall where
  | init
  | reserve (realloc : Realloc) (backend : SqBackend) (threads : ℤ) (count : ℕ)
  | compress (omp : OmpRuntime) (backend : SqBackend) (bitWidth : ℕ) (x : F32Array)
      (ids : StreamIds) (prescribedScale : Option F32) (prescribedWords : Ptr Word)
      (buffer : ℕ → Byte)
  | destroy

/-- A workspace, and the counts reserved with success since the last `init` or
`destroy`. -/
structure WorkspaceState where
  workspace : HeldWorkspace
  reserved : List ℕ

namespace WorkspaceState

/-- The workspace that `init` makes. -/
def start : WorkspaceState := ⟨.init, []⟩

/-- A workspace whose capacities are true and whose blocks cover what it reserved. -/
structure Sound (state : WorkspaceState) : Prop where
  held : state.workspace.CapacitiesHeld
  covers : ∀ count ∈ state.reserved, state.workspace.Covers count

theorem start_sound : Sound start :=
  ⟨⟨rfl, rfl⟩, fun _ member => (List.not_mem_nil member).elim⟩

theorem Sound.grown {state : WorkspaceState} (sound : Sound state) {after : HeldWorkspace}
    (grown : state.workspace.Grown after) : Sound ⟨after, state.reserved⟩ :=
  ⟨grown.held, fun count member => (sound.covers count member).grown grown⟩

section

variable [Arith Format.binary32]

/-- One call. -/
def step (state : WorkspaceState) : WorkspaceCall → WorkspaceState
  | .init => start
  | .reserve realloc backend threads count =>
      let (status, after) := state.workspace.reserve realloc backend threads count
      ⟨after, if status = .ok then count :: state.reserved else state.reserved⟩
  | .compress omp backend bitWidth x ids prescribedScale prescribedWords buffer =>
      let (_, after, _) := state.workspace.compress omp backend bitWidth x ids
        prescribedScale prescribedWords buffer
      ⟨after, state.reserved⟩
  | .destroy => start

theorem step_compress_reserved (state : WorkspaceState) (omp : OmpRuntime) (backend : SqBackend)
    (bitWidth : ℕ) (x : F32Array) (ids : StreamIds) (prescribedScale : Option F32)
    (prescribedWords : Ptr Word) (buffer : ℕ → Byte) :
    (state.step (.compress omp backend bitWidth x ids prescribedScale prescribedWords
      buffer)).reserved = state.reserved :=
  rfl

/-- A sequence of calls on an initialised workspace. -/
def run (calls : List WorkspaceCall) : WorkspaceState := calls.foldl step start

theorem step_sound {state : WorkspaceState} (sound : Sound state) (call : WorkspaceCall) :
    Sound (state.step call) := by
  cases call with
  | init => exact start_sound
  | destroy => exact start_sound
  | reserve realloc backend threads count =>
      obtain ⟨grown, covers⟩ := HeldWorkspace.reserve_spec sound.held realloc backend threads
        count
      have kept := sound.grown grown
      refine ⟨kept.held, ?_⟩
      unfold step
      dsimp only
      split
      · rename_i ok
        intro reserved member
        rcases List.mem_cons.mp member with rfl | earlier
        · exact covers ok
        · exact kept.covers reserved earlier
      · exact kept.covers
  | compress omp backend bitWidth x ids prescribedScale prescribedWords buffer =>
      exact sound.grown (HeldWorkspace.compress_grown omp backend bitWidth x ids
        prescribedScale prescribedWords state.workspace buffer sound.held)

theorem run_sound (calls : List WorkspaceCall) : Sound (run calls) := by
  have each : ∀ state, Sound state → Sound (calls.foldl step state) := by
    induction calls with
    | nil => exact fun state sound => sound
    | cons call calls ih => exact fun state sound => ih _ (step_sound sound call)
  exact each start start_sound

end

end WorkspaceState

/-! ## What a reservation is good for -/

theorem sqScaleWorkspaceElements_mono {count larger : ℕ} (le : count ≤ larger)
    (bound : larger ≤ sizeMax) :
    sqScaleWorkspaceElements count ≤ sqScaleWorkspaceElements larger := by
  by_cases empty : count = 0
  · rw [empty]
    exact Nat.zero_le _
  have blocks : blockCount count ≤ blockCount larger := by
    unfold blockCount sqScaleBlockSize
    dsimp only
    split_ifs <;> omega
  rw [sqScaleWorkspaceElements_eq empty (le.trans bound),
    sqScaleWorkspaceElements_eq (by omega) bound]
  exact Nat.pow_le_pow_right (by norm_num) (Nat.clog_mono_right 2 blocks)

namespace HeldWorkspace

theorem Covers.mono {ws : HeldWorkspace} {count smaller : ℕ} (covers : Covers ws count)
    (le : smaller ≤ count) : Covers ws smaller :=
  ⟨le.trans covers.addressable, le.trans covers.words,
    (sqScaleWorkspaceElements_mono le covers.addressable).trans covers.partials⟩

theorem heldLength_present {α : Type} {block : Option (Block α)} {capacity : ℕ}
    (held : capacity = heldLength block) (nonzero : capacity ≠ 0) :
    (block.map Block.cells).isSome = true := by
  cases block with
  | none => exact absurd held nonzero
  | some block => rfl

/-- A workspace that covers a count is reserved for it. -/
theorem Covers.reserved {ws : HeldWorkspace} {count : ℕ} (covers : Covers ws count)
    (held : CapacitiesHeld ws) : Reserved ws.erase count where
  words_capacity := covers.words.trans held.words.ge
  words_present := heldLength_present held.words
  partials_capacity := covers.partials.trans held.partials.ge
  partials_present := heldLength_present held.partials

/-- A workspace just initialised and reserved. -/
def FreshlyReserved (fresh : HeldWorkspace) (count : ℕ) : Prop :=
  ∃ realloc backend threads, init.reserve realloc backend threads count = (.ok, fresh)

theorem FreshlyReserved.sound {fresh : HeldWorkspace} {count : ℕ}
    (reserved : FreshlyReserved fresh count) : CapacitiesHeld fresh ∧ Covers fresh count := by
  obtain ⟨realloc, backend, threads, result⟩ := reserved
  have initial : CapacitiesHeld init := ⟨rfl, rfl⟩
  have spec := reserve_spec initial realloc backend threads count
  rw [result] at spec
  exact ⟨spec.1.held, spec.2 rfl⟩

section

variable [Arith Format.binary32]

/-- A compression of at most `count` elements stays inside both blocks on every run of its
threads: the loads and stores of its stages, which are what the stages do to the buffers,
are below the lengths.  It returns what it returns with a freshly reserved workspace. -/
structure Usable (ws : HeldWorkspace) (count : ℕ) : Prop where
  partials : ∀ omp backend (x : F32Array), x.count ≤ count →
    (scaleAccesses omp backend x.get x.count).Within ∅
        { i | i < heldLength ws.scalePartials } ∧
      ∀ scale array,
        (cpuComputeScale omp x.values x.count (some scale) (some array)
            ws.scalePartialCapacity backend).2.2 =
          some ((scaleAccesses omp backend x.get x.count).eval ⟨array, 0⟩).cell
  draws : ∀ omp backend stream (x : F32Array), x.count ≤ count →
    (drawAccesses omp backend stream x.count).Within ∅
        { i | i < heldLength ws.generatedWords } ∧
      ∀ out, cpuRngWords omp stream x.count (some out) backend =
        some ((drawAccesses omp backend stream x.count).eval ⟨out, 0⟩).cell
  loads : ∀ omp backend bitWidth (x : F32Array) scale, x.count ≤ count →
    let accesses := encodeAccesses omp backend bitWidth x.get x.count scale
      (signedLimit bitWidth)
    LoadsBelow accesses (heldLength ws.generatedWords) ∧
      (Supported bitWidth → encodeStatus x.get x.count scale = .ok →
        scale.eq zeroF = false → ∀ words payload, ∃ payload',
          cpuEncodePayload omp bitWidth x.values x.count scale (some words) (some payload)
              backend = (.ok, some payload') ∧
            accesses.eval (encodeMem words payload) = encodeMem words payload')
  same : ∀ omp backend bitWidth (x : F32Array) ids prescribedScale prescribedWords buffer,
    x.count ≤ count → ∀ fresh freshCount, x.count ≤ freshCount →
      FreshlyReserved fresh freshCount → ∀ omp',
        let result := ws.compress omp backend bitWidth x ids prescribedScale
          prescribedWords buffer
        let expected := fresh.compress omp' backend bitWidth x ids prescribedScale
          prescribedWords buffer
        result.1 = expected.1 ∧ result.2.2 = expected.2.2

end

theorem cpuComputeScale_accesses [RoundedArith Format.binary32] (omp : OmpRuntime)
    (backend : SqBackend) (x : F32Array) (scale : F32) (array : ℕ → F32) {capacity : ℕ}
    (sufficient : sqScaleWorkspaceElements x.count ≤ capacity) :
    (cpuComputeScale omp x.values x.count (some scale) (some array) capacity
        backend).2.2 =
      some ((scaleAccesses omp backend x.get x.count).eval ⟨array, 0⟩).cell := by
  by_cases empty : x.count = 0
  · unfold cpuComputeScale scaleAccesses sqComputeScaleWithWorkspace
      sqAvx2ComputeScaleWithWorkspace scalarPartials avx2Partials
    rw [empty]
    cases backend <;> cases x.values <;> rfl
  · rw [x.values_eq empty]
    exact cpuComputeScale_partials x.count_le sufficient omp backend x.get scale array

theorem LoadsBelow.mono {task : EncodeTask} {count larger : ℕ}
    (loads : LoadsBelow task count) (le : count ≤ larger) : LoadsBelow task larger :=
  Task.Within.mono loads (Set.image_mono fun _ below => below.trans_le le)
    (Set.Subset.refl _)

/-- True capacities and blocks that cover a count make it usable. -/
theorem Covers.usable [RoundedArith Format.binary32] {ws : HeldWorkspace} {count : ℕ}
    (covers : Covers ws count) (held : CapacitiesHeld ws) : Usable ws count where
  partials omp backend x le := by
    have here := covers.mono le
    constructor
    · apply (scaleAccesses_within omp backend x.get x.count_le).mono (Set.Subset.refl _)
      exact fun i below => below.trans_le here.partials
    · intro scale array
      exact cpuComputeScale_accesses omp backend x scale array
        (here.partials.trans held.partials.ge)
  draws omp backend stream x le := by
    have bound : 4 * x.count ≤ sizeMax := by
      have := x.fits
      omega
    constructor
    · apply (drawAccesses_within omp backend stream bound).mono (Set.Subset.refl _)
      exact fun i below => below.trans_le (covers.mono le).words
    · exact cpuRngWords_words omp backend stream bound
  loads omp backend bitWidth x scale le := by
    have below := encodeAccesses_below omp backend bitWidth x.get x.count scale
      (signedLimit bitWidth)
    refine ⟨LoadsBelow.mono below (covers.mono le).words, ?_⟩
    intro supported ok nonzero words payload
    have nonempty : x.count ≠ 0 := by
      intro empty
      simp [encodeStatus, empty, nonzero] at ok
    rw [x.values_eq nonempty]
    exact cpuEncodePayload_accesses omp backend supported ok nonzero words payload
  same omp backend bitWidth x ids prescribedScale prescribedWords buffer le fresh freshCount
      freshLe reserved omp' := by
    obtain ⟨freshHeld, freshCovers⟩ := reserved.sound
    have equal := sqCpuCompress_congr (stagesCorrect omp backend x)
      (stagesCorrect omp' backend x) ((covers.mono le).reserved held)
      ((freshCovers.mono freshLe).reserved freshHeld) bitWidth ids prescribedScale
      prescribedWords buffer
    exact Prod.ext_iff.mp equal

end HeldWorkspace

/-- Whatever calls are made, with every `realloc` free to fail: the capacities are the
lengths of the buffers held, a failed reserve leaves every reserved count usable, and every
count reserved since the last `init` or `destroy` is usable. -/
theorem workspaceRun_usable [RoundedArith Format.binary32] (calls : List WorkspaceCall) :
    let state := WorkspaceState.run calls
    state.workspace.CapacitiesHeld ∧
      (∀ realloc backend threads count,
        (state.workspace.reserve realloc backend threads count).1 ≠ .ok →
        ∀ reserved ∈ state.reserved,
          (state.workspace.reserve realloc backend threads count).2.Usable reserved) ∧
      ∀ count ∈ state.reserved, state.workspace.Usable count := by
  have sound := WorkspaceState.run_sound calls
  refine ⟨sound.held, ?_, ?_⟩
  · intro realloc backend threads count failed reserved member
    have grown := (HeldWorkspace.reserve_spec sound.held realloc backend threads count).1
    exact ((sound.covers reserved member).grown grown).usable grown.held
  · intro count member
    exact (sound.covers count member).usable sound.held

/-- A `realloc` that never fails. -/
def grantingRealloc : Realloc := ⟨fun _ _ => some fun _ => 0#32, fun _ _ => some fun _ => zeroF⟩

/-- A `realloc` that finds no room for the partial sums. -/
def refusingRealloc : Realloc := ⟨fun _ _ => some fun _ => 0#32, fun _ _ => none⟩

/-- A compression of the array of odd length into the workspace. -/
def compressThirteen : WorkspaceCall :=
  .compress threeThreadRuntime .cpu 4 thirteenElements ⟨7#64, 0#64, 0#64⟩ none none fun _ => 0#8

/-- Two blocks reserved, a growth that fails halfway, and two uses of the same buffers. -/
def refusedGrowth : List WorkspaceCall :=
  [.reserve grantingRealloc .cpuAvx2 2 261, .reserve refusingRealloc .cpu 0 600, compressThirteen,
    compressThirteen]

theorem workspaceRun_usable_refusedGrowth :
    letI := nearestEven Format.binary32
    let state := WorkspaceState.run refusedGrowth
    let refused := state.workspace.reserve grantingRealloc .cpu 0 sizeMax
    refused.1 ≠ .ok ∧ refused.2.Usable 261 ∧ state.workspace.Usable 261 := by
  let _ := nearestEven Format.binary32
  have member : 261 ∈ (WorkspaceState.run refusedGrowth).reserved := by
    rw [WorkspaceState.run, refusedGrowth, List.foldl_cons, List.foldl_cons, List.foldl_cons,
      List.foldl_cons, List.foldl_nil, compressThirteen, WorkspaceState.step_compress_reserved,
      WorkspaceState.step_compress_reserved]
    decide +kernel
  have oversized : ∀ ws : HeldWorkspace,
      (ws.reserve grantingRealloc .cpu 0 sizeMax).1 ≠ .ok := fun _ => SqStatus.noConfusion
  obtain ⟨-, kept, usable⟩ := workspaceRun_usable refusedGrowth
  exact ⟨oversized _, kept grantingRealloc .cpu 0 sizeMax (oversized _) 261 member,
    usable 261 member⟩

end Stoquant

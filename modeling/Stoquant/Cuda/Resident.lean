import Stoquant.Cuda.Bench

/-!
# The resident kernels of a benchmark

`enqueue_resident` enqueues the same operations whether they run at once or are captured.
What they leave behind is the record of the tensor, or a status and flags in which
`check_bench_result` finds the error of the record.
-/

namespace Stoquant

open Abort Ieee Loop Par

/-! ## Computations that enqueue operations -/

section

variable [Arith Format.binary32] {Host ε : Type} {device : CudaDevice}

/-- Whatever it calls, the computation ends and has enqueued the operations. -/
def Enqueues (device : CudaDevice) (ops : List DeviceOp) (run : CudaRun Host ε Unit) : Prop :=
  ∀ state, ∃ calls,
    exec run state = (.ok (), ({ state with calls := calls } : CudaState Host).enqueue device ops)

theorem CudaState.enqueue_nil (state : CudaState Host) : state.enqueue device [] = state := by
  obtain ⟨calls, ran, memory, capture, host⟩ := state
  cases capture with
  | some captured =>
      unfold CudaState.enqueue
      dsimp only
      rw [List.append_nil]
  | none => rfl

theorem CudaState.enqueue_calls (state : CudaState Host) (ops : List DeviceOp)
    (calls : List CudaCall) :
    ({ state.enqueue device ops with calls := calls } : CudaState Host) =
      ({ state with calls := calls } : CudaState Host).enqueue device ops := by
  unfold CudaState.enqueue
  cases state.capture with
  | some captured => rfl
  | none => rfl

theorem CudaState.called_enqueue (state : CudaState Host) (ops : List DeviceOp)
    (call : CudaCall) :
    (state.enqueue device ops).called call = (state.called call).enqueue device ops := by
  unfold CudaState.called
  rw [CudaState.calls_enqueue, CudaState.enqueue_calls]

theorem Enqueues.then {first second : List DeviceOp} {run : CudaRun Host ε Unit}
    {next : Unit → CudaRun Host ε Unit} (earlier : Enqueues device first run)
    (later : ∀ result, Enqueues device second (next result)) :
    Enqueues device (first ++ second) (run >>= next) := by
  intro state
  obtain ⟨calls, ran⟩ := earlier state
  obtain ⟨calls', ran'⟩ :=
    later () (({ state with calls := calls } : CudaState Host).enqueue device first)
  refine ⟨calls', ?_⟩
  rw [exec_bind_ok ran, ran', CudaState.enqueue_calls, CudaState.enqueue_enqueue]

/-- A computation that only makes calls, before one that enqueues. -/
theorem Enqueues.after {ops : List DeviceOp} {run : CudaRun Host ε Unit}
    {next : Unit → CudaRun Host ε Unit} (first : Enqueues device [] run)
    (rest : ∀ result, Enqueues device ops (next result)) : Enqueues device ops (run >>= next) :=
  first.then rest

theorem enqueues_pure : Enqueues device [] (pure () : CudaRun Host ε Unit) :=
  fun state => ⟨state.calls, by rw [CudaState.enqueue_nil]; rfl⟩

theorem Enqueues.on {ops : List DeviceOp} {run : CudaRun Host ε Unit}
    {holds after : DeviceMemory → Host → Prop} {failed : ε → CudaState Host → Prop}
    (enqueues : Enqueues device ops run)
    (does : ∀ ran memory host, holds memory host → after (runOps device ops ran memory) host) :
    Ends (On holds) run (fun _ => On after) failed := by
  intro state start
  obtain ⟨calls, ran⟩ := enqueues state
  rw [ran]
  have begun : On holds ({ state with calls := calls } : CudaState Host) := start
  exact On.enqueue begun does

section

variable (quiet : device.Quiet)

include quiet

theorem enqueues_try (call : CudaCall) (ops : List DeviceOp) :
    Enqueues device ops
      (sqCudaTry device call (CudaState.enqueue device ops) : CudaRun Host CudaError Unit) :=
  fun state => ⟨state.calls ++ [call], quiet_exec quiet call _ state⟩

theorem enqueues_call (call : CudaCall) :
    Enqueues device [] (sqCudaTry device call id : CudaRun Host CudaError Unit) := by
  intro state
  refine ⟨state.calls ++ [call], ?_⟩
  rw [quiet_exec quiet, CudaState.enqueue_nil]
  rfl

variable {bitWidth count : ℕ} {blockSize gridSize : ℤ}

theorem enqueues_launchK2On (supported : Supported bitWidth) (nonempty : count ≠ 0)
    (geometry : validLaunchGeometry blockSize gridSize = true) (prescribedWords : Bool)
    (stream : SqRngStream) :
    Enqueues device [k2Op bitWidth count prescribedWords stream blockSize gridSize]
      (launchK2On device bitWidth count prescribedWords true stream blockSize gridSize :
        CudaRun Host CudaError Unit) := by
  intro state
  refine ⟨state.calls ++ [.lastError], ?_⟩
  rw [quiet_launchK2On quiet supported nonempty geometry, CudaState.called_enqueue]
  rfl

theorem enqueues_launchK3On (supported : Supported bitWidth) (nonempty : count ≠ 0)
    (geometry : validLaunchGeometry blockSize gridSize = true) :
    Enqueues device [k3Op bitWidth count blockSize gridSize]
      (launchK3On device bitWidth count true blockSize gridSize :
        CudaRun Host CudaError Unit) := by
  intro state
  refine ⟨state.calls ++ [.lastError], ?_⟩
  rw [quiet_launchK3On quiet supported nonempty geometry, CudaState.called_enqueue]
  rfl

end

end

/-! ## The operations -/

/-- Buffers that are all there. -/
structure BenchReady (config : CudaConfig) (buffers : BenchBuffers) : Prop where
  values : ∃ address, buffers.values = some address ∧ address % 16 = 0
  scale : buffers.scale.isSome = true
  k1Scale : config.prescribedScale.isSome = true → buffers.k1Scale.isSome = true
  status : buffers.status.isSome = true
  validationFlags : buffers.validationFlags.isSome = true
  codes : buffers.codes.isSome = true
  payload : buffers.payload.isSome = true
  words : config.prescribedWords.isSome = true → buffers.words.isSome = true
  sized : setK1WorkspaceGeometry (some ⟨0, 0⟩) config.count =
    (.ok, some buffers.k1Workspace.counts)
  workspace : buffers.k1Workspace.maxPartials.isSome = true ∧
    buffers.k1Workspace.invalidPartials.isSome = true ∧
    buffers.k1Workspace.sumsA.isSome = true ∧ buffers.k1Workspace.sumsB.isSome = true

section

variable [Arith Format.binary32] {device : CudaDevice} {config : CudaConfig}

/-- What `enqueue_resident` enqueues: K1 has a scale of its own beside a prescribed one. -/
def residentOps (config : CudaConfig) (launched : List K1Kernel) (stream : SqRngStream) :
    List DeviceOp :=
  [.clearFlags] ++
    (launched.map (DeviceOp.k1 config.prescribedScale.isSome config.count) ++
      ([k2Op config.bitWidth config.count config.prescribedWords.isSome stream config.blockSize
          config.gridSize] ++
        [k3Op config.bitWidth config.count config.blockSize config.gridSize]))

variable (supported : Supported config.bitWidth) (nonempty : config.count ≠ 0)
  (geometry : validLaunchGeometry config.blockSize config.gridSize = true)

include supported nonempty geometry

theorem enqueues_enqueueResident (quiet : device.Quiet) (bound : config.count ≤ uint64Max)
    {buffers : BenchBuffers} (ready : BenchReady config buffers) (variant : K1Variant) :
    ∃ launched, K1Shape config.count launched ∧ ∀ stream events,
      Enqueues device (residentOps config launched stream)
        (enqueueResident device config buffers variant stream events) := by
  have reductionGeometry : validLaunchGeometry sqCudaReductionThreads config.gridSize = true := by
    unfold validLaunchGeometry at geometry ⊢
    simp only [decide_eq_true_eq] at geometry ⊢
    exact ⟨by decide, by decide, geometry.2.2⟩
  obtain ⟨address, valuesEq, aligned⟩ := ready.values
  have present : (buffers.values.isSome && buffers.scale.isSome && buffers.codes.isSome &&
      buffers.validationFlags.isSome &&
      !(config.prescribedWords.isSome && buffers.words.isNone)) = true := by
    have words := ready.words
    rw [valuesEq, ready.scale, ready.codes, ready.validationFlags]
    cases prescribed : config.prescribedWords with
    | none => rfl
    | some given =>
        obtain ⟨address, wordsEq⟩ := Option.isSome_iff_exists.mp (words (by rw [prescribed]; rfl))
        rw [wordsEq]
        rfl
  have payload : (buffers.codes.isSome && buffers.payload.isSome) = true := by
    rw [ready.codes, ready.payload]
    rfl
  have scale : (if config.prescribedScale.isSome = true then buffers.k1Scale
      else buffers.scale).isSome = true := by
    split
    · exact ready.k1Scale ‹_›
    · exact ready.scale
  obtain ⟨maxPartials, invalidPartials, sumsA, sumsB⟩ := ready.workspace
  have k1Ready : K1Ready ⟨buffers.values,
      if config.prescribedScale.isSome = true then buffers.k1Scale else buffers.scale,
      buffers.status⟩ buffers.k1Workspace :=
    ⟨ready.values, scale, ready.status, maxPartials, invalidPartials, sumsA, sumsB⟩
  obtain ⟨launched, shape, ran⟩ := quiet_launchK1On BenchHost quiet
    config.prescribedScale.isSome nonempty bound reductionGeometry ready.sized k1Ready variant
  refine ⟨launched, shape, fun stream events => ?_⟩
  have record : ∀ event : BenchEvent,
      Enqueues device [] (recordUnlessCaptured device events event) := by
    intro event
    cases events with
    | true => exact enqueues_call quiet _
    | false => exact enqueues_pure
  have k1 : Enqueues device (launched.map (DeviceOp.k1 config.prescribedScale.isSome config.count))
      (launchK1On device config.prescribedScale.isSome variant
        ⟨buffers.values, if config.prescribedScale.isSome = true then buffers.k1Scale
          else buffers.scale, buffers.status⟩
        config.count (some buffers.k1Workspace) config.gridSize :
          CudaRun BenchHost CudaError Unit) :=
    fun state => ⟨_, ran state⟩
  unfold enqueueResident
  rw [if_neg nonempty]
  dsimp only
  rw [present, payload]
  refine (enqueues_try quiet _ _).then fun _ => ?_
  refine (record _).after fun _ => ?_
  refine (enqueues_call quiet _).after fun _ => ?_
  refine k1.then fun _ => ?_
  refine (record _).after fun _ => ?_
  refine (record _).after fun _ => ?_
  refine (enqueues_call quiet _).after fun _ => ?_
  refine (enqueues_launchK2On quiet supported nonempty geometry _ stream).then fun _ => ?_
  refine (record _).after fun _ => ?_
  refine (record _).after fun _ => ?_
  refine (enqueues_call quiet _).after fun _ => ?_
  have last : Enqueues device
      ([k3Op config.bitWidth config.count config.blockSize config.gridSize] ++ []) _ :=
    (enqueues_launchK3On quiet supported nonempty geometry).then fun _ => record .k3Stop
  exact last

/-- What the operations leave: the inputs, the scale and the status of K1, the flags of the
values, and the payload if all values are finite. -/
structure ResidentLeft (config : CudaConfig) (stream : SqRngStream)
    (before after : DeviceMemory) : Prop where
  values : after.values = before.values
  words : after.words = before.words
  prescribed : config.prescribedScale.isSome = true → after.scale = before.scale
  status : match tensorScale before.values config.count with
    | .ok scale => after.status = .ok ∧ (config.prescribedScale = none → after.scale = scale)
    | .error status => after.status = status
  flags : ∀ flag, flag ∈ after.flags ↔
    ∃ i < config.count, flag ∈ elementFlags after.scale (before.values i)
  payload : (∀ i < config.count, isfinite (before.values i) = true) →
    ∀ k < sqPayloadSize config.bitWidth config.count, after.payload k =
      payloadByte config.bitWidth config.count (fun i =>
        elementCode (signedLimit config.bitWidth) after.scale (before.values i)
          (memoryWord config.prescribedWords.isSome stream before i)) k

theorem residentOps_run {launched : List K1Kernel} (shape : K1Shape config.count launched)
    (stream : SqRngStream) (ran : ℕ) (memory : DeviceMemory) :
    ResidentLeft config stream memory
      (runOps device (residentOps config launched stream) ran memory) := by
  unfold residentOps
  rw [runOps_append, runOps_append, runOps_append]
  generalize cleared : runOps device [.clearFlags] ran memory = start
  have scaled := shape.scaleLeft device config.prescribedScale.isSome
    (ran + [DeviceOp.clearFlags].length) start
  generalize runOps device (launched.map (DeviceOp.k1 _ config.count)) _ start = middle at scaled ⊢
  generalize ran + [DeviceOp.clearFlags].length + _ = at_
  have coded : CodesLeft config.bitWidth config.count config.prescribedWords.isSome stream middle
      (runOps device [k2Op config.bitWidth config.count config.prescribedWords.isSome stream
        config.blockSize config.gridSize] at_ middle) :=
    k2Op_run supported nonempty geometry (device.schedule at_) middle
  generalize runOps device [k2Op _ _ _ _ _ _] at_ middle = codes at coded ⊢
  generalize at_ + _ = last
  obtain ⟨kept, packed⟩ := k3Op_run supported nonempty geometry (device.schedule last) codes
  have final : runOps device [k3Op config.bitWidth config.count config.blockSize config.gridSize]
      last codes = (k3Op config.bitWidth config.count config.blockSize config.gridSize).run
        (device.schedule last) codes := rfl
  rw [final]
  generalize (k3Op _ _ _ _).run (device.schedule last) codes = after at kept packed ⊢
  obtain ⟨later, rfl, delivers⟩ := scaled
  have codesKept := coded.kept
  have values : codes.values = start.values := by rw [codesKept]; rfl
  have words : codes.words = start.words := by rw [codesKept]; rfl
  have scale : after.scale = (start.withK1 config.prescribedScale.isSome later).scale := by
    rw [kept, codesKept]
  have status : after.status = later.status := by rw [kept, codesKept]; rfl
  subst cleared
  refine ⟨?_, ?_, ?_, ?_, ?_, ?_⟩
  · rw [kept]
    exact values
  · rw [kept]
    exact words
  · intro prescribed
    rw [scale, DeviceMemory.withK1, prescribed]
    rfl
  · rw [status]
    have measured : later.Delivers (tensorScale memory.values config.count) := delivers
    cases computed : tensorScale memory.values config.count with
    | ok value =>
        rw [computed] at measured
        refine ⟨measured.1, fun none => ?_⟩
        rw [scale, DeviceMemory.withK1, none]
        exact measured.2
    | error status =>
        rw [computed] at measured
        exact measured
  · intro flag
    rw [scale, kept]
    exact coded.flags rfl flag
  · intro finite k below
    rw [packed k below]
    apply payloadByte_congr supported below
    intro i inside
    rw [scale]
    exact coded.codes i inside (finite i inside)

end

/-! ## The record that they leave -/

section

variable [Arith Format.binary32] {config : CudaConfig} {x : F32Array} {loaded : Bool}

/-- The inputs of the kernels are on the device, the values if they have been copied. -/
structure Resident (config : CudaConfig) (x : F32Array) (loaded : Bool) (memory : DeviceMemory) :
    Prop where
  values : loaded = true → ∀ i < x.count, memory.values i = x.get i
  words : ∀ words, config.prescribedWords = some words → ∀ i < x.count, memory.words i = words i
  scale : ∀ scale, config.prescribedScale = some scale → memory.scale = scale

/-- The kernels keep their inputs. -/
theorem ResidentLeft.resident {stream : SqRngStream} {before after : DeviceMemory}
    (left : ResidentLeft config stream before after) (resident : Resident config x loaded before) :
    Resident config x loaded after := by
  constructor
  · rw [left.values]
    exact resident.values
  · rw [left.words]
    exact resident.words
  · intro scale prescribed
    rw [left.prescribed (by rw [prescribed]; rfl)]
    exact resident.scale scale prescribed

end

/-- The kernels leave the record, or an error that the host notices. -/
theorem ResidentLeft.record [RoundedArith Format.binary32] {config : CudaConfig} {x : F32Array}
    {stream : SqRngStream} {before after : DeviceMemory}
    (left : ResidentLeft config stream before after) (resident : Resident config x true before)
    (count : config.count = x.count) (supported : Supported config.bitWidth)
    (nonempty : x.count ≠ 0)
    (accepted : ¬ config.prescribedScale.any fun scale => !isfinite scale || scale.lt zeroF)
    (drawn : sqRngStreamInit config.ids.seed config.ids.tensorId config.ids.invocationId =
      some stream) :
    match config.record x with
    | .ok record =>
        checkBenchResult after.scale config.prescribedScale.isSome after.status after.flags = .ok ∧
          after.scale = record.scale ∧
          ∀ k < sqPayloadSize config.bitWidth x.count,
            after.payload k = payloadByte config.bitWidth x.count record.codes k
    | .error status =>
        checkBenchResult after.scale config.prescribedScale.isSome after.status after.flags =
          status := by
  have values := resident.values rfl
  have measured := left.status
  have flags := left.flags
  have payload := left.payload
  rw [count] at measured flags payload
  rw [tensorScale_congr values] at measured
  cases resolved : resolveScale x config.prescribedScale with
  | error status =>
      -- Only K1 can fail before the values are encoded.
      have unprescribed : config.prescribedScale = none := by
        cases prescribed : config.prescribedScale with
        | none => rfl
        | some scale =>
            rw [prescribed] at resolved
            cases resolved
      have failed : tensorScale x.get x.count = .error status := by
        rw [unprescribed] at resolved
        exact resolved
      have refused : config.record x = .error status := by
        unfold CudaConfig.record tensorRecord
        rw [resolved]
      rw [failed] at measured
      have stops : after.status ≠ .ok := by
        rw [measured]
        exact tensorScale_error failed
      rw [refused, unprescribed]
      exact (if_pos ⟨stops, .inl rfl⟩).trans measured
  | ok scale =>
      have scaleEq : after.scale = scale := by
        cases prescribed : config.prescribedScale with
        | none =>
            rw [prescribed] at resolved
            have computed : tensorScale x.get x.count = .ok scale := resolved
            rw [computed] at measured
            exact measured.2 prescribed
        | some given =>
            rw [prescribed] at resolved
            cases resolved
            rw [left.prescribed (by rw [prescribed]; rfl)]
            exact resident.scale _ prescribed
      obtain ⟨finite, nonneg⟩ := resolveScale_valid accepted resolved
      rw [scaleEq] at flags payload ⊢
      have encoded : compressCheck scale after.flags = encodeStatus x.get x.count scale := by
        rw [compressCheck_eq nonempty finite nonneg flags]
        exact encodeStatus_congr values scale
      have checked : checkBenchResult scale config.prescribedScale.isSome after.status after.flags =
          encodeStatus x.get x.count scale := by
        unfold checkBenchResult
        split
        · rename_i stops
          -- K1 fails beside a prescribed scale: the values are not finite.
          have computed := @scaleComputed_tensorScale _ x.get x.count x.fits
          cases failed : tensorScale x.get x.count with
          | ok value =>
              rw [failed] at measured
              exact absurd measured.1 stops.1
          | error status =>
              rw [failed] at measured computed
              rw [measured] at stops ⊢
              have notOverflow : status ≠ .errScaleOverflow := by
                rcases stops.2 with unseen | other
                · cases prescribed : config.prescribedScale with
                  | none =>
                      rw [prescribed] at resolved
                      cases failed.symm.trans resolved
                  | some given =>
                      rw [prescribed] at unseen
                      cases unseen
                · exact other
              have nonfinite : status = .errNonfinite := by
                by_contra other
                exact stops.1 (computed.otherwise other notOverflow)
              have someNonfinite : allFinite x.get x.count = false :=
                allFinite_eq_false_iff.mpr (computed.nonfinite_iff.mp nonfinite)
              unfold encodeStatus
              rw [if_neg (by simp [finite, nonneg]), if_neg nonempty, someNonfinite]
              exact nonfinite
        · exact encoded
      rw [record_eq supported drawn resolved, checked]
      by_cases ok : encodeStatus x.get x.count scale = .ok
      · rw [if_pos ok]
        refine ⟨ok, rfl, fun k below => ?_⟩
        have allValues := allFinite_iff.mp (encodeStatus_ok_iff.mp ok).2.2.1
        rw [payload (fun i inside => by rw [values i inside]; exact allValues i inside) k below]
        apply payloadByte_congr supported below
        intro i inside
        rw [values i inside]
        congr 1
        unfold memoryWord
        cases prescribed : config.prescribedWords with
        | some words => exact resident.words words prescribed i inside
        | none => rfl
      · rw [if_neg ok]

end Stoquant

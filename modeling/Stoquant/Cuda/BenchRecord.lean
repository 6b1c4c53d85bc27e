import Stoquant.Cuda.Resident

/-!
# The record of a benchmark

Without a failing call `sq_cuda_bench` hands out the record of its tensor at every boundary,
and the comparison that ends the runs of a graph finds that record again.
-/

namespace Stoquant

open Abort Ieee Par

section

variable {device : CudaDevice} {config : CudaConfig}

/-- What the benchmark holds for its caller. -/
def Base (basePayload : Ptr Byte) (baseScale : Option F32) (host : BenchHost) : Prop :=
  host.basePayload = basePayload ∧ host.baseScale = baseScale

/-- The benchmark stops with the status of the record. -/
def Rejects [Arith Format.binary32] (config : CudaConfig) (x : F32Array) (status : SqStatus)
    (_ : CudaState BenchHost) : Prop :=
  config.record x = .error status

/-- The outputs of the kernels are on the host. -/
structure Fetched (config : CudaConfig) (memory : DeviceMemory) (host : BenchHost) : Prop where
  scale : host.scale = memory.scale
  payload : ∀ k < config.payloadBytes, host.payload k = memory.payload k

theorem payloadBytes_eq (config : CudaConfig) :
    config.payloadBytes = sqPayloadSize config.bitWidth config.count := rfl

section

variable {ε : Type} {before after : CudaState BenchHost → Prop}
  {failed : ε → CudaState BenchHost → Prop} {needed : Bool}

theorem ends_whenNeeded {run : CudaRun BenchHost ε Unit}
    (ends : needed = true → Ends before run (fun _ => after) failed)
    (skip : needed = false → ∀ state, before state → after state) :
    Ends before (whenNeeded needed run) (fun _ => after) failed := by
  cases needed with
  | true => exact ends rfl
  | false => exact ends_pure (skip rfl)

theorem ends_stopUnlessOk {status : SqStatus} {failed : SqStatus → CudaState BenchHost → Prop}
    (stops : status ≠ .ok → ∀ state, before state → failed status state)
    (goes : status = .ok → ∀ state, before state → after state) :
    Ends before (stopUnlessOk status) (fun _ => after) failed :=
  ends_ite (fun stopped => ends_throw (stops stopped))
    fun passed => ends_pure (goes (not_not.mp passed))

theorem ends_hostState {holds : DeviceMemory → BenchHost → Prop} :
    Ends (On holds) (hostState : CudaRun BenchHost ε BenchHost)
      (fun host => On fun memory kept => holds memory kept ∧ host = kept) failed :=
  fun _ start => ⟨start.1, start.2, rfl⟩

end

variable (quiet : device.Quiet) {holds : DeviceMemory → BenchHost → Prop}
  {failed : SqStatus → CudaState BenchHost → Prop}
  {lost : CudaError → CudaState BenchHost → Prop}
  {basePayload : Ptr Byte} {baseScale : Option F32}

include quiet

/-! ## Before the first run -/

theorem quiet_allocateHost {Host : Type} {holds : DeviceMemory → Host → Prop}
    {failed : SqStatus → CudaState Host → Prop}
    (found : ∀ calls, device.hostMemory calls = true) (bytes : ℕ) (policy : SqTransferPolicy) :
    Ends (On holds) (allocateHost device bytes policy) (fun _ => On holds) failed := by
  refine ends_ite (fun _ => ?_) fun _ => ?_
  · have pinned : Ends (On holds) (sqCudaTry device (.hostAlloc bytes) id) (fun _ => On holds)
        fun _ _ => False := quiet_call quiet _
    exact Ends.mapError pinned fun _ _ => False.elim
  · intro state start
    have whole : exec (hostMalloc device) state =
        if device.hostMemory state.calls then (.ok (), state)
        else (.error .errMemory, state) := rfl
    rw [whole, found]
    exact start

theorem quiet_allocateBenchHost (found : ∀ calls, device.hostMemory calls = true) :
    Ends (On fun _ host => Base basePayload baseScale host) (allocateBenchHost device config)
      (fun _ => On fun _ host => Base basePayload baseScale host) failed := by
  refine (quiet_allocateHost quiet found _ _).then fun _ => ?_
  refine (quiet_allocateHost quiet found _ _).then fun _ => ?_
  have cleared : Ends (On fun _ host => Base basePayload baseScale host)
      (change (CudaState.onHost fun _ host =>
        { host with scale := zeroF, status := .ok, flags := 0 }))
      (fun _ => On fun _ host => Base basePayload baseScale host) failed :=
    ends_change fun _ start => start
  refine cleared.then fun _ => ?_
  exact ends_whenNeeded (fun _ => quiet_allocateHost quiet found _ _) fun _ _ start => start

theorem quiet_allocateBench (nonempty : config.count ≠ 0) (bound : config.count ≤ uint64Max) :
    Ends (On holds) (allocateBench device config)
      (fun buffers state => BenchReady config buffers ∧ On holds state) failed := by
  have optional : ∀ (needed : Bool) (bytes : ℕ), Ends (On holds)
      (orErrCuda (cudaMallocIf device needed bytes))
      (fun pointer state => (needed = true → pointer.isSome = true) ∧ On holds state) failed := by
    intro needed bytes
    apply Ends.orErrCuda
    refine ends_ite (fun _ => ?_) fun absent => ?_
    · refine (quiet_cudaMalloc quiet _).weaken (fun _ start => start) ?_ fun _ _ => id
      rintro _ _ ⟨⟨_, rfl, _⟩, start⟩
      exact ⟨fun _ => rfl, start⟩
    · exact ends_pure fun _ start => ⟨fun present => absurd present absent, start⟩
  have sized := setK1WorkspaceGeometry_eq nonempty bound ⟨0, 0⟩
  have workspace : Ends (On holds) (benchWorkspace device config)
      (fun workspace state => (setK1WorkspaceGeometry (some ⟨0, 0⟩) config.count =
          (.ok, some workspace.counts) ∧ workspace.maxPartials.isSome = true ∧
        workspace.invalidPartials.isSome = true ∧ workspace.sumsA.isSome = true ∧
        workspace.sumsB.isSome = true) ∧ On holds state) failed := by
    unfold benchWorkspace
    rw [sized]
    refine (Ends.orErrCuda (quiet_allocateK1Workspace quiet _)).weaken (fun _ start => start) ?_
      fun _ _ => id
    rintro _ _ ⟨⟨counts, pointers⟩, start⟩
    exact ⟨⟨by rw [counts], pointers⟩, start⟩
  have buffer : ∀ bytes : ℕ, Ends (On holds) (orErrCuda (cudaMalloc device bytes))
      (fun pointer state => (∃ address, pointer = some address ∧ address % 16 = 0) ∧ On holds state)
      failed := fun bytes => Ends.orErrCuda (quiet_cudaMalloc quiet bytes)
  refine (buffer _).bind fun _ => ends_assuming fun values => ?_
  refine (buffer _).bind fun _ => ends_assuming fun scale => ?_
  refine (buffer _).bind fun _ => ends_assuming fun status => ?_
  refine (buffer _).bind fun _ => ends_assuming fun flags => ?_
  refine (buffer _).bind fun _ => ends_assuming fun codes => ?_
  refine (buffer _).bind fun _ => ends_assuming fun payload => ?_
  refine (optional _ _).bind fun _ => ends_assuming fun k1Scale => ?_
  refine (optional _ _).bind fun _ => ends_assuming fun words => ?_
  refine workspace.bind fun _ => ends_assuming fun ready => ?_
  obtain ⟨_, rfl, -⟩ := scale
  obtain ⟨_, rfl, -⟩ := status
  obtain ⟨_, rfl, -⟩ := flags
  obtain ⟨_, rfl, -⟩ := codes
  obtain ⟨_, rfl, -⟩ := payload
  obtain ⟨geometry, pointers⟩ := ready
  exact ends_pure fun _ start =>
    ⟨⟨values, rfl, k1Scale, rfl, rfl, rfl, rfl, words, geometry, pointers⟩, start⟩

variable {x : F32Array} (values : config.values = x.values) (count : config.count = x.count)

include values count in
theorem quiet_copyValues {loaded : Bool} (kept : BenchHost → Prop) :
    Ends (On fun memory host => Resident config x loaded memory ∧ kept host)
      (copyValues device config)
      (fun _ => On fun memory host => Resident config x true memory ∧ kept host) lost := by
  refine quiet_try quiet fun state ⟨capture, resident, base⟩ => ?_
  refine ⟨capture, ⟨fun _ i inside => ?_, resident.words, resident.scale⟩, base⟩
  show copyFrom config.count (config.values.getD fun _ => zeroF) _ i = _
  rw [values, count]
  exact copyFrom_of_lt inside

include values count in
theorem quiet_benchInputs (kept : BenchHost → Prop) :
    Ends (On fun _ host => kept host) (benchInputs device config)
      (fun _ => On fun memory host =>
        Resident config x (config.boundary ≠ .hostOrigin) memory ∧ kept host) lost := by
  have scale : Ends (On fun _ host => kept host) (copyPrescribedScale device config)
      (fun _ => On fun memory host =>
        (∀ scale, config.prescribedScale = some scale → memory.scale = scale) ∧ kept host)
      lost := by
    unfold copyPrescribedScale
    cases config.prescribedScale with
    | some scale =>
        refine quiet_try quiet fun state ⟨capture, base⟩ => ⟨capture, ?_, base⟩
        intro other same
        cases same
        rfl
    | none =>
        refine ends_pure fun state ⟨capture, base⟩ => ⟨capture, ?_, base⟩
        intro scale same
        cases same
  have words : Ends (On fun memory host =>
        (∀ scale, config.prescribedScale = some scale → memory.scale = scale) ∧ kept host)
      (copyPrescribedWords device config)
      (fun _ => On fun memory host => Resident config x false memory ∧ kept host) lost := by
    unfold copyPrescribedWords
    cases prescribed : config.prescribedWords with
    | some words =>
        refine quiet_try quiet fun state ⟨capture, scale, base⟩ => ?_
        refine ⟨capture, ⟨fun loaded => Bool.noConfusion loaded, fun other same i inside => ?_,
          scale⟩, base⟩
        rw [prescribed] at same
        cases same
        rw [count]
        exact copyFrom_of_lt inside
    | none =>
        refine ends_pure fun state ⟨capture, scale, base⟩ => ?_
        refine ⟨capture, ⟨fun loaded => Bool.noConfusion loaded, fun other same => ?_, scale⟩, base⟩
        rw [prescribed] at same
        cases same
  refine scale.then fun _ => words.then fun _ => ?_
  have loaded : Ends (On fun memory host => Resident config x false memory ∧ kept host)
      (whenNeeded (config.boundary ≠ .hostOrigin) (copyValues device config))
      (fun _ => On fun memory host =>
        Resident config x (config.boundary ≠ .hostOrigin) memory ∧ kept host) lost := by
    refine ends_whenNeeded (fun needed => ?_) fun needed state start => ?_
    · rw [needed]
      exact quiet_copyValues quiet values count kept
    · rw [needed]
      exact start
  exact loaded.then fun _ => quiet_call quiet _

end

/-! ## A run of the pipeline -/

section

variable {device : CudaDevice} {config : CudaConfig} {basePayload : Ptr Byte}
  {baseScale : Option F32} {lost : CudaError → CudaState BenchHost → Prop}
  (quiet : device.Quiet)

include quiet

theorem quiet_copyOutputs {holds : DeviceMemory → Prop} :
    Ends (On fun memory host => holds memory ∧ Base basePayload baseScale host)
      (copyOutputs device config)
      (fun _ => On fun memory host =>
        holds memory ∧ Base basePayload baseScale host ∧ Fetched config memory host) lost := by
  have payload : Ends (On fun memory host => holds memory ∧ Base basePayload baseScale host)
      (whenNeeded (config.payloadBytes ≠ 0)
        (sqCudaTry device (.memcpy config.payloadBytes) (CudaState.onHost fun memory host =>
          { host with payload := copyFrom config.payloadBytes memory.payload host.payload })))
      (fun _ => On fun memory host => holds memory ∧ Base basePayload baseScale host ∧
        ∀ k < config.payloadBytes, host.payload k = memory.payload k) lost := by
    refine ends_whenNeeded (fun _ => ?_) fun none state ⟨capture, kept, base⟩ => ?_
    · refine quiet_try quiet fun state ⟨capture, kept, base⟩ => ⟨capture, kept, base, ?_⟩
      exact fun k below => copyFrom_of_lt below
    · refine ⟨capture, kept, base, fun k below => ?_⟩
      have empty : config.payloadBytes = 0 := by simpa using none
      rw [empty] at below
      exact absurd below (Nat.not_lt_zero k)
  refine payload.then fun _ => ?_
  exact quiet_try quiet fun state ⟨capture, kept, base, bytes⟩ =>
    ⟨capture, kept, base, rfl, bytes⟩

theorem quiet_copyStatus {holds : DeviceMemory → BenchHost → Prop}
    (kept : ∀ memory host status flags, holds memory host →
      holds memory { host with status := status, flags := flags }) :
    Ends (On holds) (copyStatus device)
      (fun _ => On fun memory host => holds memory host ∧ host.status = memory.status ∧
        host.flags = memory.flags) lost := by
  have status : Ends (On holds)
      (sqCudaTry device (.memcpy 4) (CudaState.onHost fun memory host =>
        { host with status := memory.status }))
      (fun _ => On fun memory host => holds memory host ∧ host.status = memory.status) lost :=
    quiet_try quiet fun state ⟨capture, start⟩ => ⟨capture, kept _ _ _ state.host.flags start, rfl⟩
  refine status.then fun _ => ?_
  exact quiet_try quiet fun state ⟨capture, start, same⟩ =>
    ⟨capture, kept _ _ state.host.status _ start, same, rfl⟩

end

section

variable [RoundedArith Format.binary32] {device : CudaDevice} {config : CudaConfig}
  {x : F32Array} {basePayload : Ptr Byte} {baseScale : Option F32}
  {failed : SqStatus → CudaState BenchHost → Prop}
  {lost : CudaError → CudaState BenchHost → Prop}

/-- The resident kernels have run on the inputs. -/
def Made (config : CudaConfig) (x : F32Array) (stream : SqRngStream) (memory : DeviceMemory) :
    Prop :=
  ∃ before, Resident config x true before ∧ ResidentLeft config stream before memory

theorem Made.resident {stream : SqRngStream} {memory : DeviceMemory}
    (made : Made config x stream memory) : Resident config x true memory := by
  obtain ⟨before, resident, left⟩ := made
  exact left.resident resident

/-- What the host has copied is the record, or holds the error of the record. -/
def Inspected (config : CudaConfig) (x : F32Array) (host : BenchHost) : Prop :=
  match config.record x with
  | .ok record =>
      checkBenchResult host.scale config.prescribedScale.isSome host.status host.flags = .ok ∧
        host.scale = record.scale ∧ ∀ k < config.payloadBytes,
          host.payload k = payloadByte config.bitWidth x.count record.codes k
  | .error status =>
      checkBenchResult host.scale config.prescribedScale.isSome host.status host.flags = status

theorem Made.inspected {stream : SqRngStream} {memory : DeviceMemory} {host : BenchHost}
    (made : Made config x stream memory) (fetched : Fetched config memory host)
    (status : host.status = memory.status) (flags : host.flags = memory.flags)
    (count : config.count = x.count) (supported : Supported config.bitWidth)
    (nonempty : config.count ≠ 0)
    (accepted : ¬ config.prescribedScale.any fun scale => !isfinite scale || scale.lt zeroF)
    (drawn : sqRngStreamInit config.ids.seed config.ids.tensorId config.ids.invocationId =
      some stream) :
    Inspected config x host := by
  obtain ⟨before, resident, left⟩ := made
  have outcome := left.record resident count supported (by rw [← count]; exact nonempty) accepted
    drawn
  unfold Inspected
  rw [fetched.scale, status, flags]
  cases recorded : config.record x with
  | ok record =>
      rw [recorded] at outcome
      refine ⟨outcome.1, outcome.2.1, fun k below => ?_⟩
      rw [fetched.payload k below]
      rw [payloadBytes_eq, count] at below
      exact outcome.2.2 k below
  | error refused =>
      rw [recorded] at outcome
      exact outcome

theorem Inspected.ok {host : BenchHost} (inspected : Inspected config x host)
    (passed : checkBenchResult host.scale config.prescribedScale.isSome host.status host.flags =
      .ok) :
    ∃ record, config.record x = .ok record ∧ host.scale = record.scale ∧
      ∀ k < config.payloadBytes,
        host.payload k = payloadByte config.bitWidth x.count record.codes k := by
  unfold Inspected at inspected
  cases recorded : config.record x with
  | ok record =>
      rw [recorded] at inspected
      exact ⟨record, rfl, inspected.2⟩
  | error status =>
      rw [recorded] at inspected
      exact absurd (inspected.symm.trans passed) (tensorRecord_error recorded)

theorem Inspected.error {host : BenchHost} (inspected : Inspected config x host)
    (failed : checkBenchResult host.scale config.prescribedScale.isSome host.status host.flags ≠
      .ok) :
    config.record x = .error
      (checkBenchResult host.scale config.prescribedScale.isSome host.status host.flags) := by
  unfold Inspected at inspected
  cases recorded : config.record x with
  | ok record =>
      rw [recorded] at inspected
      exact absurd inspected.1 failed
  | error status =>
      rw [recorded] at inspected
      rw [inspected]

section

variable (quiet : device.Quiet) (values : config.values = x.values) (count : config.count = x.count)
  (supported : Supported config.bitWidth) (nonempty : config.count ≠ 0)
  (geometry : validLaunchGeometry config.blockSize config.gridSize = true)
  (bound : config.count ≤ uint64Max)
  {buffers : BenchBuffers} (ready : BenchReady config buffers) (variant : K1Variant)
  (stream : SqRngStream)

include quiet supported nonempty geometry bound ready

theorem quiet_enqueueResident (events : Bool) :
    Ends (On fun memory host => Resident config x true memory ∧ Base basePayload baseScale host)
      (enqueueResident device config buffers variant stream events)
      (fun _ => On fun memory host =>
        Made config x stream memory ∧ Base basePayload baseScale host) lost := by
  obtain ⟨launched, shape, enqueues⟩ :=
    enqueues_enqueueResident supported nonempty geometry quiet bound ready variant
  have does : ∀ ran memory host,
      Resident config x true memory ∧ Base basePayload baseScale host →
      Made config x stream (runOps device (residentOps config launched stream) ran memory) ∧
        Base basePayload baseScale host :=
    fun ran memory host ⟨resident, base⟩ =>
      ⟨⟨memory, resident,
        residentOps_run supported nonempty geometry shape stream ran memory⟩, base⟩
  exact (enqueues stream events).on does

include values count

theorem quiet_pipelineCalls {loaded : Bool} (boundary : SqBoundary)
    (copied : loaded = true ∨ boundary = .hostOrigin) (outputs inspect sample : Bool) :
    Ends (On fun memory host => Resident config x loaded memory ∧ Base basePayload baseScale host)
      (pipelineCalls device config buffers variant stream boundary outputs inspect sample)
      (fun _ => On fun memory host => ((Made config x stream memory ∧
        Base basePayload baseScale host) ∧ (outputs = true → Fetched config memory host)) ∧
        (inspect = true → host.status = memory.status ∧ host.flags = memory.flags)) lost := by
  have input : Ends
      (On fun memory host => Resident config x loaded memory ∧ Base basePayload baseScale host)
      (whenNeeded (decide (boundary = .hostOrigin)) do
        recordEvent device .h2dStart
        copyValues device config
        recordEvent device .h2dStop)
      (fun _ => On fun memory host =>
        Resident config x true memory ∧ Base basePayload baseScale host) lost := by
    refine ends_whenNeeded (fun _ => ?_) fun other state start => ?_
    · refine (quiet_call quiet _).then fun _ => ?_
      refine (quiet_copyValues quiet values count _).then fun _ => ?_
      exact quiet_call quiet _
    · have notOrigin : boundary ≠ .hostOrigin := by simpa using other
      rw [copied.resolve_right notOrigin] at start
      exact start
  have output : Ends
      (On fun memory host => Made config x stream memory ∧ Base basePayload baseScale host)
      (whenNeeded outputs do
        recordEvent device .d2hStart
        copyOutputs device config
        recordEvent device .d2hStop)
      (fun _ => On fun memory host => (Made config x stream memory ∧
        Base basePayload baseScale host) ∧ (outputs = true → Fetched config memory host))
      lost := by
    refine ends_whenNeeded (fun _ => ?_) fun none state ⟨capture, start⟩ =>
      ⟨capture, start, fun needed => absurd (none.symm.trans needed) Bool.false_ne_true⟩
    refine (quiet_call quiet _).then fun _ => ?_
    have fetched : Ends
        (On fun memory host => Made config x stream memory ∧ Base basePayload baseScale host)
        (copyOutputs device config)
        (fun _ => On fun memory host => Made config x stream memory ∧
          Base basePayload baseScale host ∧ Fetched config memory host) lost :=
      quiet_copyOutputs quiet
    refine fetched.then fun _ => ?_
    refine (quiet_call quiet _).weaken (fun _ start => start) ?_ fun _ _ => id
    rintro _ state ⟨capture, made, base, fetched⟩
    exact ⟨capture, ⟨made, base⟩, fun _ => fetched⟩
  refine input.then fun _ => ?_
  refine (quiet_call quiet _).then fun _ => ?_
  refine (quiet_enqueueResident quiet supported nonempty geometry bound ready variant stream
    true).then fun _ => ?_
  refine output.then fun _ => ?_
  have status : Ends
      (On fun memory host => (Made config x stream memory ∧ Base basePayload baseScale host) ∧
        (outputs = true → Fetched config memory host))
      (whenNeeded inspect (copyStatus device))
      (fun _ => On fun memory host => ((Made config x stream memory ∧
        Base basePayload baseScale host) ∧ (outputs = true → Fetched config memory host)) ∧
        (inspect = true → host.status = memory.status ∧ host.flags = memory.flags)) lost := by
    refine ends_whenNeeded (fun _ => ?_) fun none state ⟨capture, start⟩ =>
      ⟨capture, start, fun needed => absurd (none.symm.trans needed) Bool.false_ne_true⟩
    have kept : ∀ memory (host : BenchHost) status flags,
        ((Made config x stream memory ∧ Base basePayload baseScale host) ∧
          (outputs = true → Fetched config memory host)) →
        (Made config x stream memory ∧
          Base basePayload baseScale { host with status := status, flags := flags }) ∧
          (outputs = true →
            Fetched config memory { host with status := status, flags := flags }) :=
      fun memory host status flags ⟨start, fetched⟩ =>
        ⟨start, fun needed => ⟨(fetched needed).scale, (fetched needed).payload⟩⟩
    refine (quiet_copyStatus quiet kept).weaken (fun _ start => start) ?_ fun _ _ => id
    rintro _ state ⟨capture, start, same⟩
    exact ⟨capture, start, fun _ => same⟩
  refine status.then fun _ => ?_
  refine (quiet_call quiet _).then fun _ => ?_
  refine ends_whenNeeded (fun _ => ?_) fun _ _ start => start
  refine (quiet_call quiet _).then fun _ => ?_
  refine (quiet_call quiet _).then fun _ => ?_
  refine (quiet_call quiet _).then fun _ => ?_
  refine (ends_whenNeeded (fun _ => quiet_call quiet _) fun _ _ start => start).then fun _ => ?_
  exact ends_whenNeeded (fun _ => quiet_call quiet _) fun _ _ start => start

theorem quiet_timedPipeline {invocationId : BitVec 64}
    (drawn : sqRngStreamInit config.ids.seed config.ids.tensorId invocationId = some stream)
    (boundary : SqBoundary) (outputs sample : Bool) :
    Ends (On fun memory host => Resident config x true memory ∧ Base basePayload baseScale host)
      (runBenchPipeline device config buffers variant invocationId boundary outputs false sample)
      (fun _ => On fun memory host =>
        Resident config x true memory ∧ Base basePayload baseScale host) failed := by
  unfold runBenchPipeline
  rw [drawn]
  refine (Ends.orErrCuda (quiet_pipelineCalls quiet values count supported nonempty geometry bound
    ready variant stream boundary (.inl rfl) outputs false sample)).then fun _ => ?_
  refine ends_hostState.bind fun host => ?_
  exact ends_pure fun state ⟨capture, ⟨⟨⟨made, base⟩, _⟩, _⟩, _⟩ => ⟨capture, made.resident, base⟩

theorem quiet_preflight {loaded : Bool}
    (accepted : ¬ config.prescribedScale.any fun scale => !isfinite scale || scale.lt zeroF)
    (drawn : sqRngStreamInit config.ids.seed config.ids.tensorId config.ids.invocationId =
      some stream)
    (boundary : SqBoundary) (copied : loaded = true ∨ boundary = .hostOrigin) :
    Ends (On fun memory host => Resident config x loaded memory ∧ Base basePayload baseScale host)
      (runBenchPipeline device config buffers variant config.ids.invocationId boundary true true
        false)
      (fun _ => On fun memory host => ∃ record, config.record x = .ok record ∧
        Resident config x true memory ∧ Base basePayload baseScale host ∧
        host.scale = record.scale ∧ ∀ k < config.payloadBytes,
          host.payload k = payloadByte config.bitWidth x.count record.codes k)
      (Rejects config x) := by
  unfold runBenchPipeline
  rw [drawn]
  refine (Ends.orErrCuda (quiet_pipelineCalls quiet values count supported nonempty geometry bound
    ready variant stream boundary copied true true false)).then fun _ => ?_
  refine ends_hostState.bind fun host => ?_
  refine ends_whenNeeded (fun _ => ?_) fun other => Bool.noConfusion other
  refine ends_stopUnlessOk (fun failed state start => ?_) fun passed state start => ?_
  · obtain ⟨-, ⟨⟨⟨made, -⟩, fetched⟩, same⟩, rfl⟩ := start
    obtain ⟨status, flags⟩ := same rfl
    exact (made.inspected (fetched rfl) status flags count supported nonempty accepted
      drawn).error failed
  · obtain ⟨capture, ⟨⟨⟨made, base⟩, fetched⟩, same⟩, rfl⟩ := start
    obtain ⟨status, flags⟩ := same rfl
    obtain ⟨record, recorded, scale, payload⟩ := (made.inspected (fetched rfl) status flags count
      supported nonempty accepted drawn).ok passed
    exact ⟨capture, record, recorded, made.resident, base, scale, payload⟩

end

end

/-! ## A graph -/

/-- While a capture is open, the operations captured so far. -/
def Capturing (ops : List DeviceOp) (holds : DeviceMemory → BenchHost → Prop)
    (state : CudaState BenchHost) : Prop :=
  state.capture = some ops ∧ holds state.memory state.host

section

variable [Arith Format.binary32] {device : CudaDevice} {config : CudaConfig}
  {holds : DeviceMemory → BenchHost → Prop} {failed : SqStatus → CudaState BenchHost → Prop}
  {ops : List DeviceOp}

theorem Enqueues.captured {run : CudaRun BenchHost CudaError Unit}
    (enqueues : Enqueues device ops run) :
    Ends (Capturing [] holds) (outcomeOf run)
      (fun captured state => captured = .ok () ∧ Capturing ops holds state) failed := by
  intro state start
  obtain ⟨calls, ran⟩ := enqueues state
  obtain ⟨opened, kept⟩ := start
  have whole : exec (outcomeOf run) state =
      ((.ok (exec run state).1 : Except SqStatus (Except CudaError Unit)),
        (exec run state).2) := rfl
  rw [whole, ran]
  refine ⟨rfl, ?_⟩
  show Capturing ops holds (CudaState.enqueue device ops _)
  unfold CudaState.enqueue
  dsimp only
  rw [opened]
  exact ⟨rfl, kept⟩

variable (quiet : device.Quiet)

include quiet

theorem quiet_captureGraph {buffers : BenchBuffers} {variant : K1Variant} {stream : SqRngStream}
    (enqueues : Enqueues device ops
      (enqueueResident device config buffers variant stream false)) :
    Ends (On holds) (captureGraph device config buffers variant stream)
      (fun graph state => graph = ops ∧ On holds state) failed := by
  have opened : Ends (On holds)
      (orErrCuda (sqCudaTry device .beginCapture (CudaState.capturing (some []))))
      (fun _ => Capturing [] holds) failed := by
    apply Ends.orErrCuda
    exact quiet_try quiet fun state start => ⟨rfl, start.2⟩
  have graph : Ends (Capturing ops holds) capturedOps
      (fun graph state => graph = ops ∧ Capturing ops holds state) failed := by
    intro state start
    refine ⟨?_, start⟩
    show state.capture.getD [] = ops
    rw [start.1]
    rfl
  have closed : Ends (Capturing ops holds)
      (orErrCuda (sqCudaTry device .endCapture (CudaState.capturing none)))
      (fun _ => On holds) failed := by
    apply Ends.orErrCuda
    exact quiet_try quiet fun state start => ⟨rfl, start.2⟩
  refine opened.then fun _ => ?_
  refine enqueues.captured.bind fun captured => ends_assuming fun made => ?_
  subst made
  refine graph.bind fun found => ends_assuming fun same => ?_
  subst same
  refine closed.then fun _ => ?_
  refine (quiet_step quiet _).then fun _ => ?_
  exact ends_pure fun state start => ⟨rfl, start⟩

theorem quiet_launchGraph {graph : List DeviceOp} {before after : DeviceMemory → BenchHost → Prop}
    (does : ∀ ran memory host, before memory host → after (runOps device graph ran memory) host) :
    Ends (On before) (orErrCuda (launchGraph device graph)) (fun _ => On after) failed := by
  apply Ends.orErrCuda
  have launched : Ends (On before)
      (sqCudaTry device .graphLaunch (CudaState.enqueue device graph)) (fun _ => On after)
      fun _ _ => False := (enqueues_try quiet _ _).on does
  exact launched.then fun _ => quiet_call quiet _

end

section

variable [RoundedArith Format.binary32] {device : CudaDevice} {config : CudaConfig}
  {x : F32Array} {failed : SqStatus → CudaState BenchHost → Prop}
  {lost : CudaError → CudaState BenchHost → Prop}

/-- The caller has the record. -/
def HasRecord (config : CudaConfig) (x : F32Array) (payload : ℕ → Byte) (record : TensorRecord)
    (host : BenchHost) : Prop :=
  Base (some (packCodes config.bitWidth x.count record.codes payload)) (some record.scale) host

variable {payload : ℕ → Byte} {record : TensorRecord}

omit [RoundedArith Format.binary32] in
/-- The record that a graph left is that of the caller. -/
theorem HasRecord.same {host : BenchHost} (base : HasRecord config x payload record host)
    (count : config.count = x.count) (scale : host.scale = record.scale)
    (bytes : ∀ k < config.payloadBytes,
      host.payload k = payloadByte config.bitWidth x.count record.codes k) :
    sameAsBase config host = true := by
  obtain ⟨basePayload, baseScale⟩ := base
  unfold sameAsBase
  rw [basePayload, baseScale, scale, Bool.and_eq_true, List.all_eq_true]
  refine ⟨decide_eq_true rfl, fun k member => ?_⟩
  have below := List.mem_range.mp member
  rw [decide_eq_true_eq, bytes k below]
  rw [payloadBytes_eq, count] at below
  exact (if_pos below).symm

variable (quiet : device.Quiet)

include quiet

omit [RoundedArith Format.binary32] in
theorem quiet_poisonPayload {base : Ptr Byte} {baseScale : Option F32} :
    Ends (On fun memory host => Resident config x true memory ∧ Base base baseScale host)
      (poisonPayload device config)
      (fun _ => On fun memory host => Resident config x true memory ∧ Base base baseScale host)
      lost := by
  have poisoned : Ends
      (On fun memory host => Resident config x true memory ∧ Base base baseScale host)
      (change (CudaState.onHost fun _ host =>
        { host with
          payload := copyFrom config.payloadBytes
            (fun i => ~~~ (host.basePayload.getD fun _ => 0#8) i) host.payload }))
      (fun _ => On fun memory host => Resident config x true memory ∧ Base base baseScale host)
      lost := ends_change fun _ start => start
  refine poisoned.then fun _ => ?_
  refine ends_hostState.bind fun host => ?_
  refine Ends.then (quiet_try quiet fun state start => ?_) fun _ => quiet_call quiet _
  obtain ⟨capture, ⟨resident, base⟩, -⟩ := start
  exact ⟨capture, ⟨resident.values, resident.words, resident.scale⟩, base⟩

variable (values : config.values = x.values) (count : config.count = x.count)
  (supported : Supported config.bitWidth) (nonempty : config.count ≠ 0)
  (accepted : ¬ config.prescribedScale.any fun scale => !isfinite scale || scale.lt zeroF)
  {stream : SqRngStream}
  (drawn : sqRngStreamInit config.ids.seed config.ids.tensorId config.ids.invocationId =
    some stream)
  (recorded : config.record x = .ok record)

include count supported nonempty accepted drawn recorded

theorem quiet_checkGraph :
    Ends (On fun memory host =>
        Made config x stream memory ∧ HasRecord config x payload record host)
      (checkGraph device config)
      (fun _ => On fun _ host => HasRecord config x payload record host) failed := by
  have outputs : Ends
      (On fun memory host => Made config x stream memory ∧ HasRecord config x payload record host)
      (orErrCuda (copyOutputs device config))
      (fun _ => On fun memory host => Made config x stream memory ∧
        HasRecord config x payload record host ∧ Fetched config memory host) failed :=
    Ends.orErrCuda (quiet_copyOutputs quiet)
  have kept : ∀ memory (host : BenchHost) status flags,
      (Made config x stream memory ∧ HasRecord config x payload record host ∧
        Fetched config memory host) →
      Made config x stream memory ∧
        HasRecord config x payload record { host with status := status, flags := flags } ∧
        Fetched config memory { host with status := status, flags := flags } :=
    fun memory host status flags ⟨made, base, fetched⟩ =>
      ⟨made, base, fetched.scale, fetched.payload⟩
  refine outputs.then fun _ => ?_
  refine (Ends.orErrCuda (quiet_copyStatus quiet kept)).then fun _ => ?_
  refine (quiet_step quiet _).then fun _ => ?_
  refine ends_hostState.bind fun host => ?_
  have inspected : ∀ state, On (fun memory kept => ((Made config x stream memory ∧
      HasRecord config x payload record kept ∧ Fetched config memory kept) ∧
      kept.status = memory.status ∧ kept.flags = memory.flags) ∧ host = kept) state →
      Inspected config x host := by
    rintro state ⟨-, ⟨⟨made, -, fetched⟩, status, flags⟩, rfl⟩
    exact made.inspected fetched status flags count supported nonempty accepted drawn
  refine Ends.then (ends_stopUnlessOk (fun stopped state start => ?_) fun _ _ start => start)
    fun _ => ?_
  · have refused := (inspected state start).error stopped
    rw [recorded] at refused
    cases refused
  · refine ends_stopUnlessOk (fun stopped state start => ?_) fun _ state start => ?_
    · refine absurd (if_pos ?_) stopped
      have found := inspected state start
      unfold Inspected at found
      rw [recorded] at found
      obtain ⟨-, ⟨⟨-, base, -⟩, -⟩, rfl⟩ := start
      exact base.same count found.2.1 found.2.2
    · exact ⟨start.1, start.2.1.1.2.1⟩

variable (geometry : validLaunchGeometry config.blockSize config.gridSize = true)
  (bound : config.count ≤ uint64Max)
  {buffers : BenchBuffers} (ready : BenchReady config buffers) (variant : K1Variant)
  (runs : (config.warmups + config.reps).toNat ≠ 0)

include geometry bound ready runs

theorem quiet_runBenchGraph :
    Ends (On fun memory host =>
        Resident config x true memory ∧ HasRecord config x payload record host)
      (runBenchGraph device config buffers variant config.ids.invocationId)
      (fun _ => On fun _ host => HasRecord config x payload record host) failed := by
  obtain ⟨launched, shape, enqueues⟩ :=
    enqueues_enqueueResident supported nonempty geometry quiet bound ready variant
  have does : ∀ ran memory host,
      Resident config x true memory ∧ HasRecord config x payload record host →
      Made config x stream (runOps device (residentOps config launched stream) ran memory) ∧
        HasRecord config x payload record host :=
    fun ran memory host ⟨resident, base⟩ =>
      ⟨⟨memory, resident,
        residentOps_run supported nonempty geometry shape stream ran memory⟩, base⟩
  have some : List.range (config.warmups + config.reps).toNat ≠ [] := by
    rw [ne_eq, List.range_eq_nil]
    exact runs
  unfold runBenchGraph
  rw [drawn]
  refine Ends.then (ends_whenNeeded (fun _ => Ends.orErrCuda (quiet_poisonPayload quiet))
    fun _ _ start => start) fun _ => ?_
  refine (quiet_captureGraph quiet (enqueues stream false)).bind
    fun graph => ends_assuming fun same => ?_
  subst same
  have launch : Ends
      (On fun memory host => Resident config x true memory ∧ HasRecord config x payload record host)
      (orErrCuda (launchGraph device (residentOps config launched stream)))
      (fun _ => On fun memory host =>
        Made config x stream memory ∧ HasRecord config x payload record host) failed :=
    quiet_launchGraph quiet does
  refine (ends_forM_last some (fun _ _ => launch) ?_).then fun _ => ?_
  · intro state start
    exact ⟨start.1, start.2.1.resident, start.2.2⟩
  · refine ends_whenNeeded (fun _ => quiet_checkGraph quiet count supported nonempty accepted drawn
      recorded) fun _ state start => ⟨start.1, start.2.2⟩

variable (invocations : ∀ index < (config.warmups + config.reps).toNat, ∃ stream,
    sqRngStreamInit config.ids.seed config.ids.tensorId (config.invocation index) = some stream)
  (first : config.invocation config.warmups.toNat = config.ids.invocationId)

include values invocations first

theorem quiet_benchRuns :
    Ends (On fun memory host =>
        Resident config x true memory ∧ HasRecord config x payload record host)
      (benchRuns device config buffers variant)
      (fun _ => On fun _ host => HasRecord config x payload record host) failed := by
  refine ends_ite (fun _ => ?_) fun _ => ?_
  · rw [first]
    exact quiet_runBenchGraph quiet count supported nonempty accepted drawn recorded geometry bound
      ready variant runs
  · have timed : ∀ index ∈ List.range (config.warmups + config.reps).toNat, Ends
        (On fun memory host =>
          Resident config x true memory ∧ HasRecord config x payload record host)
        (runBenchPipeline device config buffers variant (config.invocation index) config.boundary
          (decide (config.boundary = .hostOrigin ∨ config.boundary = .gpuOrigin)) false
          (decide (config.warmups.toNat ≤ index)))
        (fun _ => On fun memory host =>
          Resident config x true memory ∧ HasRecord config x payload record host) failed := by
      intro index member
      obtain ⟨other, drawn'⟩ := invocations index (List.mem_range.mp member)
      exact quiet_timedPipeline quiet values count supported nonempty geometry bound ready variant
        other drawn' _ _ _
    exact (ends_forM timed).weaken (fun _ start => start)
      (fun _ state start => ⟨start.1, start.2.2⟩) fun _ _ => id

end

section

variable [RoundedArith Format.binary32] {device : CudaDevice} {config : CudaConfig}
  {x : F32Array} {payload : ℕ → Byte} {baseScale : Option F32} {stream : SqRngStream}
  (quiet : device.Quiet)
  (invocations : ∀ index < (config.warmups + config.reps).toNat, ∃ stream,
    sqRngStreamInit config.ids.seed config.ids.tensorId (config.invocation index) = some stream)
  (runs : (config.warmups + config.reps).toNat ≠ 0)
  (first : config.invocation config.warmups.toNat = config.ids.invocationId) (variant : K1Variant)

include quiet runs invocations first

theorem quiet_benchTensor (values : config.values = x.values) (count : config.count = x.count)
    (supported : Supported config.bitWidth) (nonempty : config.count ≠ 0)
    (accepted : ¬ config.prescribedScale.any fun scale => !isfinite scale || scale.lt zeroF)
    (drawn : sqRngStreamInit config.ids.seed config.ids.tensorId config.ids.invocationId =
      some stream)
    (geometry : validLaunchGeometry config.blockSize config.gridSize = true) :
    Ends (On fun _ host => Base (some payload) baseScale host) (benchTensor device config variant)
      (fun _ => On fun _ host => ∃ record, config.record x = .ok record ∧
        HasRecord config x payload record host) (Rejects config x) := by
  have bound : config.count ≤ uint64Max := by
    rw [count]
    exact x.count_le
  refine (quiet_allocateBench quiet nonempty bound).bind fun buffers => ?_
  refine ends_assuming fun ready => ?_
  refine (Ends.orErrCuda (quiet_benchInputs quiet values count _)).then fun _ => ?_
  have copied : decide (config.boundary ≠ .hostOrigin) = true ∨
      (if config.boundary = .hostOrigin then SqBoundary.hostOrigin else .resident) =
        .hostOrigin := by
    by_cases origin : config.boundary = .hostOrigin
    · exact .inr (if_pos origin)
    · exact .inl (decide_eq_true origin)
  refine (quiet_preflight quiet values count supported nonempty geometry bound ready variant stream
    accepted drawn _ copied).then fun _ => ?_
  intro state start
  obtain ⟨capture, record, recorded, resident, base, scale, bytes⟩ := start
  have stored : Ends
      (On fun memory host => Resident config x true memory ∧ Base (some payload) baseScale host ∧
        host.scale = record.scale ∧ ∀ k < config.payloadBytes,
          host.payload k = payloadByte config.bitWidth x.count record.codes k)
      (change (CudaState.onHost fun _ host =>
        { host with
          basePayload := host.basePayload.map (copyFrom config.payloadBytes host.payload)
          baseScale := some host.scale }))
      (fun _ => On fun memory host =>
        Resident config x true memory ∧ HasRecord config x payload record host)
      (Rejects config x) := by
    refine ends_change fun state start => ?_
    obtain ⟨capture, resident, ⟨basePayload, -⟩, scale, bytes⟩ := start
    refine ⟨capture, resident, ?_, congrArg some scale⟩
    show state.host.basePayload.map _ = _
    rw [basePayload]
    refine congrArg some (funext fun k => ?_)
    unfold copyFrom packCodes
    rw [payloadBytes_eq, count] at bytes ⊢
    split
    · exact bytes k ‹_›
    · rfl
  have rest : Ends
      (On fun memory host => Resident config x true memory ∧ Base (some payload) baseScale host ∧
        host.scale = record.scale ∧ ∀ k < config.payloadBytes,
          host.payload k = payloadByte config.bitWidth x.count record.codes k) _
      (fun _ => On fun _ host => ∃ record, config.record x = .ok record ∧
        HasRecord config x payload record host) (Rejects config x) :=
    stored.then fun _ => (quiet_benchRuns quiet values count supported nonempty accepted drawn
      recorded geometry bound ready variant runs invocations first).weaken (fun _ start => start)
      (fun _ _ done => ⟨done.1, record, recorded, done.2⟩) fun _ _ => id
  exact rest state ⟨capture, resident, base, scale, bytes⟩

omit invocations runs in
theorem quiet_benchEmpty (empty : config.count = 0)
    (drawn : sqRngStreamInit config.ids.seed config.ids.tensorId config.ids.invocationId =
      some stream) {failed : SqStatus → CudaState BenchHost → Prop} :
    Ends (On fun _ host => Base (some payload) baseScale host) (benchEmpty device config variant)
      (fun _ => On fun _ host => Base (some payload) (some zeroF) host) failed := by
  have scale : Ends (On fun _ host => Base (some payload) baseScale host)
      (change (CudaState.onHost fun _ host => { host with baseScale := some zeroF }))
      (fun _ => On fun _ host => Base (some payload) (some zeroF) host) failed :=
    ends_change fun _ start => ⟨start.1, start.2.1, rfl⟩
  refine scale.then fun _ => ends_ite (fun _ => ?_) fun _ => ?_
  · have none : config.payloadBytes = 0 := by
      rw [payloadBytes_eq, empty]
      unfold sqPayloadSize
      split <;> rfl
    have nothing : Enqueues device []
        (enqueueResident device config noBenchBuffers variant stream false) := by
      unfold enqueueResident
      rw [if_pos empty]
      exact enqueues_pure
    rw [first]
    unfold runBenchGraph
    rw [drawn]
    refine Ends.then (ends_whenNeeded (fun needed => ?_) fun _ _ start => start) fun _ => ?_
    · exact absurd none (by simpa using needed)
    refine (quiet_captureGraph quiet nothing).bind fun graph => ends_assuming fun same => ?_
    subst same
    have launch : Ends (On fun _ host => Base (some payload) (some zeroF) host)
        (orErrCuda (launchGraph device []))
        (fun _ => On fun _ host => Base (some payload) (some zeroF) host) failed :=
      quiet_launchGraph quiet fun _ _ _ base => base
    refine (ends_forM fun _ _ => launch).then fun _ => ?_
    refine ends_whenNeeded (fun needed => ?_) fun _ _ start => start
    exact absurd empty (by simpa using needed)
  · exact ends_forM fun _ _ => quiet_step quiet _

theorem quiet_benchOnDevice (found : ∀ calls, device.hostMemory calls = true)
    (values : config.values = x.values) (count : config.count = x.count)
    (supported : Supported config.bitWidth)
    (accepted : ¬ config.prescribedScale.any fun scale => !isfinite scale || scale.lt zeroF)
    (zero : ¬ (config.count = 0 ∧ config.prescribedScale.any (fun scale => !scale.eq zeroF)))
    (drawn : sqRngStreamInit config.ids.seed config.ids.tensorId config.ids.invocationId =
      some stream)
    (geometry : validLaunchGeometry config.blockSize config.gridSize = true) :
    Ends (On fun _ host => Base (some payload) baseScale host)
      (benchOnDevice device config variant)
      (fun _ => On fun _ host => ∃ record, config.record x = .ok record ∧
        Base (some (packCodes config.bitWidth x.count record.codes payload))
          (some (if x.count = 0 then zeroF else record.scale)) host) (Rejects config x) := by
  refine (quiet_deviceAvailable quiet).then fun _ => ?_
  refine (quiet_step quiet _).then fun _ => ?_
  refine (Ends.orErrCuda (quiet_createEvents quiet _)).then fun _ => ?_
  refine (quiet_allocateBenchHost quiet found).then fun _ => ?_
  refine ends_ite (fun empty => ?_) fun nonempty => ?_
  · have none := count.symm.trans empty
    have made := record_empty supported drawn accepted none
    rw [if_neg fun any => zero ⟨empty, any⟩] at made
    obtain ⟨codes, made⟩ := made
    refine (quiet_benchEmpty quiet first variant empty drawn).weaken
      (fun _ start => start) (fun _ state done => ?_) fun _ _ => id
    refine ⟨done.1, _, made, ?_, ?_⟩
    · rw [none, packCodes_empty]
      exact done.2.1
    · rw [if_pos none]
      exact done.2.2
  · refine (quiet_benchTensor quiet invocations runs first variant values count supported nonempty
      accepted drawn geometry).weaken (fun _ start => start) (fun _ state done => ?_) fun _ _ => id
    obtain ⟨capture, record, recorded, base⟩ := done
    refine ⟨capture, record, recorded, base.1, ?_⟩
    rw [if_neg fun none => nonempty (count.trans none)]
    exact base.2

end

/-! ## The arguments -/

theorem benchArguments_ok {config : CudaConfig} {basePayload : Ptr Byte} {baseScale : Option F32}
    {samples : Bool} (accepted : benchArguments config basePayload baseScale samples = .ok) :
    Supported config.bitWidth ∧ config.k1Variant.isSome = true ∧ config.reps ≠ 0#64 ∧
      validLaunchGeometry config.blockSize config.gridSize = true ∧
      (¬ config.prescribedScale.any fun scale => !isfinite scale || scale.lt zeroF) ∧
      invocationRangeValidWord config.ids.tensorId config.ids.invocationId config.warmups
        config.reps config.invocationIdStep = true ∧
      ¬ (config.count = 0 ∧ config.prescribedScale.any (fun scale => !scale.eq zeroF)) := by
  unfold benchArguments at accepted
  dsimp only at accepted
  split at accepted
  · cases accepted
  rename_i width
  split at accepted
  · cases accepted
  rename_i pointers
  split at accepted
  · cases accepted
  rename_i variant
  split at accepted
  · cases accepted
  rename_i launch
  split at accepted
  · cases accepted
  rename_i scale
  split at accepted
  · cases accepted
  rename_i range
  split at accepted
  · cases accepted
  rename_i empty
  refine ⟨?_, ?_, ?_, ?_, scale, by simpa using range, empty⟩
  · unfold Supported
    by_contra neither
    exact width (not_or.mp neither)
  · exact Option.isSome_iff_ne_none.mpr variant
  · exact fun none => pointers (.inr (.inr (.inr (.inl none))))
  · by_contra invalid
    exact launch (.inl (by simpa using invalid))

section

variable {config : CudaConfig}
  (valid : invocationRangeValidWord config.ids.tensorId config.ids.invocationId config.warmups
    config.reps config.invocationIdStep = true)

include valid

/-- The number of runs does not wrap, and every run has a stream. -/
theorem invocation_drawn :
    (config.warmups + config.reps).toNat = config.warmups.toNat + config.reps.toNat ∧
      ∀ index < (config.warmups + config.reps).toNat, ∃ stream,
        sqRngStreamInit config.ids.seed config.ids.tensorId (config.invocation index) =
          some stream := by
  rw [invocationRangeValidWord_eq] at valid
  have repsLt := config.reps.isLt
  have limit : uint64Max = 2 ^ 64 - 1 := rfl
  have repsFit : config.reps.toNat ≤ uint64Max := by omega
  obtain ⟨-, total, tensorId, -⟩ := (sqInvocationRangeValid_iff repsFit).mp valid
  have sum : (config.warmups + config.reps).toNat =
      config.warmups.toNat + config.reps.toNat := by
    rw [BitVec.toNat_add]
    omega
  refine ⟨sum, fun index inside => ?_⟩
  rw [sum] at inside
  obtain ⟨same, narrow⟩ := sqRunInvocationId_eq valid repsFit inside
  have wide : (config.invocation index).toNat ≤ uint32Max := by
    unfold CudaConfig.invocation
    rw [runInvocationIdWord_toNat, BitVec.toNat_ofNat, Nat.mod_eq_of_lt (by omega), same]
    exact narrow
  exact ⟨_, if_neg (by omega)⟩

theorem invocation_first (reps : config.reps ≠ 0#64) :
    config.invocation config.warmups.toNat = config.ids.invocationId := by
  obtain ⟨repetition, -, -⟩ := invocationIds_of_valid valid
  have some : 0 < config.reps.toNat :=
    Nat.pos_of_ne_zero fun none => reps (BitVec.eq_of_toNat_eq none)
  have base := repetition 0 some
  rw [Nat.zero_mul, Nat.add_zero] at base
  apply BitVec.eq_of_toNat_eq
  rw [← base, CudaConfig.invocation, BitVec.ofNat_toNat, BitVec.setWidth_eq, BitVec.add_zero]

end

/-- The outcome for the result of making the record: its error, or the record in the caller's
payload and scale.  An empty tensor has the scale that `sq_cuda_bench` writes for it. -/
structure BenchOutcome.HandsOut (bench : BenchOutcome) (bitWidth count : ℕ) (payload : ℕ → Byte)
    (made : Except SqStatus TensorRecord) : Prop where
  error : ∀ status, made = .error status → bench.status = status
  ok : ∀ record, made = .ok record → bench.status = .ok ∧
    bench.basePayload = some (packCodes bitWidth count record.codes payload) ∧
    bench.baseScale = some (if count = 0 then zeroF else record.scale)

section

variable [RoundedArith Format.binary32] {device : CudaDevice} (quiet : device.Quiet)
  (found : ∀ calls, device.hostMemory calls = true) {x : F32Array} {config : CudaConfig}
  {payload : ℕ → Byte} {scale : F32} (memory : DeviceMemory) (hostPayload : ℕ → Byte)

/-- A benchmark whose arguments are refused returns their status. -/
theorem sqCudaBench_refused {status : SqStatus}
    (refused : benchArguments config (some payload) (some scale) true = status)
    (failed : status ≠ .ok) :
    (sqCudaBench device (some config) (some payload) (some scale) true memory
      hostPayload).status = status := by
  unfold sqCudaBench
  dsimp only
  rw [refused]
  cases status with
  | ok => exact absurd rfl failed
  | _ => rfl

include quiet found

/-- The outcome of a benchmark whose arguments are accepted, or refused with the status of its
tensor's record. -/
theorem sqCudaBench_handsOut (values : config.values = x.values) (count : config.count = x.count)
    (arguments : benchArguments config (some payload) (some scale) true = .ok ∨
      tensorRecord config.bitWidth x config.ids config.prescribedScale config.prescribedWords =
        .error (benchArguments config (some payload) (some scale) true)) :
    (sqCudaBench device (some config) (some payload) (some scale) true memory
      hostPayload).HandsOut config.bitWidth x.count payload
        (tensorRecord config.bitWidth x config.ids config.prescribedScale
          config.prescribedWords) := by
  rcases arguments with accepted | refused
  swap
  · have status : (sqCudaBench device (some config) (some payload) (some scale) true memory
        hostPayload).status = benchArguments config (some payload) (some scale) true :=
      sqCudaBench_refused memory hostPayload rfl (tensorRecord_error refused)
    refine ⟨fun other same => ?_, fun record same => ?_⟩
    · rw [status]
      exact Except.error.inj (refused.symm.trans same)
    · rw [refused] at same
      cases same
  obtain ⟨supported, variant, reps, geometry, scaleValid, valid, zero⟩ :=
    benchArguments_ok accepted
  obtain ⟨k1, variantEq⟩ := Option.isSome_iff_exists.mp variant
  obtain ⟨total, invocations⟩ := invocation_drawn valid
  have first := invocation_first valid reps
  have runs : (config.warmups + config.reps).toNat ≠ 0 := by
    intro none
    apply reps
    apply BitVec.eq_of_toNat_eq
    rw [BitVec.toNat_zero]
    omega
  have warmups : config.warmups.toNat < (config.warmups + config.reps).toNat := by
    have positive : config.reps.toNat ≠ 0 := fun none => reps (BitVec.eq_of_toNat_eq none)
    omega
  obtain ⟨stream, drawn⟩ := invocations _ warmups
  rw [first] at drawn
  have ends : Ends (On fun _ host => Base (some payload) (some scale) host) _ _ _ :=
    quiet_benchOnDevice quiet invocations runs first k1 found values count supported scaleValid
      zero drawn geometry
  unfold sqCudaBench
  dsimp only
  rw [accepted, variantEq]
  dsimp only
  cases ran : exec (benchOnDevice device config k1)
      ⟨[], 0, memory, none, ⟨hostPayload, zeroF, .ok, 0, some payload, some scale⟩⟩ with
  | mk outcome state =>
      cases outcome with
      | error status =>
          have refused : config.record x = .error status := ends.error ⟨rfl, rfl, rfl⟩ ran
          unfold CudaConfig.record at refused
          rw [refused]
          refine ⟨fun other same => Except.error.inj same, fun record same => ?_⟩
          cases same
      | ok done =>
          obtain ⟨-, record, recorded, basePayload, baseScale⟩ := ends.ok ⟨rfl, rfl, rfl⟩ ran
          unfold CudaConfig.record at recorded
          rw [recorded]
          refine ⟨fun other same => ?_, fun made same => ?_⟩
          · cases same
          · obtain rfl := Except.ok.inj same
            exact ⟨rfl, basePayload, baseScale⟩

end

/-- Without a failing call an accepted benchmark returns the status of its tensor's record and
hands out the record, at every boundary and however often it runs. -/
theorem sqCudaBench_record [RoundedArith Format.binary32] {device : CudaDevice}
    (quiet : device.Quiet) (found : ∀ calls, device.hostMemory calls = true) {x : F32Array}
    {config : CudaConfig} (values : config.values = x.values) (count : config.count = x.count)
    {payload : ℕ → Byte} {scale : F32}
    (accepted : benchArguments config (some payload) (some scale) true = .ok)
    (memory : DeviceMemory) (hostPayload : ℕ → Byte) :
    (sqCudaBench device (some config) (some payload) (some scale) true memory
      hostPayload).HandsOut config.bitWidth x.count payload
        (tensorRecord config.bitWidth x config.ids config.prescribedScale
          config.prescribedWords) :=
  sqCudaBench_handsOut quiet found memory hostPayload values count (.inl accepted)

/-- A benchmark of two blocks with one warm-up and two launches of a graph. -/
def twoBlocksGraph : CudaConfig :=
  { twoBlocksConfig with boundary := .residentGraph, warmups := 1#64, reps := 2#64 }

theorem twoBlocksGraph_accepted :
    benchArguments twoBlocksGraph (some fun _ => 0#8) (some zeroF) true = .ok := by
  unfold benchArguments
  decide

theorem sqCudaBench_record_graph :
    letI := nearestEven Format.binary32
    (sqCudaBench quietDevice (some twoBlocksGraph) (some fun _ => 0#8) (some zeroF) true
      zeroMemory fun _ => 0#8).HandsOut 4 twoBlocks.count (fun _ => 0#8)
        (tensorRecord 4 twoBlocks ⟨7#64, 0#64, 0#64⟩ none none) :=
  @sqCudaBench_record (nearestEven Format.binary32).toRoundedArith _ quietDevice_quiet
    (fun _ => rfl) twoBlocks twoBlocksGraph rfl rfl (fun _ => 0#8) zeroF twoBlocksGraph_accepted
    zeroMemory fun _ => 0#8

end Stoquant

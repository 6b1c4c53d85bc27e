import Stoquant.Cuda.Bench

/-!
# The errors of a benchmark

No failing call is hidden.  Out of memory is blamed only when the host had none, and a
capture ends before the failure of a launch in it is reported.
-/

namespace Stoquant

open Abort Ieee Par

/-! ## A failing call is reported -/

/-- A computation that does not return after a failing call, and stops with `SQ_ERR_CUDA` or
`SQ_ERR_MEMORY` then. -/
def Noticed {Host α : Type} (device : CudaDevice) (run : CudaRun Host SqStatus α) : Prop :=
  Ends (fun state => device.Fine state.calls) run (fun _ state => device.Fine state.calls)
    fun status state => device.Fine state.calls ∨ status = .errCuda ∨ status = .errMemory

section

variable {Host ε α β : Type} {device : CudaDevice}

theorem Reported.noticed {run : CudaRun Host SqStatus α} (reported : Reported device run) :
    Noticed device run :=
  Ends.weaken reported (fun _ fine => fine) (fun _ _ fine => fine)
    fun _ _ known => known.imp_right .inl

theorem Noticed.bind {run : CudaRun Host SqStatus α} {next : α → CudaRun Host SqStatus β}
    (first : Noticed device run) (rest : ∀ result, Noticed device (next result)) :
    Noticed device (run >>= next) :=
  Ends.bind first rest

theorem guarded_hostState : Guarded device (hostState : CudaRun Host ε Host) :=
  fun _ fine => fine

theorem reported_hostState : Reported device (hostState : CudaRun Host SqStatus Host) :=
  fun _ fine => fine

theorem noticed_allocateHost (bytes : ℕ) (policy : SqTransferPolicy) :
    Noticed device (allocateHost device bytes policy : CudaRun Host SqStatus Unit) := by
  refine ends_ite (fun _ => ?_) fun _ => ?_
  · exact Ends.mapError (guarded_try fun _ => rfl) fun _ _ _ => .inr (.inr rfl)
  · intro state fine
    have whole : exec (hostMalloc device) state =
        if device.hostMemory state.calls then (.ok (), state)
        else (.error .errMemory, state) := rfl
    rw [whole]
    cases device.hostMemory state.calls with
    | true => exact fine
    | false => exact .inl fine

end

section

variable [Arith Format.binary32] {device : CudaDevice} {ε : Type} (config : CudaConfig)
  (buffers : BenchBuffers) (variant : K1Variant)

omit [Arith Format.binary32] in
theorem guarded_whenNeeded (needed : Bool) {run : CudaRun BenchHost ε Unit}
    (guarded : Guarded device run) : Guarded device (whenNeeded needed run) := by
  cases needed with
  | true => exact guarded
  | false => exact guarded_pure _

omit [Arith Format.binary32] in
theorem reported_whenNeeded (needed : Bool) {run : CudaRun BenchHost SqStatus Unit}
    (reported : Reported device run) : Reported device (whenNeeded needed run) := by
  cases needed with
  | true => exact reported
  | false => exact reported_pure _

omit [Arith Format.binary32] in
theorem guarded_recordEvent (event : BenchEvent) : Guarded device (recordEvent device event) :=
  guarded_try fun _ => rfl

omit [Arith Format.binary32] in
theorem guarded_recordUnlessCaptured (events : Bool) (event : BenchEvent) :
    Guarded device (recordUnlessCaptured device events event) :=
  ends_ite (fun _ => guarded_recordEvent event) fun _ => guarded_pure _

theorem guarded_enqueueResident (stream : SqRngStream) (events : Bool) :
    Guarded device (enqueueResident device config buffers variant stream events) := by
  refine ends_ite (fun _ => guarded_pure _) fun _ => ?_
  refine Guarded.bind (guarded_try fun _ => CudaState.calls_enqueue ..) fun _ => ?_
  refine Guarded.bind (guarded_recordUnlessCaptured _ _) fun _ => ?_
  refine Guarded.bind (guarded_try fun _ => rfl) fun _ => ?_
  refine Guarded.bind (guarded_launchK1On _ _ _ _ _ _ _) fun _ => ?_
  refine Guarded.bind (guarded_recordUnlessCaptured _ _) fun _ => ?_
  refine Guarded.bind (guarded_recordUnlessCaptured _ _) fun _ => ?_
  refine Guarded.bind (guarded_try fun _ => rfl) fun _ => ?_
  refine Guarded.bind (guarded_launchOp _ _ _) fun _ => ?_
  refine Guarded.bind (guarded_recordUnlessCaptured _ _) fun _ => ?_
  refine Guarded.bind (guarded_recordUnlessCaptured _ _) fun _ => ?_
  refine Guarded.bind (guarded_try fun _ => rfl) fun _ => ?_
  refine Guarded.bind (guarded_launchOp _ _ _) fun _ => ?_
  exact guarded_recordUnlessCaptured _ _

omit [Arith Format.binary32] in
theorem guarded_copyOutputs : Guarded device (copyOutputs device config) :=
  Guarded.bind (guarded_whenNeeded _ (guarded_try fun _ => rfl)) fun _ =>
    guarded_try fun _ => rfl

omit [Arith Format.binary32] in
theorem guarded_copyStatus : Guarded device (copyStatus device) :=
  Guarded.bind (guarded_try fun _ => rfl) fun _ => guarded_try fun _ => rfl

theorem guarded_pipelineCalls (stream : SqRngStream) (boundary : SqBoundary)
    (outputs inspect sample : Bool) :
    Guarded device
      (pipelineCalls device config buffers variant stream boundary outputs inspect sample) := by
  refine Guarded.bind (guarded_whenNeeded _ ?_) fun _ => ?_
  · refine Guarded.bind (guarded_recordEvent _) fun _ => ?_
    refine Guarded.bind (guarded_try fun _ => rfl) fun _ => ?_
    exact guarded_recordEvent _
  refine Guarded.bind (guarded_try fun _ => rfl) fun _ => ?_
  refine Guarded.bind (guarded_enqueueResident _ _ _ _ _) fun _ => ?_
  refine Guarded.bind (guarded_whenNeeded _ ?_) fun _ => ?_
  · refine Guarded.bind (guarded_recordEvent _) fun _ => ?_
    refine Guarded.bind (guarded_copyOutputs config) fun _ => ?_
    exact guarded_recordEvent _
  refine Guarded.bind (guarded_whenNeeded _ guarded_copyStatus) fun _ => ?_
  refine Guarded.bind (guarded_try fun _ => rfl) fun _ => ?_
  refine guarded_whenNeeded _ ?_
  refine Guarded.bind (guarded_try fun _ => rfl) fun _ => ?_
  refine Guarded.bind (guarded_try fun _ => rfl) fun _ => ?_
  refine Guarded.bind (guarded_try fun _ => rfl) fun _ => ?_
  refine Guarded.bind (guarded_whenNeeded _ (guarded_try fun _ => rfl)) fun _ => ?_
  exact guarded_whenNeeded _ (guarded_try fun _ => rfl)

omit [Arith Format.binary32] in
theorem reported_stopUnlessOk (status : SqStatus) : Reported device (stopUnlessOk status) :=
  ends_ite (fun _ => reported_throw _) fun _ => reported_pure _

theorem reported_runBenchPipeline (invocationId : BitVec 64) (boundary : SqBoundary)
    (outputs inspect sample : Bool) :
    Reported device (runBenchPipeline device config buffers variant invocationId boundary outputs
      inspect sample) := by
  unfold runBenchPipeline
  split
  · exact reported_throw _
  · refine Reported.bind (guarded_pipelineCalls _ _ _ _ _ _ _ _).orErrCuda fun _ => ?_
    refine Reported.bind reported_hostState fun _ => ?_
    exact reported_whenNeeded _ (reported_stopUnlessOk _)

omit [Arith Format.binary32] in
theorem guarded_poisonPayload : Guarded device (poisonPayload device config) := by
  refine Guarded.bind (guarded_change fun _ => rfl) fun _ => ?_
  refine Guarded.bind guarded_hostState fun _ => ?_
  refine Guarded.bind (guarded_try fun _ => rfl) fun _ => ?_
  exact guarded_try fun _ => rfl

theorem reported_captureGraph (stream : SqRngStream) :
    Reported device (captureGraph device config buffers variant stream) := by
  refine Reported.bind (reported_call _ fun _ => rfl) fun _ => ?_
  -- From here on no call has failed, or the outcome that is looked at last is an error.
  let known := fun (captured : Except CudaError Unit) (state : CudaState BenchHost) =>
    device.Fine state.calls ∨ ∃ error, captured = .error error
  let blamed := fun (status : SqStatus) (state : CudaState BenchHost) =>
    device.Fine state.calls ∨ status = .errCuda
  have outcome : Ends (fun state => device.Fine state.calls)
      (outcomeOf (enqueueResident device config buffers variant stream false)) known blamed := by
    intro state fine
    have guarded : Guarded device _ :=
      guarded_enqueueResident config buffers variant stream false
    show known (exec (enqueueResident device config buffers variant stream false) state).1
      (exec (enqueueResident device config buffers variant stream false) state).2
    cases ran : exec (enqueueResident device config buffers variant stream false) state with
    | mk captured later =>
        cases captured with
        | ok done => exact .inl (guarded.ok fine ran)
        | error error => exact .inr ⟨error, rfl⟩
  refine outcome.bind fun captured => ?_
  cases captured with
  | error error =>
      have ended : Ends (fun _ => True)
          (orErrCuda (sqCudaTry device .endCapture (CudaState.capturing none)))
          (fun _ _ => True) blamed := by
        intro state _
        have anyway : Ends (fun _ => True)
            (sqCudaTry device .endCapture (CudaState.capturing none) :
              CudaRun BenchHost CudaError Unit) (fun _ _ => True) fun _ _ => True :=
          ends_of_cases (fun _ _ _ _ _ => trivial) fun _ _ _ _ _ => trivial
        exact anyway.mapError (fun _ _ _ => .inr rfl) state trivial
      have graph : Ends (known (.error error)) capturedOps (fun _ _ => True) blamed :=
        fun _ _ => trivial
      refine graph.bind fun _ => ended.bind fun _ => ?_
      exact ends_throw fun _ _ => .inr rfl
  | ok done =>
      have fine : ∀ state, known (.ok done) state → device.Fine state.calls := by
        rintro state (fine | ⟨error, ⟨⟩⟩)
        exact fine
      have graph : Ends (known (.ok done)) capturedOps
          (fun _ state => device.Fine state.calls) blamed := fun state start => fine state start
      refine graph.bind fun ops => ?_
      refine Reported.bind (reported_call _ fun _ => rfl) fun _ => ?_
      refine Reported.bind (reported_call _ fun _ => rfl) fun _ => ?_
      exact reported_pure _

omit [Arith Format.binary32] in
theorem reported_checkGraph : Reported device (checkGraph device config) := by
  refine Reported.bind (guarded_copyOutputs config).orErrCuda fun _ => ?_
  refine Reported.bind guarded_copyStatus.orErrCuda fun _ => ?_
  refine Reported.bind (reported_call _ fun _ => rfl) fun _ => ?_
  refine Reported.bind reported_hostState fun _ => ?_
  refine Reported.bind (reported_stopUnlessOk _) fun _ => ?_
  exact reported_stopUnlessOk _

theorem reported_runBenchGraph (invocationId : BitVec 64) :
    Reported device (runBenchGraph device config buffers variant invocationId) := by
  unfold runBenchGraph
  split
  · exact reported_throw _
  · refine Reported.bind (reported_whenNeeded _ (guarded_poisonPayload config).orErrCuda)
      fun _ => ?_
    refine Reported.bind (reported_captureGraph config buffers variant _) fun graph => ?_
    have launch : Guarded device (launchGraph device graph) := by
      refine Guarded.bind (guarded_try fun _ => CudaState.calls_enqueue ..) fun _ => ?_
      exact guarded_try fun _ => rfl
    refine Reported.bind (ends_forM fun _ _ => launch.orErrCuda) fun _ => ?_
    exact reported_whenNeeded _ (reported_checkGraph config)

omit [Arith Format.binary32] in
theorem noticed_allocateBenchHost : Noticed device (allocateBenchHost device config) := by
  refine Noticed.bind (noticed_allocateHost _ _) fun _ => ?_
  refine Noticed.bind (noticed_allocateHost _ _) fun _ => ?_
  refine Noticed.bind (Reported.noticed (reported_change fun _ => rfl)) fun _ => ?_
  exact ends_ite (fun _ => noticed_allocateHost _ _) fun _ => (reported_pure _).noticed

omit [Arith Format.binary32] in
theorem reported_allocateBench : Reported device (allocateBench device config) := by
  refine Reported.bind (guarded_cudaMalloc _).orErrCuda fun _ => ?_
  refine Reported.bind (guarded_cudaMalloc _).orErrCuda fun _ => ?_
  refine Reported.bind (guarded_cudaMalloc _).orErrCuda fun _ => ?_
  refine Reported.bind (guarded_cudaMalloc _).orErrCuda fun _ => ?_
  refine Reported.bind (guarded_cudaMalloc _).orErrCuda fun _ => ?_
  refine Reported.bind (guarded_cudaMalloc _).orErrCuda fun _ => ?_
  refine Reported.bind (guarded_cudaMallocIf _ _).orErrCuda fun _ => ?_
  refine Reported.bind (guarded_cudaMallocIf _ _).orErrCuda fun _ => ?_
  have workspace : Reported device (benchWorkspace device config) := by
    unfold benchWorkspace
    split
    · exact (guarded_allocateK1Workspace _).orErrCuda
    · exact reported_throw _
  refine Reported.bind workspace fun _ => ?_
  exact reported_pure _

omit [Arith Format.binary32] in
theorem guarded_benchInputs : Guarded device (benchInputs device config) := by
  have scale : Guarded device (copyPrescribedScale device config) := by
    unfold copyPrescribedScale
    split
    · exact guarded_try fun _ => rfl
    · exact guarded_pure _
  have words : Guarded device (copyPrescribedWords device config) := by
    unfold copyPrescribedWords
    split
    · exact guarded_try fun _ => rfl
    · exact guarded_pure _
  refine scale.bind fun _ => words.bind fun _ => ?_
  refine Guarded.bind (guarded_whenNeeded _ (guarded_try fun _ => rfl)) fun _ => ?_
  exact guarded_try fun _ => rfl

theorem reported_benchRuns : Reported device (benchRuns device config buffers variant) := by
  refine ends_ite (fun _ => reported_runBenchGraph _ _ _ _) fun _ => ?_
  exact ends_forM fun _ _ => reported_runBenchPipeline _ _ _ _ _ _ _ _

theorem reported_benchTensor : Reported device (benchTensor device config variant) := by
  refine Reported.bind (reported_allocateBench config) fun _ => ?_
  refine Reported.bind (guarded_benchInputs config).orErrCuda fun _ => ?_
  refine Reported.bind (reported_runBenchPipeline _ _ _ _ _ _ _ _) fun _ => ?_
  refine Reported.bind (reported_change fun _ => rfl) fun _ => ?_
  exact reported_benchRuns _ _ _

theorem reported_benchEmpty : Reported device (benchEmpty device config variant) := by
  refine Reported.bind (reported_change fun _ => rfl) fun _ => ?_
  refine ends_ite (fun _ => reported_runBenchGraph _ _ _ _) fun _ => ?_
  exact ends_forM fun _ _ => reported_call _ fun _ => rfl

theorem noticed_benchOnDevice : Noticed device (benchOnDevice device config variant) := by
  refine Noticed.bind reported_deviceAvailable.noticed fun _ => ?_
  refine Noticed.bind (reported_call _ fun _ => rfl).noticed fun _ => ?_
  refine Noticed.bind (guarded_createEvents _).orErrCuda.noticed fun _ => ?_
  refine Noticed.bind (noticed_allocateBenchHost config) fun _ => ?_
  exact ends_ite (fun _ => (reported_benchEmpty _ _).noticed)
    fun _ => (reported_benchTensor _ _).noticed

omit config in
theorem sqCudaBench_noticed (config : Option CudaConfig) (basePayload : Ptr Byte)
    (baseScale : Option F32) (samples : Bool) (memory : DeviceMemory) (hostPayload : ℕ → Byte) :
    let outcome := sqCudaBench device config basePayload baseScale samples memory hostPayload
    device.Fine outcome.calls ∨ outcome.status = .errCuda ∨ outcome.status = .errMemory := by
  unfold sqCudaBench
  cases config with
  | none => exact .inl CudaDevice.fine_nil
  | some config =>
      dsimp only
      split
      · rename_i variant _ _
        have noticed : Noticed device _ := noticed_benchOnDevice config variant
        cases ran : exec (benchOnDevice device config variant)
            ⟨[], 0, memory, none, ⟨hostPayload, zeroF, .ok, 0, basePayload, baseScale⟩⟩ with
        | mk outcome state =>
            cases outcome with
            | ok done => exact .inl (noticed.ok CudaDevice.fine_nil ran)
            | error status => exact noticed.error CudaDevice.fine_nil ran
      · exact .inl CudaDevice.fine_nil

end

/-! ## The status that K1 leaves -/

theorem reduceMaxKernel_status (scheduler : Scheduler) (partials : ℕ)
    (cells : Mem ScaleAddr.Val Empty) :
    ((scheduler.run (reduceMaxKernel partials) cells).cell .status : SqStatus) ≠ .errMemory := by
  rw [scheduler.run_eq (reduceMaxKernel_raceFree partials), reduceMaxKernel, Task.eval]
  generalize (Task.embed ScaleAddr.scan (reduceMaxScan partials) : ScaleTask).eval cells = scanned
  rw [(eval_storeMaximum scanned).1]
  split
  · exact SqStatus.noConfusion
  · exact SqStatus.noConfusion

section

variable [Arith Format.binary32]

theorem finishScaleKernel_status (sum : SumsBuffer) (memory : K1Memory)
    (known : memory.status ≠ .errMemory) : (finishScaleKernel sum memory).status ≠ .errMemory := by
  unfold finishScaleKernel
  dsimp only
  split_ifs
  · exact known
  · exact known
  · exact SqStatus.noConfusion
  · exact known

theorem K1Kernel.run_status (kernel : K1Kernel) (scheduler : Scheduler) (count : ℕ)
    {memory : K1Memory} (known : memory.status ≠ .errMemory) :
    (kernel.run scheduler count memory).status ≠ .errMemory := by
  cases kernel with
  | reduceMax partials => exact reduceMaxKernel_status scheduler partials _
  | finishScale sum => exact finishScaleKernel_status sum memory known
  | _ => exact known

theorem DeviceOp.run_status (op : DeviceOp) (scheduler : Scheduler) {memory : DeviceMemory}
    (known : memory.status ≠ .errMemory) : (op.run scheduler memory).status ≠ .errMemory := by
  cases op with
  | clearStatus => exact SqStatus.noConfusion
  | k1 own count kernel => exact kernel.run_status scheduler count known
  | _ => exact known

theorem runOps_status {device : CudaDevice} (ops : List DeviceOp) (ran : ℕ)
    {memory : DeviceMemory} (known : memory.status ≠ .errMemory) :
    (runOps device ops ran memory).status ≠ .errMemory := by
  induction ops generalizing ran memory with
  | nil => exact known
  | cons op rest ih => exact ih _ (op.run_status _ known)

/-- The kernel that reduces the maximum writes the status, whatever it was. -/
theorem runOps_status_reduceMax {device : CudaDevice} {own : Bool} {count partials : ℕ}
    {launched : List K1Kernel} (member : .reduceMax partials ∈ launched) (ran : ℕ)
    (memory : DeviceMemory) :
    (runOps device (launched.map (DeviceOp.k1 own count)) ran memory).status ≠ .errMemory := by
  induction launched generalizing ran memory with
  | nil => cases member
  | cons kernel rest ih =>
      rw [List.map_cons, runOps]
      rcases List.mem_cons.mp member with rfl | later
      · exact runOps_status _ _ (reduceMaxKernel_status _ partials _)
      · exact ih later _ _

end

section

variable {lastError : List K1Kernel → Option CudaError}

/-- K1 has launched the kernel that reduces the maximum. -/
def ReducesMax (launched : List K1Kernel) : Prop :=
  ∃ partials, .reduceMax partials ∈ launched

theorem ends_issue {before : List K1Kernel → Prop} {after : List K1Kernel → Prop}
    {kernel : K1Kernel} (holds : ∀ launched, before launched → after (launched ++ [kernel])) :
    Ends before (issue lastError kernel) (fun _ => after) fun _ _ => True := by
  apply ends_of_cases
  · intro launched _ later start ran
    rw [issue_ok ran]
    exact holds launched start
  · exact fun _ _ _ _ _ => trivial

theorem launchK1_reducesMax {count : ℕ} (nonempty : count ≠ 0) (gridSize : ℤ)
    (variant : K1Variant) (pointers : K1Pointers) (workspace : K1Workspace) :
    Ends (fun _ => True) (launchK1 lastError gridSize variant pointers count (some workspace))
      (fun _ => ReducesMax) fun _ _ => True := by
  have kept : ∀ kernel, Ends ReducesMax (issue lastError kernel) (fun _ => ReducesMax)
      fun _ _ => True := by
    intro kernel
    apply ends_issue
    rintro launched ⟨partials, member⟩
    exact ⟨partials, List.mem_append_left _ member⟩
  obtain ⟨error, throws⟩ | ⟨scan, partials, sum, padded, -, -, whole⟩ :=
    launchK1_cases nonempty gridSize variant pointers workspace
  · rw [throws]
    exact ends_throw fun _ _ => trivial
  · rw [whole]
    have first : Ends (fun _ => True) (issue lastError scan) (fun _ _ => True) fun _ _ => True :=
      ends_issue fun _ _ => trivial
    have reduced : Ends (fun _ => True) (issue lastError (.reduceMax partials))
        (fun _ => ReducesMax) fun _ _ => True :=
      ends_issue fun launched _ => ⟨partials, List.mem_append_right _ List.mem_cons_self⟩
    have loop : Ends ReducesMax (sumsLoop lastError gridSize variant .a .b padded)
        (fun _ => ReducesMax) fun _ _ => True := by
      apply ends_of_cases
      · rintro launched final later ⟨partials, member⟩ ran
        obtain ⟨levels, rfl, -⟩ := sumsLoop_sums ran
        exact ⟨partials, List.mem_append_left _ member⟩
      · exact fun _ _ _ _ _ => trivial
    refine first.bind fun _ => reduced.bind fun _ => (kept sum).bind fun _ => ?_
    exact loop.bind fun _ => kept _

end

/-! ## Captures and the memory of the host -/

/-- Every capture that began has ended. -/
def CapturesEnd (device : CudaDevice) (calls : List CudaCall) : Prop :=
  ∀ before after, calls = before ++ .beginCapture :: after →
    device.outcome (before ++ [.beginCapture]) = none → .endCapture ∈ after

/-- The host had no memory: the last call failed to pin some, or `malloc` found none. -/
def HostMemoryMissing (device : CudaDevice) (policy : SqTransferPolicy)
    (calls : List CudaCall) : Prop :=
  if policy = .pinned then
    ∃ earlier bytes, calls = earlier ++ [.hostAlloc bytes] ∧ device.outcome calls ≠ none
  else device.hostMemory calls = false

section

variable {device : CudaDevice} {calls : List CudaCall}

theorem capturesEnd_nil : CapturesEnd device [] := by
  intro before after same
  exact absurd (congrArg List.length same) (by simp)

theorem capturesEnd_endCapture : CapturesEnd device (calls ++ [.endCapture]) := by
  intro before after same _
  rcases List.eq_nil_or_concat after with rfl | ⟨init, last, rfl⟩
  · have := List.append_inj_right' same rfl
    cases this
  · rw [List.concat_eq_append, ← List.cons_append, ← List.append_assoc] at same
    cases List.append_inj_right' same rfl
    rw [List.concat_eq_append]
    exact List.mem_concat_self

theorem CapturesEnd.append (ended : CapturesEnd device calls) {more : List CudaCall}
    (other : .beginCapture ∉ more) : CapturesEnd device (calls ++ more) := by
  intro before after same began
  rcases List.append_eq_append_iff.mp same with ⟨gap, rfl, tail⟩ | ⟨gap, rfl, tail⟩
  · rw [tail] at other
    exact absurd (List.mem_append_right _ List.mem_cons_self) other
  · cases gap with
    | nil =>
        rw [List.nil_append] at tail
        rw [← tail] at other
        exact absurd List.mem_cons_self other
    | cons call rest =>
        obtain ⟨rfl, rfl⟩ := List.cons.inj tail
        exact List.mem_append_left _ (ended before rest rfl began)

/-- A capture that did not begin need not end. -/
theorem CapturesEnd.failed (ended : CapturesEnd device calls)
    (failed : device.outcome (calls ++ [.beginCapture]) ≠ none) :
    CapturesEnd device (calls ++ [.beginCapture]) := by
  intro before after same began
  rcases List.append_eq_append_iff.mp same with ⟨gap, rfl, tail⟩ | ⟨gap, rfl, tail⟩
  · cases gap with
    | nil =>
        rw [List.append_nil] at began
        exact absurd began failed
    | cons call rest =>
        have empty := (List.cons.inj tail).2
        exact absurd empty (by simp)
  · cases gap with
    | nil =>
        rw [List.append_nil] at failed
        exact absurd began failed
    | cons call rest =>
        obtain ⟨rfl, rfl⟩ := List.cons.inj tail
        exact List.mem_append_left _ (ended before rest rfl began)

end

/-- Between the calls: a capture is open or all have ended, and neither the status on the
device, once K1 has written it, nor the one on the host blames the memory of the host. -/
structure BenchSettled (device : CudaDevice) (capturing written : Bool)
    (state : CudaState BenchHost) : Prop where
  capture : state.capture.isSome = capturing
  ended : capturing = false → CapturesEnd device state.calls
  status : written = true → state.memory.status ≠ .errMemory
  host : state.host.status ≠ .errMemory

/-- CUDA calls from one settled state to another, which end no capture when they fail. -/
def Settles {α : Type} (device : CudaDevice) (capturing written : Bool)
    (run : CudaRun BenchHost CudaError α) (later : Bool) : Prop :=
  Ends (BenchSettled device capturing written) run (fun _ => BenchSettled device capturing later)
    fun _ state => capturing = false → CapturesEnd device state.calls

/-- A computation that stops outside a capture, and with `SQ_ERR_MEMORY` only without
memory on the host. -/
def Answers {α : Type} (device : CudaDevice) (policy : SqTransferPolicy) (written : Bool)
    (run : CudaRun BenchHost SqStatus α) (later : Bool) : Prop :=
  Ends (BenchSettled device false written) run (fun _ => BenchSettled device false later)
    fun status state => CapturesEnd device state.calls ∧
      (status = .errMemory → HostMemoryMissing device policy state.calls)

section

variable {α β : Type} {device : CudaDevice} {policy : SqTransferPolicy}
  {capturing written later final : Bool} {state : CudaState BenchHost}

theorem BenchSettled.weaken (settled : BenchSettled device capturing written state)
    (known : later = true → written = true) : BenchSettled device capturing later state :=
  ⟨settled.capture, settled.ended, fun wanted => settled.status (known wanted), settled.host⟩

theorem BenchSettled.calls (settled : BenchSettled device capturing written state)
    (more : List CudaCall) (other : .beginCapture ∉ more) :
    BenchSettled device capturing written { state with calls := state.calls ++ more } :=
  ⟨settled.capture, fun closed => (settled.ended closed).append other, settled.status,
    settled.host⟩

theorem BenchSettled.enqueue [Arith Format.binary32]
    (settled : BenchSettled device capturing written state) (ops : List DeviceOp) :
    BenchSettled device capturing written (state.enqueue device ops) := by
  obtain ⟨capture, ended, status, host⟩ := settled
  unfold CudaState.enqueue
  split
  · rename_i captured isOpen
    rw [isOpen] at capture
    exact ⟨capture, ended, status, host⟩
  · exact ⟨capture, ended, fun wanted => runOps_status ops _ (status wanted), host⟩

theorem BenchSettled.onDevice (settled : BenchSettled device capturing written state)
    {f : DeviceMemory → DeviceMemory} (kept : (f state.memory).status = state.memory.status) :
    BenchSettled device capturing written (state.onDevice f) := by
  obtain ⟨capture, ended, status, host⟩ := settled
  rw [← kept] at status
  exact ⟨capture, ended, status, host⟩

theorem BenchSettled.onHost (settled : BenchSettled device capturing written state)
    {f : DeviceMemory → BenchHost → BenchHost}
    (kept : (f state.memory state.host).status = state.host.status) :
    BenchSettled device capturing written (state.onHost f) := by
  obtain ⟨capture, ended, status, host⟩ := settled
  rw [← kept] at host
  exact ⟨capture, ended, status, host⟩

theorem Settles.bind {run : CudaRun BenchHost CudaError α}
    {next : α → CudaRun BenchHost CudaError β} (first : Settles device capturing written run later)
    (rest : ∀ result, Settles device capturing later (next result) final) :
    Settles device capturing written (run >>= next) final :=
  Ends.bind first rest

theorem Answers.bind {run : CudaRun BenchHost SqStatus α}
    {next : α → CudaRun BenchHost SqStatus β} (first : Answers device policy written run later)
    (rest : ∀ result, Answers device policy later (next result) final) :
    Answers device policy written (run >>= next) final :=
  Ends.bind first rest

theorem settles_pure (result : α) :
    Settles device capturing written (pure result) written :=
  ends_pure fun _ settled => settled

theorem answers_pure (result : α) : Answers device policy written (pure result) written :=
  ends_pure fun _ settled => settled

theorem answers_throw {status : SqStatus} (other : status ≠ .errMemory) :
    Answers device policy written (throw status : CudaRun BenchHost SqStatus α) later :=
  ends_throw fun _ settled => ⟨settled.ended rfl, fun blamed => absurd blamed other⟩

theorem answers_change {f : CudaState BenchHost → CudaState BenchHost}
    (kept : ∀ state, BenchSettled device false written state →
      BenchSettled device false later (f state)) :
    Answers device policy written (change f) later :=
  ends_change kept

theorem settles_try {call : CudaCall} {effect : CudaState BenchHost → CudaState BenchHost}
    (other : call ≠ .beginCapture)
    (kept : ∀ state, BenchSettled device capturing written state →
      BenchSettled device capturing later (effect state)) :
    Settles device capturing written (sqCudaTry device call effect) later := by
  have called : ∀ state, BenchSettled device capturing written state →
      BenchSettled device capturing written (state.called call) := fun state settled =>
    settled.calls [call] fun member => other (List.mem_singleton.mp member).symm
  apply ends_try
  · intro state settled _
    exact kept _ (called state settled)
  · intro state error settled _
    exact (called state settled).ended

theorem settles_call {call : CudaCall} (other : call ≠ .beginCapture) :
    Settles device capturing written (sqCudaTry device call id) written :=
  settles_try other fun _ settled => settled

theorem settles_whenNeeded {needed : Bool} {run : CudaRun BenchHost CudaError Unit}
    (settles : Settles device capturing written run written) :
    Settles device capturing written (whenNeeded needed run) written :=
  ends_ite (fun _ => settles) fun _ => settles_pure _

theorem answers_whenNeeded {needed : Bool} {run : CudaRun BenchHost SqStatus Unit}
    (answers : needed = true → Answers device policy written run written) :
    Answers device policy written (whenNeeded needed run) written :=
  ends_ite answers fun _ => answers_pure _

theorem Settles.orErrCuda {run : CudaRun BenchHost CudaError α}
    (settles : Settles device false written run later) :
    Answers device policy written (orErrCuda run) later :=
  Ends.mapError settles fun _ _ ended => ⟨ended rfl, SqStatus.noConfusion⟩

theorem answers_call {call : CudaCall} (other : call ≠ .beginCapture) :
    Answers device policy written (orErrCuda (sqCudaTry device call id)) written :=
  (settles_call other).orErrCuda

theorem answers_allocateHost (bytes : ℕ) :
    Answers device policy written (allocateHost device bytes policy) written := by
  refine ends_ite (fun pinned => ?_) fun pageable => ?_
  · have tried : Ends (BenchSettled device false written) (sqCudaTry device (.hostAlloc bytes) id)
        (fun _ => BenchSettled device false written)
        fun _ state => CapturesEnd device state.calls ∧
          HostMemoryMissing device policy state.calls := by
      apply ends_try
      · intro state settled _
        exact settled.calls [.hostAlloc bytes] (by simp)
      · intro state error settled outcome
        have called := settled.calls [.hostAlloc bytes] (by simp)
        have failed : device.outcome (state.calls ++ [.hostAlloc bytes]) ≠ none :=
          outcome ▸ Option.some_ne_none error
        refine ⟨called.ended rfl, ?_⟩
        unfold HostMemoryMissing
        rw [if_pos pinned]
        exact ⟨state.calls, bytes, rfl, failed⟩
    exact tried.mapError fun _ _ known => ⟨known.1, fun _ => known.2⟩
  · intro state settled
    have whole : exec (hostMalloc device) state =
        if device.hostMemory state.calls then (.ok (), state)
        else (.error .errMemory, state) := rfl
    rw [whole]
    cases found : device.hostMemory state.calls with
    | true => exact settled
    | false =>
        refine ⟨settled.ended rfl, fun _ => ?_⟩
        unfold HostMemoryMissing
        rwa [if_neg pageable]

end

theorem checkBenchResult_ne_errMemory (scale : F32) (prescribed : Bool) {status : SqStatus}
    (flags : Multiset ValidationFlag) (known : status ≠ .errMemory) :
    checkBenchResult scale prescribed status flags ≠ .errMemory := by
  unfold checkBenchResult compressCheck
  split_ifs
  · exact known
  · exact SqStatus.noConfusion
  · exact SqStatus.noConfusion
  · exact SqStatus.noConfusion

section

variable [Arith Format.binary32] {device : CudaDevice} (config : CudaConfig)
  {policy : SqTransferPolicy} {capturing written later : Bool} (buffers : BenchBuffers)
  (variant : K1Variant)

/-! ## The kernels -/

theorem settles_launchOp (launched : Except CudaError (Option CodeTask)) (op : DeviceOp) :
    Settles device capturing written (launchOp device launched op) written := by
  unfold launchOp
  split
  · exact ends_throw fun _ settled => settled.ended
  · exact settles_pure _
  · have enqueued : Settles device capturing written (change (CudaState.enqueue device [op]))
        written := ends_change fun _ settled => settled.enqueue _
    exact enqueued.bind fun _ => settles_call CudaCall.noConfusion

theorem settles_launchK1On (own : Bool) (pointers : K1Pointers) (nonempty : config.count ≠ 0)
    (workspace : K1Workspace) (gridSize : ℤ)
    (known : later = true → capturing = false ∨ written = true) :
    Settles device capturing written
      (launchK1On device own variant pointers config.count (some workspace) gridSize) later := by
  intro state settled
  let lastError := fun launched : List K1Kernel =>
    device.outcome (state.calls ++ launched.map CudaCall.kernelError)
  have reduces : Ends (fun _ => True) (launchK1 lastError gridSize variant pointers config.count
      (some workspace)) (fun _ => ReducesMax) fun _ _ => True :=
    launchK1_reducesMax nonempty gridSize variant pointers workspace
  rw [exec_launchK1On]
  cases ran : exec (launchK1 lastError gridSize variant pointers config.count (some workspace)) []
    with
  | mk outcome launched =>
      have called := settled.calls (launched.map CudaCall.kernelError) (by simp)
      have enqueued := called.enqueue (launched.map (DeviceOp.k1 own config.count))
      cases outcome with
      | error error => exact enqueued.ended
      | ok done =>
          refine ⟨enqueued.capture, enqueued.ended, fun wanted => ?_, enqueued.host⟩
          rcases known wanted with closed | written
          · obtain ⟨partials, member⟩ := reduces.ok trivial ran
            have outside : state.capture = none := by
              rw [← Option.isNone_iff_eq_none, ← Option.not_isSome, settled.capture, closed]
              rfl
            unfold CudaState.enqueue
            dsimp only
            rw [outside]
            exact runOps_status_reduceMax member _ _
          · exact enqueued.status written

omit [Arith Format.binary32] in
theorem settles_recordUnlessCaptured (events : Bool) (event : BenchEvent) :
    Settles device capturing written (recordUnlessCaptured device events event) written :=
  ends_ite (fun _ => settles_call CudaCall.noConfusion) fun _ => settles_pure _

theorem settles_enqueueResident (stream : SqRngStream) (events : Bool)
    (known : later = true → capturing = false ∧ config.count ≠ 0 ∨ written = true) :
    Settles device capturing written
      (enqueueResident device config buffers variant stream events) later := by
  refine ends_ite (fun empty => ?_) fun nonempty => ?_
  · refine ends_pure fun _ settled => settled.weaken fun wanted => ?_
    exact (known wanted).resolve_left fun outside => outside.2 empty
  · refine Settles.bind (settles_try CudaCall.noConfusion fun _ settled => settled.enqueue _)
      fun _ => ?_
    refine Settles.bind (settles_recordUnlessCaptured _ _) fun _ => ?_
    refine Settles.bind (settles_call CudaCall.noConfusion) fun _ => ?_
    refine Settles.bind (settles_launchK1On config variant _ _ nonempty _ _ fun wanted =>
      (known wanted).imp_left And.left) fun _ => ?_
    refine Settles.bind (settles_recordUnlessCaptured _ _) fun _ => ?_
    refine Settles.bind (settles_recordUnlessCaptured _ _) fun _ => ?_
    refine Settles.bind (settles_call CudaCall.noConfusion) fun _ => ?_
    refine Settles.bind (settles_launchOp _ _) fun _ => ?_
    refine Settles.bind (settles_recordUnlessCaptured _ _) fun _ => ?_
    refine Settles.bind (settles_recordUnlessCaptured _ _) fun _ => ?_
    refine Settles.bind (settles_call CudaCall.noConfusion) fun _ => ?_
    refine Settles.bind (settles_launchOp _ _) fun _ => ?_
    exact settles_recordUnlessCaptured _ _

/-! ## The runs -/

omit [Arith Format.binary32] in
theorem settles_copyValues :
    Settles device capturing written (copyValues device config) written :=
  settles_try CudaCall.noConfusion fun _ settled => settled.onDevice rfl

omit [Arith Format.binary32] in
theorem settles_copyOutputs :
    Settles device capturing written (copyOutputs device config) written := by
  refine Settles.bind (settles_whenNeeded (settles_try CudaCall.noConfusion
    fun _ settled => settled.onHost rfl)) fun _ => ?_
  exact settles_try CudaCall.noConfusion fun _ settled => settled.onHost rfl

omit [Arith Format.binary32] in
theorem settles_copyStatus : Settles device capturing true (copyStatus device) true := by
  have status : Settles device capturing true
      (sqCudaTry device (.memcpy 4) (CudaState.onHost fun memory host =>
        { host with status := memory.status })) true := by
    refine settles_try CudaCall.noConfusion fun _ settled => ?_
    exact ⟨settled.capture, settled.ended, settled.status, settled.status rfl⟩
  refine status.bind fun _ => ?_
  exact settles_try CudaCall.noConfusion fun _ settled => settled.onHost rfl

theorem settles_pipelineCalls (nonempty : config.count ≠ 0) (stream : SqRngStream)
    (boundary : SqBoundary) (outputs inspect sample : Bool) :
    Settles device false written
      (pipelineCalls device config buffers variant stream boundary outputs inspect sample)
      true := by
  refine Settles.bind (settles_whenNeeded ?_) fun _ => ?_
  · refine Settles.bind (settles_call CudaCall.noConfusion) fun _ => ?_
    refine Settles.bind (settles_copyValues config) fun _ => ?_
    exact settles_call CudaCall.noConfusion
  refine Settles.bind (settles_call CudaCall.noConfusion) fun _ => ?_
  have enqueued : Settles device false written
      (enqueueResident device config buffers variant stream true) true :=
    settles_enqueueResident config buffers variant stream true fun _ => .inl ⟨rfl, nonempty⟩
  refine enqueued.bind fun _ => ?_
  refine Settles.bind (settles_whenNeeded ?_) fun _ => ?_
  · refine Settles.bind (settles_call CudaCall.noConfusion) fun _ => ?_
    refine Settles.bind (settles_copyOutputs config) fun _ => ?_
    exact settles_call CudaCall.noConfusion
  refine Settles.bind (settles_whenNeeded settles_copyStatus) fun _ => ?_
  refine Settles.bind (settles_call CudaCall.noConfusion) fun _ => ?_
  refine settles_whenNeeded ?_
  refine Settles.bind (settles_call CudaCall.noConfusion) fun _ => ?_
  refine Settles.bind (settles_call CudaCall.noConfusion) fun _ => ?_
  refine Settles.bind (settles_call CudaCall.noConfusion) fun _ => ?_
  refine Settles.bind (settles_whenNeeded (settles_call CudaCall.noConfusion)) fun _ => ?_
  exact settles_whenNeeded (settles_call CudaCall.noConfusion)

omit [Arith Format.binary32] in
theorem answers_stopUnlessOk {status : SqStatus} (other : status ≠ .errMemory) :
    Answers device policy written (stopUnlessOk status) written :=
  ends_ite (fun _ => answers_throw other) fun _ => answers_pure _

omit [Arith Format.binary32] in
theorem answers_hostState {next : BenchHost → CudaRun BenchHost SqStatus Unit}
    (rest : ∀ host, host.status ≠ .errMemory → Answers device policy written (next host) written) :
    Answers device policy written (hostState >>= next) written := by
  have looked : Ends (BenchSettled device false written) (hostState : CudaRun BenchHost SqStatus _)
      (fun host state => host.status ≠ .errMemory ∧ BenchSettled device false written state)
      fun status state => CapturesEnd device state.calls ∧
        (status = .errMemory → HostMemoryMissing device policy state.calls) :=
    fun _ settled => ⟨settled.host, settled⟩
  exact looked.bind fun host => ends_assuming (rest host)

theorem answers_runBenchPipeline (nonempty : config.count ≠ 0) (invocationId : BitVec 64)
    (boundary : SqBoundary) (outputs inspect sample : Bool) :
    Answers device policy written (runBenchPipeline device config buffers variant invocationId
      boundary outputs inspect sample) true := by
  unfold runBenchPipeline
  split
  · exact answers_throw SqStatus.noConfusion
  · refine Answers.bind (settles_pipelineCalls config buffers variant nonempty _ _ _ _ _).orErrCuda
      fun _ => ?_
    refine answers_hostState fun host known => answers_whenNeeded fun _ => ?_
    exact answers_stopUnlessOk (checkBenchResult_ne_errMemory _ _ _ known)

omit [Arith Format.binary32] in
theorem settles_poisonPayload :
    Settles device false written (poisonPayload device config) written := by
  have looked : Settles device false written (hostState : CudaRun BenchHost CudaError _) written :=
    fun _ settled => settled
  have filled : ∀ f : DeviceMemory → BenchHost → BenchHost,
      (∀ memory host, (f memory host).status = host.status) →
      Settles device false written (change (CudaState.onHost f)) written :=
    fun _ kept => ends_change fun _ settled => settled.onHost (kept _ _)
  refine Settles.bind (filled _ fun _ _ => rfl) fun _ => looked.bind fun host => ?_
  refine Settles.bind (settles_try CudaCall.noConfusion fun _ settled => settled.onDevice rfl)
    fun _ => ?_
  exact settles_call CudaCall.noConfusion

theorem answers_captureGraph (stream : SqRngStream) :
    Answers device policy written (captureGraph device config buffers variant stream) written := by
  let reported := fun (status : SqStatus) (state : CudaState BenchHost) =>
    CapturesEnd device state.calls ∧
      (status = .errMemory → HostMemoryMissing device policy state.calls)
  have begun : Ends (BenchSettled device false written)
      (orErrCuda (sqCudaTry device .beginCapture (CudaState.capturing (some []))))
      (fun _ => BenchSettled device true written) reported := by
    have tried : Ends (BenchSettled device false written)
        (sqCudaTry device .beginCapture (CudaState.capturing (some [])))
        (fun _ => BenchSettled device true written)
        fun _ state => CapturesEnd device state.calls := by
      apply ends_try
      · intro state settled _
        exact ⟨rfl, Bool.noConfusion, settled.status, settled.host⟩
      · intro state error settled outcome
        exact (settled.ended rfl).failed (outcome ▸ Option.some_ne_none error)
    exact tried.mapError fun _ _ ended => ⟨ended, SqStatus.noConfusion⟩
  -- A launch that fails leaves the capture open.
  let kept := fun (captured : Except CudaError Unit) (state : CudaState BenchHost) =>
    captured = .ok () → BenchSettled device true written state
  have outcome : Ends (BenchSettled device true written)
      (outcomeOf (enqueueResident device config buffers variant stream false)) kept reported := by
    intro state settled
    have settles : Settles device true written _ written :=
      settles_enqueueResident config buffers variant stream false .inr
    show kept (exec (enqueueResident device config buffers variant stream false) state).1
      (exec (enqueueResident device config buffers variant stream false) state).2
    cases ran : exec (enqueueResident device config buffers variant stream false) state with
    | mk captured later =>
        cases captured with
        | ok done => exact fun _ => settles.ok settled ran
        | error error =>
            intro same
            cases same
  have ended : ∀ captured : Except CudaError Unit, Ends (kept captured)
      (orErrCuda (sqCudaTry device .endCapture (CudaState.capturing none)))
      (fun _ state => CapturesEnd device state.calls ∧
        (captured = .ok () → BenchSettled device false written state)) reported := by
    intro captured
    have tried : Ends (kept captured)
        (sqCudaTry device .endCapture (CudaState.capturing none))
        (fun _ state => CapturesEnd device state.calls ∧
          (captured = .ok () → BenchSettled device false written state))
        fun _ state => CapturesEnd device state.calls := by
      apply ends_try
      · intro state settled _
        refine ⟨capturesEnd_endCapture, fun same => ?_⟩
        exact ⟨rfl, fun _ => capturesEnd_endCapture, (settled same).status, (settled same).host⟩
      · intro state error _ _
        exact capturesEnd_endCapture
    exact tried.mapError fun _ _ ended => ⟨ended, SqStatus.noConfusion⟩
  refine begun.bind fun _ => outcome.bind fun captured => ?_
  have graph : Ends (kept captured) capturedOps (fun _ => kept captured) reported :=
    fun _ start => start
  refine graph.bind fun ops => (ended captured).bind fun _ => ?_
  cases captured with
  | error error => exact ends_throw fun _ closed => ⟨closed.1, SqStatus.noConfusion⟩
  | ok done =>
      have rest : Answers device policy written
          (orErrCuda (sqCudaTry device .graphInstantiate id) >>= fun _ => pure ops) written :=
        (answers_call CudaCall.noConfusion).bind fun _ => answers_pure _
      exact Ends.weaken rest (fun _ closed => closed.2 rfl) (fun _ _ => id) fun _ _ => id

omit [Arith Format.binary32] in
theorem answers_checkGraph :
    Answers device policy true (checkGraph device config) true := by
  refine Answers.bind (settles_copyOutputs config).orErrCuda fun _ => ?_
  refine Answers.bind settles_copyStatus.orErrCuda fun _ => ?_
  refine Answers.bind (answers_call CudaCall.noConfusion) fun _ => ?_
  refine answers_hostState fun host known => ?_
  refine Answers.bind (answers_stopUnlessOk (checkBenchResult_ne_errMemory _ _ _ known)) fun _ => ?_
  refine answers_stopUnlessOk ?_
  split
  · exact SqStatus.noConfusion
  · exact SqStatus.noConfusion

theorem answers_runBenchGraph (known : config.count ≠ 0 → written = true)
    (invocationId : BitVec 64) :
    Answers device policy written (runBenchGraph device config buffers variant invocationId)
      written := by
  unfold runBenchGraph
  split
  · exact answers_throw SqStatus.noConfusion
  · refine Answers.bind (answers_whenNeeded fun _ => (settles_poisonPayload config).orErrCuda)
      fun _ => ?_
    refine Answers.bind (answers_captureGraph config buffers variant _) fun graph => ?_
    have launch : Settles device false written (launchGraph device graph) written :=
      Settles.bind (settles_try CudaCall.noConfusion fun _ settled => settled.enqueue _)
        fun _ => settles_call CudaCall.noConfusion
    refine Answers.bind (ends_forM fun _ _ => launch.orErrCuda) fun _ => ?_
    refine answers_whenNeeded fun needed => ?_
    obtain rfl := known (of_decide_eq_true needed)
    exact answers_checkGraph config

/-! ## The benchmark -/

omit [Arith Format.binary32] in
theorem answers_allocateBenchHost :
    Answers device config.transferPolicy written (allocateBenchHost device config) written := by
  refine Answers.bind (answers_allocateHost _) fun _ => ?_
  refine Answers.bind (answers_allocateHost _) fun _ => ?_
  have cleared : Answers device config.transferPolicy written
      (change (CudaState.onHost fun _ host =>
        { host with scale := zeroF, status := .ok, flags := 0 })) written := by
    refine answers_change fun _ settled => ?_
    exact ⟨settled.capture, settled.ended, settled.status, SqStatus.noConfusion⟩
  refine cleared.bind fun _ => ?_
  exact answers_whenNeeded fun _ => answers_allocateHost _

omit [Arith Format.binary32] in
theorem settles_cudaMalloc (bytes : ℕ) :
    Settles device capturing written (cudaMalloc device bytes) written := by
  refine Settles.bind (settles_call CudaCall.noConfusion) fun _ => ?_
  exact fun _ settled => settled

omit [Arith Format.binary32] in
theorem settles_cudaMallocIf (needed : Bool) (bytes : ℕ) :
    Settles device capturing written (cudaMallocIf device needed bytes) written :=
  ends_ite (fun _ => settles_cudaMalloc _) fun _ => settles_pure _

omit [Arith Format.binary32] in
theorem answers_benchWorkspace :
    Answers device policy written (benchWorkspace device config) written := by
  have allocated : ∀ counts, Settles device false written (allocateK1Workspace device counts)
      written := by
    intro counts
    refine Settles.bind (settles_cudaMalloc _) fun _ => ?_
    refine Settles.bind (settles_cudaMalloc _) fun _ => ?_
    refine Settles.bind (settles_cudaMalloc _) fun _ => ?_
    refine Settles.bind (settles_cudaMalloc _) fun _ => ?_
    exact settles_pure _
  have other : (setK1WorkspaceGeometry (some ⟨0, 0⟩) config.count).1 ≠ .errMemory := by
    unfold setK1WorkspaceGeometry
    dsimp only
    split_ifs
    · exact SqStatus.noConfusion
    · split
      · exact SqStatus.noConfusion
      · split_ifs
        · exact SqStatus.noConfusion
        · exact SqStatus.noConfusion
  unfold benchWorkspace
  split
  · exact (allocated _).orErrCuda
  · rename_i status counts _ sized
    rw [sized] at other
    exact answers_throw other

omit [Arith Format.binary32] in
theorem answers_allocateBench :
    Answers device policy written (allocateBench device config) written := by
  refine Answers.bind (settles_cudaMalloc _).orErrCuda fun _ => ?_
  refine Answers.bind (settles_cudaMalloc _).orErrCuda fun _ => ?_
  refine Answers.bind (settles_cudaMalloc _).orErrCuda fun _ => ?_
  refine Answers.bind (settles_cudaMalloc _).orErrCuda fun _ => ?_
  refine Answers.bind (settles_cudaMalloc _).orErrCuda fun _ => ?_
  refine Answers.bind (settles_cudaMalloc _).orErrCuda fun _ => ?_
  refine Answers.bind (settles_cudaMallocIf _ _).orErrCuda fun _ => ?_
  refine Answers.bind (settles_cudaMallocIf _ _).orErrCuda fun _ => ?_
  refine Answers.bind (answers_benchWorkspace config) fun _ => ?_
  exact answers_pure _

omit [Arith Format.binary32] in
theorem settles_benchInputs : Settles device false written (benchInputs device config) written := by
  have scale : Settles device false written (copyPrescribedScale device config) written := by
    unfold copyPrescribedScale
    split
    · exact settles_try CudaCall.noConfusion fun _ settled => settled.onDevice rfl
    · exact settles_pure _
  have words : Settles device false written (copyPrescribedWords device config) written := by
    unfold copyPrescribedWords
    split
    · exact settles_try CudaCall.noConfusion fun _ settled => settled.onDevice rfl
    · exact settles_pure _
  refine scale.bind fun _ => words.bind fun _ => ?_
  refine Settles.bind (settles_whenNeeded (settles_copyValues config)) fun _ => ?_
  exact settles_call CudaCall.noConfusion

theorem answers_benchTensor (nonempty : config.count ≠ 0) :
    Answers device policy written (benchTensor device config variant) true := by
  refine Answers.bind (answers_allocateBench config) fun buffers => ?_
  refine Answers.bind (settles_benchInputs config).orErrCuda fun _ => ?_
  refine Answers.bind (answers_runBenchPipeline config buffers variant nonempty _ _ _ _ _)
    fun _ => ?_
  have handed : ∀ f : DeviceMemory → BenchHost → BenchHost,
      (∀ memory host, (f memory host).status = host.status) →
      Answers device policy true (change (CudaState.onHost f)) true :=
    fun _ kept => answers_change fun _ settled => settled.onHost (kept _ _)
  refine Answers.bind (handed _ fun _ _ => rfl) fun _ => ?_
  refine ends_ite (fun _ => answers_runBenchGraph config buffers variant (fun _ => rfl) _)
    fun _ => ?_
  exact ends_forM fun _ _ => answers_runBenchPipeline config buffers variant nonempty _ _ _ _ _

theorem answers_benchEmpty (empty : config.count = 0) :
    Answers device policy written (benchEmpty device config variant) written := by
  have zero : Answers device policy written
      (change (CudaState.onHost fun _ host => { host with baseScale := some zeroF })) written :=
    answers_change fun _ settled => settled.onHost rfl
  refine zero.bind fun _ => ends_ite (fun _ => ?_) fun _ => ?_
  · exact answers_runBenchGraph config _ variant (fun nonempty => absurd empty nonempty) _
  · exact ends_forM fun _ _ => answers_call CudaCall.noConfusion

theorem answers_benchOnDevice :
    Answers device config.transferPolicy false (benchOnDevice device config variant) false := by
  have available : Answers device config.transferPolicy false
      (cudaDeviceAvailable device : CudaRun BenchHost SqStatus Unit) false := by
    refine Answers.bind (answers_call CudaCall.noConfusion) fun _ => ?_
    exact ends_ite (fun _ => answers_throw SqStatus.noConfusion) fun _ => answers_pure _
  have events : Settles device false false (createEvents device sqBenchEventCount) false :=
    ends_forM fun _ _ => settles_call CudaCall.noConfusion
  refine available.bind fun _ => ?_
  refine Answers.bind (answers_call CudaCall.noConfusion) fun _ => ?_
  refine Answers.bind events.orErrCuda fun _ => ?_
  refine Answers.bind (answers_allocateBenchHost config) fun _ => ?_
  refine ends_ite (fun empty => answers_benchEmpty config variant empty) fun nonempty => ?_
  have tensor : Answers device config.transferPolicy false (benchTensor device config variant)
      true := answers_benchTensor config variant nonempty
  refine Ends.weaken tensor (fun _ => id) (fun _ _ settled => ?_) fun _ _ => id
  exact settled.weaken fun _ => rfl

omit [Arith Format.binary32] in
theorem benchArguments_ne_errMemory (basePayload : Ptr Byte) (baseScale : Option F32)
    (samples : Bool) : benchArguments config basePayload baseScale samples ≠ .errMemory := by
  unfold benchArguments
  dsimp only
  split_ifs
  all_goals exact SqStatus.noConfusion

/-- Unless every checked call that it made succeeded, `sq_cuda_bench` returns `SQ_ERR_CUDA`
or `SQ_ERR_MEMORY`, the latter only when host memory could not be allocated or pinned, and it
has ended every capture that it began. -/
theorem sqCudaBench_reports (device : CudaDevice) (config : Option CudaConfig)
    (basePayload : Ptr Byte) (baseScale : Option F32) (samples : Bool) (memory : DeviceMemory)
    (hostPayload : ℕ → Byte) :
    let outcome := sqCudaBench device config basePayload baseScale samples memory hostPayload
    (device.Fine outcome.calls ∨ outcome.status = .errCuda ∨ outcome.status = .errMemory) ∧
    (outcome.status = .errMemory → ∃ checked, config = some checked ∧
      HostMemoryMissing device checked.transferPolicy outcome.calls) ∧
    CapturesEnd device outcome.calls := by
  refine ⟨sqCudaBench_noticed _ _ _ _ _ _, ?_⟩
  unfold sqCudaBench
  cases config with
  | none => exact ⟨fun blamed => SqStatus.noConfusion blamed, capturesEnd_nil⟩
  | some config =>
      dsimp only
      split
      · rename_i variant _ _
        have answers : Answers device config.transferPolicy false _ false :=
          answers_benchOnDevice config variant
        have settled : BenchSettled device false false
            ⟨[], 0, memory, none, ⟨hostPayload, zeroF, .ok, 0, basePayload, baseScale⟩⟩ :=
          ⟨rfl, fun _ => capturesEnd_nil, Bool.noConfusion, SqStatus.noConfusion⟩
        cases ran : exec (benchOnDevice device config variant)
            ⟨[], 0, memory, none, ⟨hostPayload, zeroF, .ok, 0, basePayload, baseScale⟩⟩ with
        | mk outcome state =>
            cases outcome with
            | ok done =>
                exact ⟨fun blamed => SqStatus.noConfusion blamed,
                  (answers.ok settled ran).ended rfl⟩
            | error status =>
                obtain ⟨ended, missing⟩ := answers.error settled ran
                exact ⟨fun blamed => ⟨config, rfl, missing blamed⟩, ended⟩
      · refine ⟨fun blamed => ?_, capturesEnd_nil⟩
        exact absurd blamed (benchArguments_ne_errMemory config basePayload baseScale samples)

end

end Stoquant

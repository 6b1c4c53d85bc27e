import Stoquant.Cuda.Round
import Stoquant.Cuda.Scale
import Stoquant.Effect.Triple

/-!
# The device that the CUDA backend drives

The memory of the device, the operations that the host enqueues on it and the CUDA calls
whose error the host checks.  What each call returns and in which order the threads of a
launch run is up to the device.
-/

namespace Stoquant

open Abort Ieee Par

/-- The CUDA calls that `SQ_CUDA_CALL` guards: those of the runtime, the error queries after
the kernels of K1 and after the other kernels, and the functions that make such calls. -/
inductive CudaCall where
  | getDeviceCount
  | streamCreate
  | eventCreate (index : ℕ)
  | malloc (bytes : ℕ)
  | hostAlloc (bytes : ℕ)
  | memset
  | memcpy (bytes : ℕ)
  | eventRecord (index : ℕ)
  | eventSynchronize (index : ℕ)
  | eventElapsedTime (start stop : ℕ)
  | streamSynchronize
  | deviceSynchronize
  | kernelError (kernel : K1Kernel)
  | lastError
  | launchK1
  | launchK2
  | launchK3
  | enqueueResident
  | beginCapture
  | endCapture
  | graphInstantiate
  | graphLaunch
  deriving DecidableEq, Repr

/-- The device buffers. -/
structure DeviceMemory where
  values : ℕ → F32
  words : ℕ → Word
  scan : MaxAddr → Word
  sums : SumAddr → F32
  scale : F32
  k1Scale : F32
  status : SqStatus
  flags : Multiset ValidationFlag
  codes : ℕ → Byte
  payload : ℕ → Byte

namespace DeviceMemory

/-- The memory of K1, whose scale may be a buffer of its own. -/
def k1 (own : Bool) (memory : DeviceMemory) : K1Memory :=
  ⟨memory.values, memory.scan, memory.sums, if own then memory.k1Scale else memory.scale,
    memory.status⟩

/-- The memory after K1. -/
def withK1 (own : Bool) (memory : DeviceMemory) (later : K1Memory) : DeviceMemory :=
  { memory with
    scan := later.scan
    sums := later.sums
    scale := if own then memory.scale else later.scale
    k1Scale := if own then later.scale else memory.k1Scale
    status := later.status }

/-- The memory of K2 and K3. -/
def codeCells (memory : DeviceMemory) : Mem CodeAddr.Val ValidationFlag :=
  ⟨fun a => match a with
    | .value i => memory.values i
    | .word i => memory.words i
    | .code i => memory.codes i
    | .payload i => memory.payload i, memory.flags⟩

/-- The memory after K2 or K3. -/
def withCodes (memory : DeviceMemory) (later : Mem CodeAddr.Val ValidationFlag) : DeviceMemory :=
  { memory with
    flags := later.log
    codes := fun i => later.cell (.code i)
    payload := fun i => later.cell (.payload i) }

end DeviceMemory

/-- What the host enqueues on its stream.  K2 reads the scale when it runs. -/
inductive DeviceOp where
  | clearFlags
  | clearStatus
  | k1 (own : Bool) (count : ℕ) (kernel : K1Kernel)
  | k2 (kernel : F32 → CodeTask)
  | k3 (kernel : CodeTask)

/-- What an operation does to the memory, its threads in the order of a scheduler. -/
def DeviceOp.run [Arith Format.binary32] (scheduler : Scheduler) (memory : DeviceMemory) :
    DeviceOp → DeviceMemory
  | .clearFlags => { memory with flags := 0 }
  | .clearStatus => { memory with status := .ok }
  | .k1 own count kernel => memory.withK1 own (kernel.run scheduler count (memory.k1 own))
  | .k2 kernel => memory.withCodes (scheduler.run (kernel memory.scale) memory.codeCells)
  | .k3 kernel => memory.withCodes (scheduler.run kernel memory.codeCells)

/-- An address that `cudaMalloc` returns. -/
structure DeviceAddress where
  address : ℕ
  aligned : address % 256 = 0

/-- The device: what the last of the checked calls returns, the number of devices, the
address that the last call allocates, whether `malloc` finds memory on the host, and the
order of the threads of each operation. -/
structure CudaDevice where
  outcome : List CudaCall → Option CudaError
  deviceCount : ℕ
  address : List CudaCall → DeviceAddress
  hostMemory : List CudaCall → Bool
  schedule : ℕ → Scheduler

/-- The checked calls so far, the number of operations that ran, the memory, the operations
captured while a capture is open, and what the host keeps. -/
structure CudaState (Host : Type) where
  calls : List CudaCall
  ran : ℕ
  memory : DeviceMemory
  capture : Option (List DeviceOp)
  host : Host

/-- A computation of the host. -/
abbrev CudaRun (Host ε : Type) := Run (CudaState Host) ε

section

variable {Host : Type}

/-- The state after a checked call. -/
def CudaState.called (state : CudaState Host) (call : CudaCall) : CudaState Host :=
  { state with calls := state.calls ++ [call] }

/-- `SQ_CUDA_TRY`: a checked call, which has its effect unless it fails. -/
def sqCudaTry (device : CudaDevice) (call : CudaCall)
    (effect : CudaState Host → CudaState Host) : CudaRun Host CudaError Unit :=
  ExceptT.mk fun state =>
    match device.outcome (state.calls ++ [call]) with
    | none => (.ok (), effect (state.called call))
    | some error => (.error error, state.called call)

/-- A CUDA error ends in `SQ_ERR_CUDA`, by `return` or by `goto done`. -/
def orErrCuda {α : Type} (run : CudaRun Host CudaError α) : CudaRun Host SqStatus α :=
  mapError (fun _ => .errCuda) run

/-- `cuda_device_available`, without which the callers return `SQ_ERR_CUDA`. -/
def cudaDeviceAvailable (device : CudaDevice) : CudaRun Host SqStatus Unit := do
  orErrCuda (sqCudaTry device .getDeviceCount id)
  if device.deviceCount = 0 then throw .errCuda

/-- `create_events`. -/
def createEvents (device : CudaDevice) (count : ℕ) : CudaRun Host CudaError Unit :=
  (List.range count).forM fun index => sqCudaTry device (.eventCreate index) id

/-- `cudaMalloc`. -/
def cudaMalloc (device : CudaDevice) (bytes : ℕ) : CudaRun Host CudaError (Option ℕ) := do
  sqCudaTry device (.malloc bytes) id
  ExceptT.mk fun state => (.ok (some (device.address state.calls).address), state)

/-- `allocate_k1_workspace`. -/
def allocateK1Workspace (device : CudaDevice) (counts : K1Counts) :
    CudaRun Host CudaError K1Workspace := do
  let maxPartials ← cudaMalloc device (counts.blockCount * 4)
  let invalidPartials ← cudaMalloc device (counts.blockCount * 4)
  let sumsA ← cudaMalloc device (counts.paddedCount * 4)
  let sumsB ← cudaMalloc device (counts.paddedCount * 4)
  pure ⟨maxPartials, invalidPartials, sumsA, sumsB, counts⟩

section

variable [Arith Format.binary32] (device : CudaDevice)

/-- The operations run one after the other. -/
def runOps : List DeviceOp → ℕ → DeviceMemory → DeviceMemory
  | [], _, memory => memory
  | op :: rest, ran, memory => runOps rest (ran + 1) (op.run (device.schedule ran) memory)

/-- Operations enqueued on the stream run, or are captured. -/
def CudaState.enqueue (ops : List DeviceOp) (state : CudaState Host) : CudaState Host :=
  match state.capture with
  | some captured => { state with capture := some (captured ++ ops) }
  | none =>
      { state with
        ran := state.ran + ops.length
        memory := runOps device ops state.ran state.memory }

/-- `launch_k1` on the device: each kernel is enqueued before its error is checked. -/
def launchK1On (own : Bool) (variant : K1Variant) (pointers : K1Pointers) (count : ℕ)
    (workspace : Option K1Workspace) (gridSize : ℤ) : CudaRun Host CudaError Unit :=
  ExceptT.mk fun state =>
    let (result, launched) :=
      exec (launchK1 (fun launched =>
          device.outcome (state.calls ++ launched.map CudaCall.kernelError))
        gridSize variant pointers count workspace) []
    (result,
      { state with calls := state.calls ++ launched.map CudaCall.kernelError }.enqueue device
        (launched.map (DeviceOp.k1 own count)))

/-- The kernel that `sq_cuda_launch_k2` or `sq_cuda_launch_k3` launches, if it launches one. -/
def launchedTask : Except CudaError (Option CodeTask) → CodeTask
  | .ok (some task) => task
  | _ => .done

/-- A launch that fails, launches nothing, or enqueues an operation and checks the error. -/
def launchOp (launched : Except CudaError (Option CodeTask)) (op : DeviceOp) :
    CudaRun Host CudaError Unit :=
  match launched with
  | .error error => throw error
  | .ok none => pure ()
  | .ok (some _) => do
      change (CudaState.enqueue device [op])
      sqCudaTry device .lastError id

/-- `sq_cuda_launch_k2` on the device. -/
def launchK2On (bitWidth count : ℕ) (prescribedWords present : Bool) (stream : SqRngStream)
    (blockSize gridSize : ℤ) : CudaRun Host CudaError Unit :=
  let launch := fun scale =>
    sqCudaLaunchK2 bitWidth count scale prescribedWords stream present blockSize gridSize
  -- Whether the launch fails does not depend on the scale, which the kernel reads.
  launchOp device (launch zeroF) (.k2 fun scale => launchedTask (launch scale))

/-- `sq_cuda_launch_k3` on the device. -/
def launchK3On (bitWidth count : ℕ) (present : Bool) (blockSize gridSize : ℤ) :
    CudaRun Host CudaError Unit :=
  let launch := sqCudaLaunchK3 bitWidth count present blockSize gridSize
  launchOp device launch (.k3 (launchedTask launch))

end

end

/-! ## Failing calls -/

/-- No checked call so far has failed. -/
def CudaDevice.Fine (device : CudaDevice) (calls : List CudaCall) : Prop :=
  ∀ made, made <+: calls → made ≠ [] → device.outcome made = none

/-- A computation that does not return after a failing call. -/
def Guarded {Host ε α : Type} (device : CudaDevice) (run : CudaRun Host ε α) : Prop :=
  Ends (fun state => device.Fine state.calls) run (fun _ state => device.Fine state.calls)
    fun _ _ => True

/-- A computation that does not return after a failing call, and stops with `SQ_ERR_CUDA`
then. -/
def Reported {Host α : Type} (device : CudaDevice) (run : CudaRun Host SqStatus α) : Prop :=
  Ends (fun state => device.Fine state.calls) run (fun _ state => device.Fine state.calls)
    fun status state => device.Fine state.calls ∨ status = .errCuda

section

variable {Host ε α β : Type} {device : CudaDevice}

theorem CudaDevice.fine_nil : device.Fine [] :=
  fun _ before nonempty => absurd (List.prefix_nil.mp before) nonempty

theorem CudaDevice.Fine.concat {calls : List CudaCall} {call : CudaCall}
    (fine : device.Fine calls) (quiet : device.outcome (calls ++ [call]) = none) :
    device.Fine (calls ++ [call]) := by
  intro made before nonempty
  rcases List.prefix_concat_iff.mp before with rfl | shorter
  · exact quiet
  · exact fine made shorter nonempty

theorem exec_try_ok {call : CudaCall} {effect : CudaState Host → CudaState Host}
    {state : CudaState Host} (quiet : device.outcome (state.calls ++ [call]) = none) :
    exec (sqCudaTry device call effect) state = (.ok (), effect (state.called call)) := by
  unfold exec sqCudaTry ExceptT.run ExceptT.mk StateT.run
  dsimp only
  rw [quiet]

theorem exec_try_error {call : CudaCall} {effect : CudaState Host → CudaState Host}
    {state : CudaState Host} {error : CudaError}
    (failed : device.outcome (state.calls ++ [call]) = some error) :
    exec (sqCudaTry device call effect) state = (.error error, state.called call) := by
  unfold exec sqCudaTry ExceptT.run ExceptT.mk StateT.run
  dsimp only
  rw [failed]

/-- The rule of a checked call. -/
theorem ends_try {call : CudaCall} {effect : CudaState Host → CudaState Host}
    {before after : CudaState Host → Prop} {failed : CudaError → CudaState Host → Prop}
    (ok : ∀ state, before state → device.outcome (state.calls ++ [call]) = none →
      after (effect (state.called call)))
    (error : ∀ state error, before state → device.outcome (state.calls ++ [call]) = some error →
      failed error (state.called call)) :
    Ends before (sqCudaTry device call effect) (fun _ => after) failed := by
  intro state start
  cases outcome : device.outcome (state.calls ++ [call]) with
  | none =>
      rw [exec_try_ok outcome]
      exact ok state start outcome
  | some failure =>
      rw [exec_try_error outcome]
      exact error state failure start outcome

theorem guarded_try {call : CudaCall} {effect : CudaState Host → CudaState Host}
    (kept : ∀ state, (effect state).calls = state.calls) :
    Guarded device (sqCudaTry device call effect) := by
  apply ends_try
  · intro state fine quiet
    show device.Fine (effect (state.called call)).calls
    rw [kept]
    exact fine.concat quiet
  · intro state error _ _
    trivial

theorem Guarded.bind {run : CudaRun Host ε α} {next : α → CudaRun Host ε β}
    (first : Guarded device run) (rest : ∀ result, Guarded device (next result)) :
    Guarded device (run >>= next) :=
  Ends.bind first rest

theorem Reported.bind {run : CudaRun Host SqStatus α} {next : α → CudaRun Host SqStatus β}
    (first : Reported device run) (rest : ∀ result, Reported device (next result)) :
    Reported device (run >>= next) :=
  Ends.bind first rest

theorem guarded_pure (result : α) : Guarded device (pure result : CudaRun Host ε α) :=
  ends_pure fun _ fine => fine

theorem reported_pure (result : α) : Reported device (pure result : CudaRun Host SqStatus α) :=
  ends_pure fun _ fine => fine

theorem guarded_throw (error : ε) : Guarded device (throw error : CudaRun Host ε α) :=
  ends_throw fun _ _ => trivial

theorem reported_throw (status : SqStatus) :
    Reported device (throw status : CudaRun Host SqStatus α) :=
  ends_throw fun _ fine => .inl fine

theorem guarded_change {f : CudaState Host → CudaState Host}
    (kept : ∀ state, (f state).calls = state.calls) :
    Guarded device (change f : CudaRun Host ε Unit) := by
  apply ends_change
  intro state fine
  rw [kept]
  exact fine

theorem reported_change {f : CudaState Host → CudaState Host}
    (kept : ∀ state, (f state).calls = state.calls) :
    Reported device (change f : CudaRun Host SqStatus Unit) := by
  apply ends_change
  intro state fine
  rw [kept]
  exact fine

/-- What a reported computation leaves: either no call failed, or it stopped with
`SQ_ERR_CUDA`. -/
theorem Reported.outcome {run : CudaRun Host SqStatus α} (reported : Reported device run)
    {state : CudaState Host} (fine : device.Fine state.calls) :
    device.Fine (exec run state).2.calls ∨ (exec run state).1 = .error .errCuda := by
  cases ran : exec run state with
  | mk outcome later =>
      cases outcome with
      | ok result => exact .inl (reported.ok fine ran)
      | error status =>
          rcases reported.error fine ran with quiet | rfl
          · exact .inl quiet
          · exact .inr rfl

theorem Guarded.orErrCuda {run : CudaRun Host CudaError α} (guarded : Guarded device run) :
    Reported device (orErrCuda run) :=
  Ends.mapError guarded fun _ _ _ => .inr rfl

theorem reported_deviceAvailable :
    Reported device (cudaDeviceAvailable device : CudaRun Host SqStatus Unit) := by
  apply (guarded_try fun _ => rfl).orErrCuda.bind
  intro _
  split
  · exact reported_throw _
  · exact reported_pure _

theorem guarded_createEvents (count : ℕ) :
    Guarded device (createEvents device count : CudaRun Host CudaError Unit) :=
  ends_forM fun _ _ => guarded_try fun _ => rfl

theorem guarded_cudaMalloc (bytes : ℕ) :
    Guarded device (cudaMalloc device bytes : CudaRun Host CudaError (Option ℕ)) := by
  apply (guarded_try fun _ => rfl).bind
  intro _ state fine
  exact fine

theorem guarded_allocateK1Workspace (counts : K1Counts) :
    Guarded device (allocateK1Workspace device counts : CudaRun Host CudaError K1Workspace) := by
  apply (guarded_cudaMalloc _).bind
  intro _
  apply (guarded_cudaMalloc _).bind
  intro _
  apply (guarded_cudaMalloc _).bind
  intro _
  apply (guarded_cudaMalloc _).bind
  intro _
  exact guarded_pure _

end

/-! ## The launches of K1 -/

section

variable {lastError : List K1Kernel → Option CudaError}

/-- No launch so far has reported an error. -/
def LaunchesFine (lastError : List K1Kernel → Option CudaError) (launched : List K1Kernel) :
    Prop :=
  ∀ made, made <+: launched → made ≠ [] → lastError made = none

/-- A computation that launches nothing after an error. -/
def GuardedK1 {α : Type} (lastError : List K1Kernel → Option CudaError) (run : K1Run α) : Prop :=
  Ends (LaunchesFine lastError) run (fun _ => LaunchesFine lastError) fun _ _ => True

theorem guardedK1_issue (kernel : K1Kernel) : GuardedK1 lastError (issue lastError kernel) := by
  intro launched fine
  have whole : exec (issue lastError kernel) launched =
      match lastError (launched ++ [kernel]) with
      | none => (.ok (), launched ++ [kernel])
      | some error => (.error error, launched ++ [kernel]) := rfl
  rw [whole]
  cases outcome : lastError (launched ++ [kernel]) with
  | none =>
      intro made before nonempty
      rcases List.prefix_concat_iff.mp before with rfl | shorter
      · exact outcome
      · exact fine made shorter nonempty
  | some error => trivial

theorem guardedK1_reducePairsLoop (gridSize : ℤ) (input output : SumsBuffer) (active : ℕ) :
    GuardedK1 lastError (reducePairsLoop lastError gridSize input output active) := by
  induction active using Nat.strong_induction_on generalizing input output with
  | _ active ih =>
      rw [reducePairsLoop]
      apply ends_ite
      · intro more
        apply (guardedK1_issue _).bind
        intro _
        exact ih (active / 2) (by omega) _ _
      · intro _
        exact ends_pure fun _ fine => fine

theorem guardedK1_reduceTreeLoop (gridSize : ℤ) (input output : SumsBuffer) (active : ℕ) :
    GuardedK1 lastError (reduceTreeLoop lastError gridSize input output active) := by
  induction active using Nat.strong_induction_on generalizing input output with
  | _ active ih =>
      rw [reduceTreeLoop]
      apply ends_ite
      · intro more
        apply (guardedK1_issue _).bind
        intro _
        exact ih _ (treeSpan_less more) _ _
      · intro _
        exact ends_pure fun _ fine => fine

/-- K1 returns only if none of its launches has reported an error. -/
theorem guardedK1_launchK1 (gridSize : ℤ) (variant : K1Variant) (pointers : K1Pointers)
    (count : ℕ) (workspace : Option K1Workspace) :
    GuardedK1 lastError (launchK1 lastError gridSize variant pointers count workspace) := by
  by_cases empty : count = 0
  · unfold launchK1
    rw [if_pos empty]
    exact ends_pure fun _ fine => fine
  cases workspace with
  | none =>
      unfold launchK1
      rw [if_neg empty]
      split
      · exact ends_throw fun _ _ => trivial
      · exact ends_throw fun _ _ => trivial
  | some workspace =>
      obtain ⟨error, throws⟩ | ⟨scan, partials, sum, padded, -, -, whole⟩ :=
        launchK1_cases empty gridSize variant pointers workspace
      · rw [throws]
        exact ends_throw fun _ _ => trivial
      · rw [whole]
        apply (guardedK1_issue _).bind
        intro _
        apply (guardedK1_issue _).bind
        intro _
        apply (guardedK1_issue _).bind
        intro _
        have loop : GuardedK1 lastError (sumsLoop lastError gridSize variant .a .b padded) := by
          cases variant with
          | optimized => exact guardedK1_reduceTreeLoop _ _ _ _
          | reference => exact guardedK1_reducePairsLoop _ _ _ _
        apply loop.bind
        intro _
        exact guardedK1_issue _

end

section

variable [Arith Format.binary32] {Host : Type} (device : CudaDevice)

@[simp] theorem CudaState.calls_enqueue (ops : List DeviceOp) (state : CudaState Host) :
    (state.enqueue device ops).calls = state.calls := by
  unfold CudaState.enqueue
  split
  · rfl
  · rfl

/-- What `launch_k1` leaves: its kernels have been enqueued, whether or not it returns. -/
theorem exec_launchK1On (own : Bool) (variant : K1Variant) (pointers : K1Pointers)
    (count : ℕ) (workspace : Option K1Workspace) (gridSize : ℤ) (state : CudaState Host) :
    let outcome := exec (launchK1 (fun launched =>
      device.outcome (state.calls ++ launched.map CudaCall.kernelError)) gridSize variant
      pointers count workspace) []
    exec (launchK1On device own variant pointers count workspace gridSize) state =
      (outcome.1, ({ state with calls := state.calls ++ outcome.2.map CudaCall.kernelError } :
        CudaState Host).enqueue device (outcome.2.map (DeviceOp.k1 own count))) :=
  rfl

theorem guarded_launchK1On (own : Bool) (variant : K1Variant) (pointers : K1Pointers)
    (count : ℕ) (workspace : Option K1Workspace) (gridSize : ℤ) :
    Guarded device
      (launchK1On device own variant pointers count workspace gridSize :
        CudaRun Host CudaError Unit) := by
  intro state fine
  let lastError := fun launched : List K1Kernel =>
    device.outcome (state.calls ++ launched.map CudaCall.kernelError)
  have guarded : GuardedK1 lastError _ :=
    guardedK1_launchK1 gridSize variant pointers count workspace
  rw [exec_launchK1On]
  cases ran : exec (launchK1 lastError gridSize variant pointers count workspace) [] with
  | mk outcome launched =>
      cases outcome with
      | error error => trivial
      | ok result =>
          have none : LaunchesFine lastError [] := by
            intro made before nonempty
            exact absurd (List.prefix_nil.mp before) nonempty
          have quiet := guarded.ok none ran
          show device.Fine (CudaState.enqueue device _ _).calls
          rw [CudaState.calls_enqueue]
          intro made before nonempty
          rcases List.prefix_or_prefix_of_prefix before (List.prefix_append ..) with
            early | ⟨late, rfl⟩
          · exact fine made early nonempty
          · obtain ⟨inner, inside, rfl⟩ :=
              List.prefix_map_iff.mp ((List.prefix_append_right_inj _).mp before)
            by_cases some : inner = []
            · subst some
              exact fine _ (by simp) nonempty
            · exact quiet inner inside some

theorem guarded_launchOp (launched : Except CudaError (Option CodeTask)) (op : DeviceOp) :
    Guarded device (launchOp device launched op : CudaRun Host CudaError Unit) := by
  unfold launchOp
  split
  · exact guarded_throw _
  · exact guarded_pure _
  · apply (guarded_change fun _ => CudaState.calls_enqueue ..).bind
    intro _
    exact guarded_try fun _ => rfl

end

/-! ## A device on which no call fails -/

/-- No checked call fails, and there is a device. -/
structure CudaDevice.Quiet (device : CudaDevice) : Prop where
  calls : ∀ calls, device.outcome calls = none
  present : device.deviceCount ≠ 0

/-- Outside a capture, what holds of the memory and of what the host keeps. -/
def On {Host : Type} (holds : DeviceMemory → Host → Prop) (state : CudaState Host) : Prop :=
  state.capture = none ∧ holds state.memory state.host

section

variable {Host ε α : Type} {device : CudaDevice} (quiet : device.Quiet)
  {before : CudaState Host → Prop}

include quiet

theorem quiet_exec (call : CudaCall) (effect : CudaState Host → CudaState Host)
    (state : CudaState Host) :
    exec (sqCudaTry device call effect) state = (.ok (), effect (state.called call)) :=
  exec_try_ok (quiet.calls _)

theorem quiet_try {call : CudaCall} {effect : CudaState Host → CudaState Host}
    {after : CudaState Host → Prop} {failed : CudaError → CudaState Host → Prop}
    (holds : ∀ state, before state → after (effect (state.called call))) :
    Ends before (sqCudaTry device call effect) (fun _ => after) failed := by
  intro state start
  rw [quiet_exec quiet]
  exact holds state start

variable {holds : DeviceMemory → Host → Prop} {failed : CudaError → CudaState Host → Prop}

/-- A call without an effect. -/
theorem quiet_call (call : CudaCall) :
    Ends (On holds) (sqCudaTry device call id) (fun _ => On holds) failed :=
  quiet_try quiet fun _ start => start

theorem quiet_createEvents (count : ℕ) :
    Ends (On holds) (createEvents device count) (fun _ => On holds) failed :=
  ends_forM fun _ _ => quiet_call quiet _

theorem quiet_cudaMalloc (bytes : ℕ) :
    Ends (On holds) (cudaMalloc device bytes)
      (fun pointer state => (∃ address, pointer = some address ∧ address % 16 = 0) ∧ On holds state)
      failed := by
  apply (quiet_call quiet _).then
  intro _ state start
  refine ⟨⟨_, rfl, ?_⟩, start⟩
  have := (device.address state.calls).aligned
  omega

omit quiet in
theorem Ends.orErrCuda {run : CudaRun Host CudaError α} {after : α → CudaState Host → Prop}
    {failed : SqStatus → CudaState Host → Prop}
    (ends : Ends before run after fun _ _ => False) :
    Ends before (orErrCuda run) after failed :=
  Ends.mapError ends fun _ _ => False.elim

end

end Stoquant

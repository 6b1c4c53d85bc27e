import Stoquant.Codec.Stored
import Stoquant.Native.CleanUp
import Stoquant.Quantizer.ScaleSound
import Stoquant.Workspace.Machine

/-!
# Compressions of one process

A process reserves one workspace and allocates one record buffer.  Every call of
`sq_cpu_compress` finds both as the call before it left them, and still stores
the record of its own arguments.
-/

namespace Stoquant

open Ieee

/-- The value of `sq_backend`. -/
def Backend.toSq : Backend → SqBackend
  | .cpu => .cpu
  | .cpuAvx2 => .cpuAvx2
  | .cuda => .cuda

/-- The 64-bit arguments that select the words of a compression. -/
def CpuCompressArgs.ids (args : CpuCompressArgs) : StreamIds :=
  ⟨BitVec.ofNat 64 args.seed, BitVec.ofNat 64 args.tensorId,
    BitVec.ofNat 64 args.invocationId⟩

/-- What the compressions of a process share: the workspace and the record buffer. -/
structure CpuMemory where
  workspace : HeldWorkspace
  record : ℕ → Byte

section

variable [Arith Format.binary32]

/-- One call of `sq_cpu_compress` on an input. -/
def cpuCall (omp : OmpRuntime) (x : F32Array) (args : CpuCompressArgs) (memory : CpuMemory) :
    SqStatus × CpuMemory :=
  let (status, workspace, record) :=
    memory.workspace.compress omp args.backend.toSq args.bitWidth x args.ids
      args.prescribedScale args.prescribedWords memory.record
  (status, ⟨workspace, record.getD memory.record⟩)

/-- The memory that a call finds. -/
def memoryBefore (omp : ℕ → OmpRuntime) (x : F32Array) (args : ℕ → CpuCompressArgs)
    (start : CpuMemory) : ℕ → CpuMemory
  | 0 => start
  | t + 1 => (cpuCall (omp t) x (args t) (memoryBefore omp x args start t)).2

/-- The outcome of a call. -/
def callAnswer : SqStatus × CpuMemory → Except SqStatus (ℕ → Byte)
  | (.ok, memory) => .ok memory.record
  | (status, _) => .error status

/-- The compressions of a process that has reserved its workspace for the input. -/
def CpuProcess (world : World) (x : F32Array) (args : ℕ → CpuCompressArgs) (calls : ℕ) :
    Prop :=
  ∃ (omp : ℕ → OmpRuntime) (start : CpuMemory),
    start.workspace.FreshlyReserved x.count ∧
      ∀ t < calls, world.cpuCompress t (args t) =
        callAnswer (cpuCall (omp t) x (args t) (memoryBefore omp x args start t))

/-- A memory in which an input can be compressed. -/
structure CpuMemory.Ready (memory : CpuMemory) (x : F32Array) : Prop where
  held : memory.workspace.CapacitiesHeld
  covers : memory.workspace.Covers x.count

theorem CpuMemory.Ready.call {memory : CpuMemory} {x : F32Array} (ready : memory.Ready x)
    (omp : OmpRuntime) (args : CpuCompressArgs) : (cpuCall omp x args memory).2.Ready x := by
  have grown := HeldWorkspace.compress_grown omp args.backend.toSq args.bitWidth x args.ids
    args.prescribedScale args.prescribedWords memory.workspace memory.record ready.held
  exact ⟨grown.held, ready.covers.grown grown⟩

theorem memoryBefore_ready {start : CpuMemory} {x : F32Array} (ready : start.Ready x)
    (omp : ℕ → OmpRuntime) (args : ℕ → CpuCompressArgs) (t : ℕ) :
    (memoryBefore omp x args start t).Ready x := by
  induction t with
  | zero => exact ready
  | succ t ih => exact ih.call (omp t) (args t)

end

section

variable [RoundedArith Format.binary32]

/-- A call stores the record of its arguments, whatever the memory held. -/
theorem callAnswer_cpuCall {memory : CpuMemory} {x : F32Array} (ready : memory.Ready x)
    (omp : OmpRuntime) {args : CpuCompressArgs} {record : TensorRecord}
    (found : tensorRecord args.bitWidth x args.ids args.prescribedScale
      args.prescribedWords = .ok record) :
    ∃ buffer, callAnswer (cpuCall omp x args memory) = .ok buffer ∧
      recordIn args.bitWidth x.count buffer = recordBytes args.bitWidth x.count record := by
  have stages := stagesCorrect omp args.backend.toSq x
  obtain ⟨_, buffer, result, holds⟩ := sqCpuCompress_eq stages
    (ready.covers.reserved ready.held) args.bitWidth args.ids args.prescribedScale
    args.prescribedWords memory.record
  refine ⟨buffer, ?_, ?_⟩
  · unfold cpuCall HeldWorkspace.compress
    rw [result, found]
    rfl
  · rw [holds record found, recordIn_storeBytes]

/-- A call that cannot make its record ends with the status of that. -/
theorem callAnswer_cpuCall_error {memory : CpuMemory} {x : F32Array} (ready : memory.Ready x)
    (omp : OmpRuntime) {args : CpuCompressArgs} {status : SqStatus}
    (refused : tensorRecord args.bitWidth x args.ids args.prescribedScale
      args.prescribedWords = .error status) :
    callAnswer (cpuCall omp x args memory) = .error status := by
  have stages := stagesCorrect omp args.backend.toSq x
  obtain ⟨_, buffer, result, -⟩ := sqCpuCompress_eq stages
    (ready.covers.reserved ready.held) args.bitWidth args.ids args.prescribedScale
    args.prescribedWords memory.record
  have failed := tensorRecord_error refused
  unfold cpuCall HeldWorkspace.compress
  rw [result, refused]
  cases status with
  | ok => exact absurd rfl failed
  | _ => rfl

theorem CpuProcess.refusal {world : World} {x : F32Array} {args : ℕ → CpuCompressArgs}
    {calls : ℕ} (process : CpuProcess world x args calls) {t : ℕ} (below : t < calls)
    {status : SqStatus}
    (refused : tensorRecord (args t).bitWidth x (args t).ids (args t).prescribedScale
      (args t).prescribedWords = .error status) :
    world.cpuCompress t (args t) = .error status := by
  obtain ⟨omp, start, reserved, answers⟩ := process
  obtain ⟨held, covers⟩ := reserved.sound
  rw [answers t below]
  exact callAnswer_cpuCall_error (memoryBefore_ready ⟨held, covers⟩ omp args t) (omp t) refused

theorem CpuProcess.answer {world : World} {x : F32Array} {args : ℕ → CpuCompressArgs}
    {calls : ℕ} (process : CpuProcess world x args calls) {t : ℕ} (below : t < calls)
    {record : TensorRecord}
    (found : tensorRecord (args t).bitWidth x (args t).ids (args t).prescribedScale
      (args t).prescribedWords = .ok record) :
    ∃ buffer, world.cpuCompress t (args t) = .ok buffer ∧
      recordIn (args t).bitWidth x.count buffer =
        recordBytes (args t).bitWidth x.count record := by
  obtain ⟨omp, start, reserved, answers⟩ := process
  obtain ⟨held, covers⟩ := reserved.sound
  rw [answers t below]
  exact callAnswer_cpuCall (memoryBefore_ready ⟨held, covers⟩ omp args t) (omp t) found

/-- A computed scale is never rejected: the record exists, and prescribing the scale
gives the same record. -/
theorem tensorRecord_of_scale {bitWidth : ℕ} (supported : Supported bitWidth)
    {x : F32Array} {scale : F32} (scaled : tensorScale x.get x.count = .ok scale)
    {ids : StreamIds} (tensorId : ids.tensorId.toNat ≤ uint32Max)
    (invocationId : ids.invocationId.toNat ≤ uint32Max) :
    ∃ record, tensorRecord bitWidth x ids none none = .ok record ∧
      tensorRecord bitWidth x ids (some scale) none = .ok record := by
  have computed := @scaleComputed_tensorScale _ x.get x.count x.fits
  rw [scaled] at computed
  have accepted : encodeStatus x.get x.count scale = .ok := computed.encodeStatus_eq
  have stored : storeStatus bitWidth x scale = .ok := by
    rw [storeStatus, if_neg supported.ne]
    exact accepted
  have stream : ∃ stream, sqRngStreamInit ids.seed ids.tensorId ids.invocationId =
      some stream := by
    unfold sqRngStreamInit
    rw [if_neg (by omega)]
    exact ⟨_, rfl⟩
  obtain ⟨stream, drawn⟩ := stream
  refine ⟨⟨scale, fun i => elementCode (signedLimit bitWidth) scale (x.get i)
    (streamWord stream i)⟩, ?_, ?_⟩
  · simp only [tensorRecord, resolveScale, resolveWords, scaled, drawn, stored, if_true]
  · simp only [tensorRecord, resolveScale, resolveWords, drawn, stored, if_true]

omit [RoundedArith Format.binary32] in
theorem decodeWhole_of_decoded [Arith Format.binary32] {world : World} {call : ℕ}
    {bytes : List Byte} {values : List F32} {count : ℕ}
    (decoded : sqDecodeRecord (world.decodeMalloc call) (some bytes) bytes.length
      (some ⟨none, 0⟩) = some (.ok, some ⟨some values, count⟩)) :
    decodeWhole world call bytes = .ok (values, count) := by
  unfold decodeWhole
  rw [decoded]
  rfl

/-- The decoder accepts the record of a nonempty input. -/
theorem decodeWhole_recordBytes {world : World} {call : ℕ}
    (mallocs : ∀ size, world.decodeMalloc call size = true) {x : F32Array}
    (nonempty : x.count ≠ 0) {bitWidth : ℕ} {ids : StreamIds}
    {prescribedScale : Option F32} {prescribedWords : Ptr Word} {record : TensorRecord}
    (found : tensorRecord bitWidth x ids prescribedScale prescribedWords = .ok record) :
    decodeWhole world call (recordBytes bitWidth x.count record) =
      .ok (recordValues (recordBytes bitWidth x.count record), x.count) := by
  obtain ⟨supported, -, -, -⟩ := tensorRecord_ok found
  have valid := contentValid_of_tensorRecord found
  have fits := x.fits
  have small : x.count < 2 ^ 64 := by
    unfold sizeMax at fits
    omega
  have grammar := grammar_recordBytes supported small valid
  have count : recordCount (recordBytes bitWidth x.count record) = x.count :=
    recordCount_recordBytes small
  have always : world.decodeMalloc call = fun _ => true := funext mallocs
  have bounded : RecordGrammar (recordBytes bitWidth x.count record) →
      recordCount (recordBytes bitWidth x.count record) ≤ sizeMax / 4 := by
    intro _
    rw [count]
    exact fits
  have decoded : sqDecodeRecord (world.decodeMalloc call)
      (some (recordBytes bitWidth x.count record))
      (recordBytes bitWidth x.count record).length (some ⟨none, 0⟩) =
        some (.ok, some ⟨some (recordValues (recordBytes bitWidth x.count record)),
          x.count⟩) := by
    rw [always]
    rcases sqDecodeRecord_spec_of_count bounded ⟨none, 0⟩ with ⟨-, decoded⟩ | ⟨invalid, -⟩
    · rw [decoded, decodedRecord, count, if_neg nonempty]
    · exact absurd grammar invalid
  exact decodeWhole_of_decoded decoded

omit [RoundedArith Format.binary32] in
theorem recordValues_length [Arith Format.binary32] (x : F32Array) (bitWidth : ℕ)
    (record : TensorRecord) :
    (recordValues (recordBytes bitWidth x.count record)).length = x.count := by
  have fits := x.fits
  have small : x.count < 2 ^ 64 := by
    unfold sizeMax at fits
    omega
  rw [recordValues, List.length_map, List.length_range, recordCount_recordBytes small]

end

end Stoquant

import Stoquant.Avx2.Encode
import Stoquant.Avx2.Rng

/-!
# Compression on the CPU

`sq_cpu_compress` computes the scale unless one is prescribed, generates the
words unless they are prescribed, and stores the header and the payload, with
the scalar or the AVX2 stages and the buffers of a reserved workspace.
-/

namespace Stoquant

open Ieee Par

/-- The CPU values of `sq_backend`, and the CUDA one that they reject. -/
inductive SqBackend where
  | cpu
  | cpuAvx2
  | cuda
  deriving DecidableEq, Repr

/-- `sq_cpu_compress_workspace`. -/
structure SqCpuCompressWorkspace where
  generatedWords : Ptr Word
  generatedWordCapacity : ℕ
  scalePartials : Ptr F32
  scalePartialCapacity : ℕ

/-- `sq_cpu_compress_workspace_init`. -/
def sqCpuCompressWorkspaceInit : SqCpuCompressWorkspace := ⟨none, 0, none, 0⟩

/-- `realloc` of either buffer to a number of bytes, absent when it fails. -/
structure Realloc where
  words : Ptr Word → ℕ → Ptr Word
  floats : Ptr F32 → ℕ → Ptr F32

/-- `sq_cpu_compress_workspace_reserve`; the workspace is absent when null. -/
def sqCpuCompressWorkspaceReserve (realloc : Realloc)
    (workspace : Option SqCpuCompressWorkspace) (backend : SqBackend)
    (threads : ℤ) (count : ℕ) : SqStatus × Option SqCpuCompressWorkspace :=
  match workspace with
  | none => (.errArgument, none)
  | some ws =>
      if (backend ≠ .cpu ∧ backend ≠ .cpuAvx2) ∨
          (backend = .cpu ∧ threads ≠ 0) ∨
          (backend = .cpuAvx2 ∧ threads < 1) then (.errArgument, some ws)
      else if count > sizeMax / 4 then (.errMemory, some ws)
      else
        let partialCount := sqScaleWorkspaceElements count
        if partialCount = sizeMax ∨ partialCount > sizeMax / 4 then
          (.errMemory, some ws)
        else
          let words :=
            if count > ws.generatedWordCapacity then
              (realloc.words ws.generatedWords (count * 4)).map fun array =>
                { ws with
                  generatedWords := some array
                  generatedWordCapacity := count }
            else some ws
          match words with
          | none => (.errMemory, some ws)
          | some ws =>
              if partialCount > ws.scalePartialCapacity then
                match realloc.floats ws.scalePartials (partialCount * 4) with
                | none => (.errMemory, some ws)
                | some array =>
                    (.ok, some
                      { ws with
                        scalePartials := some array
                        scalePartialCapacity := partialCount })
              else (.ok, some ws)

/-- The parallel regions of one compression with the AVX2 backend. -/
structure OmpRuntime where
  scaleScan : OmpRegion
  blockSums : OmpRegion
  rngWords : OmpRegion
  encodeScan : OmpRegion
  encode : OmpRegion

/-- The arguments of a compression that select its random words. -/
structure StreamIds where
  seed : BitVec 64
  tensorId : BitVec 64
  invocationId : BitVec 64

/-- `cpu_rng_words`. -/
def cpuRngWords (omp : OmpRuntime) (stream : SqRngStream) (count : ℕ)
    (words : Ptr Word) (backend : SqBackend) : Ptr Word :=
  match backend with
  | .cpu => words.map (sqRngWordsCpu stream count)
  | _ => words.map (sqAvx2RngWords omp.rngWords stream count)

section

variable [Arith Format.binary32]

/-- `cpu_compute_scale`. -/
def cpuComputeScale (omp : OmpRuntime) (values : Ptr F32) (count : ℕ)
    (scale : Option F32) (partials : Ptr F32) (partialCapacity : ℕ)
    (backend : SqBackend) : SqStatus × Option F32 × Ptr F32 :=
  match backend with
  | .cpu =>
      sqComputeScaleWithWorkspace values count scale partials partialCapacity
  | _ =>
      sqAvx2ComputeScaleWithWorkspace omp.scaleScan omp.blockSums values count
        scale partials partialCapacity

/-- `cpu_encode_payload`. -/
def cpuEncodePayload (omp : OmpRuntime) (bitWidth : ℕ) (values : Ptr F32)
    (count : ℕ) (scale : F32) (words : Ptr Word) (payload : Ptr Byte)
    (backend : SqBackend) : SqStatus × Ptr Byte :=
  match backend with
  | .cpu => sqEncodePayload bitWidth values count scale words payload
  | _ =>
      sqAvx2EncodePayload omp.encodeScan omp.encode bitWidth values count scale
        words payload

/-- The buffer `record` after the bytes from `record + SQ_HEADER_SIZE` on have
become those of `payload`. -/
def withPayload (record payload : ℕ → Byte) : ℕ → Byte :=
  fun k => if k < sqHeaderSize then record k else payload (k - sqHeaderSize)

/-- The header and the payload, which end `sq_cpu_compress`. -/
def cpuStore (omp : OmpRuntime) (backend : SqBackend) (bitWidth : ℕ)
    (values : Ptr F32) (count : ℕ) (scale : F32) (words : Ptr Word)
    (record : Ptr Byte) : SqStatus × Ptr Byte :=
  match sqHeaderEncode bitWidth count scale record with
  | (.ok, some record) =>
      let payload := fun k => record (sqHeaderSize + k)
      let (status, payload) :=
        cpuEncodePayload omp bitWidth values count scale words (some payload)
          backend
      (status, payload.map (withPayload record))
  | (status, record) => (status, record)

/-- The part of `sq_cpu_compress` that follows the scale. -/
def cpuDrawAndStore (omp : OmpRuntime) (backend : SqBackend) (bitWidth : ℕ)
    (values : Ptr F32) (count : ℕ) (ids : StreamIds) (scale : F32)
    (prescribedWords : Ptr Word) (workspace : SqCpuCompressWorkspace)
    (record : Ptr Byte) : SqStatus × SqCpuCompressWorkspace × Ptr Byte :=
  match prescribedWords with
  | some words =>
      let (status, record) :=
        cpuStore omp backend bitWidth values count scale (some words) record
      (status, workspace, record)
  | none =>
      match sqRngStreamInit ids.seed ids.tensorId ids.invocationId with
      | none => (.errIdOverflow, workspace, record)
      | some stream =>
          let words :=
            cpuRngWords omp stream count workspace.generatedWords backend
          let (status, record) :=
            cpuStore omp backend bitWidth values count scale words record
          (status, { workspace with generatedWords := words }, record)

/-- `sq_cpu_compress`: the status, the workspace and the record.  A prescribed
scale or word list is absent when it is not given. -/
def sqCpuCompress (omp : OmpRuntime) (backend : SqBackend) (bitWidth : ℕ)
    (values : Ptr F32) (count : ℕ) (ids : StreamIds)
    (prescribedScale : Option F32) (prescribedWords : Ptr Word)
    (workspace : SqCpuCompressWorkspace) (record : Ptr Byte) :
    SqStatus × SqCpuCompressWorkspace × Ptr Byte :=
  match prescribedScale with
  | some scale =>
      cpuDrawAndStore omp backend bitWidth values count ids scale prescribedWords
        workspace record
  | none =>
      let (status, scale, partials) :=
        cpuComputeScale omp values count (some zeroF) workspace.scalePartials
          workspace.scalePartialCapacity backend
      let workspace := { workspace with scalePartials := partials }
      match status, scale with
      | .ok, some scale =>
          cpuDrawAndStore omp backend bitWidth values count ids scale
            prescribedWords workspace record
      | status, _ => (status, workspace, record)

end

end Stoquant

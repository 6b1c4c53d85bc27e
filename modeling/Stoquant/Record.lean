import Stoquant.CpuCompress

/-!
# The record of a tensor

What compression is for, apart from how the backends do it: a record is the
header of a scale followed by the packed codes of the elements.  Both CPU
backends store this record and fail with the same status.
-/

namespace Stoquant

open Ieee Par

/-- The scale of a compression: the prescribed one, or that of the tensor. -/
def resolveScale [Arith Format.binary32] (x : F32Array)
    (prescribedScale : Option F32) : Except SqStatus F32 :=
  match prescribedScale with
  | some scale => .ok scale
  | none => tensorScale x.get x.count

/-- The words of a compression: the prescribed ones, or those of the stream. -/
def resolveWords (ids : StreamIds) (prescribedWords : Ptr Word) :
    Except SqStatus (ℕ → Word) :=
  match prescribedWords with
  | some words => .ok words
  | none =>
      match sqRngStreamInit ids.seed ids.tensorId ids.invocationId with
      | some stream => .ok (streamWord stream)
      | none => .error .errIdOverflow

/-- The status of storing the header and the payload. -/
def storeStatus (bitWidth : ℕ) (x : F32Array) (scale : F32) : SqStatus :=
  if bitWidth ≠ sqQ4Bits ∧ bitWidth ≠ sqQ8Bits then .errBitWidth
  else encodeStatus x.get x.count scale

/-- The scale and the codes of a compression. -/
structure TensorRecord where
  scale : F32
  codes : ℕ → Byte

/-- The record of a tensor, or the status with which compression fails. -/
def tensorRecord [Arith Format.binary32] (bitWidth : ℕ) (x : F32Array)
    (ids : StreamIds) (prescribedScale : Option F32) (prescribedWords : Ptr Word) :
    Except SqStatus TensorRecord :=
  match resolveScale x prescribedScale, resolveWords ids prescribedWords with
  | .error status, _ => .error status
  | .ok _, .error status => .error status
  | .ok scale, .ok words =>
      if storeStatus bitWidth x scale = .ok then
        .ok ⟨scale, fun i =>
          elementCode (signedLimit bitWidth) scale (x.get i) (words i)⟩
      else .error (storeStatus bitWidth x scale)

/-- The payload bytes of codes. -/
def payloadBytes (bitWidth count : ℕ) (codes : ℕ → Byte) : List Byte :=
  (List.range (sqPayloadSize bitWidth count)).map
    (payloadByte bitWidth count codes)

/-- The bytes of a record. -/
def recordBytes (bitWidth count : ℕ) (record : TensorRecord) : List Byte :=
  headerBytes bitWidth count record.scale ++
    payloadBytes bitWidth count record.codes

/-- A workspace reserved for a number of elements. -/
structure Reserved (workspace : SqCpuCompressWorkspace) (count : ℕ) : Prop where
  words_capacity : count ≤ workspace.generatedWordCapacity
  words_present : workspace.generatedWordCapacity ≠ 0 →
    workspace.generatedWords.isSome = true
  partials_capacity : sqScaleWorkspaceElements count ≤ workspace.scalePartialCapacity
  partials_present : workspace.scalePartialCapacity ≠ 0 →
    workspace.scalePartials.isSome = true

/-- What the stages of a backend compute. -/
structure StagesCorrect [Arith Format.binary32] (omp : OmpRuntime)
    (backend : SqBackend) (x : F32Array) : Prop where
  scale : ∀ (partials : Ptr F32) (capacity : ℕ),
    (x.count ≠ 0 → partials.isSome = true ∧
      sqScaleWorkspaceElements x.count ≤ capacity) →
    ∃ partials', cpuComputeScale omp x.values x.count (some zeroF) partials
        capacity backend =
      ((scaleOutcome (tensorScale x.get x.count)).1,
        some (scaleOutcome (tensorScale x.get x.count)).2, partials')
  words : ∀ (stream : SqRngStream) (out : ℕ → Word),
    cpuRngWords omp stream x.count (some out) backend =
      some fun i => if i < x.count then streamWord stream i else out i
  encode : ∀ {bitWidth : ℕ}, Supported bitWidth → ∀ (scale : F32)
    (words : Ptr Word) (payload : ℕ → Byte),
    (x.count ≠ 0 → words.isSome = true) →
    cpuEncodePayload omp bitWidth x.values x.count scale words (some payload)
        backend =
      (encodeStatus x.get x.count scale,
        some (if encodeStatus x.get x.count scale = .ok then
          packCodes bitWidth x.count
            (fun i => elementCode (signedLimit bitWidth) scale (x.get i)
              (words.getD (fun _ => 0#32) i)) payload
        else payload))

theorem F32Array.count_le (x : F32Array) : x.count ≤ sizeMax := by
  have := x.fits
  unfold sizeMax at *
  omega

theorem packCodes_empty (bitWidth : ℕ) (codes payload : ℕ → Byte) :
    packCodes bitWidth 0 codes payload = payload := by
  funext k
  simp [packCodes, sqPayloadSize]

/-- The checks of an empty input, whatever its pointers are. -/
theorem sqEncodePayloadPrologue_empty {bitWidth : ℕ}
    (supported : Supported bitWidth) (values : Ptr F32) (scale : F32)
    (words : Ptr Word) (payload : Ptr Byte) (scan : Option SqEncodeInputScan)
    (state : SqEncodePayloadState) (get : ℕ → F32) :
    sqEncodePayloadPrologue bitWidth values 0 scale words payload scan
        (some state) =
      (encodeStatus get 0 scale,
        some ⟨signedLimit bitWidth, decide (encodeStatus get 0 scale = .ok)⟩,
        payload) := by
  unfold sqEncodePayloadPrologue encodeStatus
  dsimp only
  rw [if_neg supported.ne]
  cases isfinite scale <;> cases scale.lt zeroF <;> cases scale.eq zeroF <;> simp

theorem encodeStatus_empty_cases (get : ℕ → F32) (scale : F32) :
    encodeStatus get 0 scale = .ok ∨ encodeStatus get 0 scale = .errScale := by
  unfold encodeStatus
  cases isfinite scale <;> cases scale.lt zeroF <;> cases scale.eq zeroF <;> simp

section

variable [Arith Format.binary32]

theorem sqEncodePayload_empty {bitWidth : ℕ} (supported : Supported bitWidth)
    (values : Ptr F32) (scale : F32) (words : Ptr Word) (payload : ℕ → Byte)
    (get : ℕ → F32) :
    sqEncodePayload bitWidth values 0 scale words (some payload) =
      (encodeStatus get 0 scale, some payload) := by
  unfold sqEncodePayload
  rw [sqEncodePayloadPrologue_empty supported _ _ _ _ _ _ get]
  rcases encodeStatus_empty_cases get scale with ok | bad
  · cases values <;> cases words <;> simp [ok]
  · cases values <;> cases words <;> simp [bad]

theorem sqAvx2EncodePayload_empty (scan encode : OmpRegion) {bitWidth : ℕ}
    (supported : Supported bitWidth) (values : Ptr F32) (scale : F32)
    (words : Ptr Word) (payload : ℕ → Byte) (get : ℕ → F32) :
    sqAvx2EncodePayload scan encode bitWidth values 0 scale words (some payload) =
      (encodeStatus get 0 scale, some payload) := by
  unfold sqAvx2EncodePayload
  rw [sqEncodePayloadPrologue_empty supported _ _ _ _ _ _ get]
  rcases encodeStatus_empty_cases get scale with ok | bad
  · cases values <;> cases words <;> simp [ok]
  · cases values <;> cases words <;> simp [bad]

theorem stagesCorrect_cpu (omp : OmpRuntime) (x : F32Array) :
    StagesCorrect omp .cpu x where
  scale partials capacity sufficient := by
    by_cases empty : x.count = 0
    · refine ⟨partials, ?_⟩
      rw [empty]
      unfold cpuComputeScale sqComputeScaleWithWorkspace
      cases x.values <;> rfl
    · rw [x.values_eq empty]
      exact sqComputeScaleWithWorkspace_eq x.get zeroF partials x.count_le
        sufficient
  words stream out := by
    rw [cpuRngWords, Option.map_some, sqRngWordsCpu_eq]
  encode {bitWidth} supported scale words payload present := by
    rw [cpuEncodePayload]
    by_cases empty : x.count = 0
    · rw [empty, sqEncodePayload_empty supported _ _ _ _ x.get, packCodes_empty,
        ite_self]
    · obtain ⟨array, rfl⟩ := Option.isSome_iff_exists.mp (present empty)
      rw [x.values_eq empty]
      exact sqEncodePayload_eq supported x.get x.count scale array payload

end

theorem stagesCorrect_cpuAvx2 [RoundedArith Format.binary32] (omp : OmpRuntime)
    (x : F32Array) : StagesCorrect omp .cpuAvx2 x where
  scale partials capacity sufficient := by
    by_cases empty : x.count = 0
    · refine ⟨partials, ?_⟩
      rw [empty]
      unfold cpuComputeScale sqAvx2ComputeScaleWithWorkspace
      cases x.values <;> rfl
    · rw [x.values_eq empty]
      exact sqAvx2ComputeScaleWithWorkspace_eq omp.scaleScan omp.blockSums x.get
        zeroF partials x.count_le sufficient
  words stream out := by
    have bound : 4 * x.count ≤ sizeMax := by
      have := x.fits
      omega
    rw [cpuRngWords, Option.map_some, sqAvx2RngWords_eq stream bound]
    exact fun same => SqBackend.noConfusion same
  encode {bitWidth} supported scale words payload present := by
    rw [cpuEncodePayload]
    · by_cases empty : x.count = 0
      · rw [empty, sqAvx2EncodePayload_empty _ _ supported _ _ _ _ x.get,
          packCodes_empty, ite_self]
      · obtain ⟨array, rfl⟩ := Option.isSome_iff_exists.mp (present empty)
        rw [x.values_eq empty, sqAvx2EncodePayload_eq supported]
        exact sqEncodePayload_eq supported x.get x.count scale array payload
    · exact fun same => SqBackend.noConfusion same

/-- The status of a result. -/
def resultStatus {α : Type} : Except SqStatus α → SqStatus
  | .ok _ => .ok
  | .error status => status

theorem headerBytes_length (bitWidth count : ℕ) (scale : F32) :
    (headerBytes bitWidth count scale).length = sqHeaderSize := rfl

theorem payloadBytes_length (bitWidth count : ℕ) (codes : ℕ → Byte) :
    (payloadBytes bitWidth count codes).length = sqPayloadSize bitWidth count := by
  simp [payloadBytes]

theorem withPayload_storeBytes (bitWidth count : ℕ) (record : TensorRecord)
    (buffer : ℕ → Byte) :
    withPayload (storeBytes buffer (headerBytes bitWidth count record.scale))
        (packCodes bitWidth count record.codes fun k =>
          storeBytes buffer (headerBytes bitWidth count record.scale)
            (sqHeaderSize + k)) =
      storeBytes buffer (recordBytes bitWidth count record) := by
  have headerLength := headerBytes_length bitWidth count record.scale
  have payloadLength := payloadBytes_length bitWidth count record.codes
  funext k
  unfold withPayload storeBytes recordBytes packCodes
  simp only [List.getD_eq_getElem?_getD]
  by_cases inHeader : k < sqHeaderSize
  · rw [if_pos inHeader, List.getElem?_append_left (by omega)]
  · have index : sqHeaderSize + (k - sqHeaderSize) = k := by omega
    rw [if_neg inHeader, List.getElem?_append_right (by omega), headerLength, index]
    by_cases inPayload : k - sqHeaderSize < sqPayloadSize bitWidth count
    · rw [if_pos inPayload, payloadBytes, List.getElem?_map,
        List.getElem?_range inPayload]
      rfl
    · rw [if_neg inPayload, List.getElem?_eq_none (by omega),
        List.getElem?_eq_none (by omega)]

/-- The header is stored unless the payload checks would reject the scale. -/
theorem sqHeaderEncode_eq {bitWidth : ℕ} (supported : Supported bitWidth)
    (values : ℕ → F32) (count : ℕ) (scale : F32) (buffer : ℕ → Byte) :
    sqHeaderEncode bitWidth count scale (some buffer) =
        (.ok, some (storeBytes buffer (headerBytes bitWidth count scale))) ∨
      sqHeaderEncode bitWidth count scale (some buffer) =
          (.errScale, some buffer) ∧
        encodeStatus values count scale = .errScale := by
  unfold sqHeaderEncode encodeStatus
  dsimp only
  rw [if_neg supported.ne]
  by_cases empty : count = 0 <;> cases isfinite scale <;>
    cases scale.lt zeroF <;> cases scale.eq zeroF <;> simp [empty]

section

variable [Arith Format.binary32] {omp : OmpRuntime} {backend : SqBackend}
  {x : F32Array}

theorem cpuStore_eq (stages : StagesCorrect omp backend x)
    (bitWidth : ℕ) (scale : F32) (words : Ptr Word) {drawn : ℕ → Word}
    (present : x.count ≠ 0 → words.isSome = true)
    (same : ∀ i < x.count, words.getD (fun _ => 0#32) i = drawn i)
    (buffer : ℕ → Byte) :
    ∃ buffer',
      cpuStore omp backend bitWidth x.values x.count scale words (some buffer) =
          (storeStatus bitWidth x scale, some buffer') ∧
      (storeStatus bitWidth x scale = .ok →
        buffer' = storeBytes buffer (recordBytes bitWidth x.count
          ⟨scale, fun i =>
            elementCode (signedLimit bitWidth) scale (x.get i) (drawn i)⟩)) := by
  by_cases supported : bitWidth ≠ sqQ4Bits ∧ bitWidth ≠ sqQ8Bits
  · refine ⟨buffer, ?_, ?_⟩
    · simp only [cpuStore, sqHeaderEncode, storeStatus, if_pos supported]
    · simp [storeStatus, supported]
  have known : Supported bitWidth := by
    unfold Supported
    omega
  have status : storeStatus bitWidth x scale =
      encodeStatus x.get x.count scale := if_neg supported
  rw [status, cpuStore]
  rcases sqHeaderEncode_eq known x.get x.count scale buffer with
    stored | ⟨rejected, bad⟩
  · rw [stored]
    dsimp only
    rw [stages.encode known scale words _ present]
    refine ⟨_, rfl, fun ok => ?_⟩
    rw [if_pos ok, packCodes_congr known _ fun i below => by rw [same i below]]
    exact withPayload_storeBytes bitWidth x.count
      ⟨scale, fun i =>
        elementCode (signedLimit bitWidth) scale (x.get i) (drawn i)⟩ buffer
  · rw [rejected, bad]
    exact ⟨buffer, rfl, fun ok => SqStatus.noConfusion ok⟩

/-- The result of a compression whose scale and words are known. -/
def storedRecord (bitWidth : ℕ) (x : F32Array) (scale : F32)
    (words : ℕ → Word) : Except SqStatus TensorRecord :=
  if storeStatus bitWidth x scale = .ok then
    .ok ⟨scale, fun i =>
      elementCode (signedLimit bitWidth) scale (x.get i) (words i)⟩
  else .error (storeStatus bitWidth x scale)

/-- A buffer holds the record of a result, if there is one. -/
def Holds (bitWidth count : ℕ) (result : Except SqStatus TensorRecord)
    (before after : ℕ → Byte) : Prop :=
  ∀ record, result = .ok record →
    after = storeBytes before (recordBytes bitWidth count record)

theorem storedRecord_spec {bitWidth : ℕ} {scale : F32} {drawn : ℕ → Word}
    {buffer buffer' : ℕ → Byte}
    (bytes : storeStatus bitWidth x scale = .ok →
      buffer' = storeBytes buffer (recordBytes bitWidth x.count
        ⟨scale, fun i =>
          elementCode (signedLimit bitWidth) scale (x.get i) (drawn i)⟩)) :
    resultStatus (storedRecord bitWidth x scale drawn) =
        storeStatus bitWidth x scale ∧
      Holds bitWidth x.count (storedRecord bitWidth x scale drawn) buffer
        buffer' := by
  unfold Holds storedRecord
  by_cases ok : storeStatus bitWidth x scale = .ok
  · rw [if_pos ok]
    refine ⟨ok.symm, ?_⟩
    rintro record ⟨rfl⟩
    exact bytes ok
  · rw [if_neg ok]
    exact ⟨rfl, fun record found => by cases found⟩

theorem cpuDrawAndStore_eq (stages : StagesCorrect omp backend x)
    (workspace : SqCpuCompressWorkspace)
    (present : x.count ≠ 0 → workspace.generatedWords.isSome = true)
    (bitWidth : ℕ) (ids : StreamIds) (scale : F32) (prescribedWords : Ptr Word)
    (buffer : ℕ → Byte) :
    ∃ workspace' buffer',
      cpuDrawAndStore omp backend bitWidth x.values x.count ids scale
          prescribedWords workspace (some buffer) =
        (resultStatus (tensorRecord bitWidth x ids (some scale) prescribedWords),
          workspace', some buffer') ∧
      Holds bitWidth x.count
        (tensorRecord bitWidth x ids (some scale) prescribedWords) buffer
        buffer' := by
  unfold cpuDrawAndStore tensorRecord resolveWords
  cases prescribedWords with
  | some words =>
      obtain ⟨buffer', stored, bytes⟩ := cpuStore_eq stages bitWidth scale
        (some words) (fun _ => rfl) (fun _ _ => rfl) buffer
      obtain ⟨status, holds⟩ := storedRecord_spec bytes
      refine ⟨workspace, buffer', ?_, holds⟩
      dsimp only
      rw [stored, ← status]
      rfl
  | none =>
      cases sqRngStreamInit ids.seed ids.tensorId ids.invocationId with
      | none => exact ⟨workspace, buffer, rfl, fun record found => by cases found⟩
      | some stream =>
          dsimp only
          have generated : ∀ i < x.count,
              (cpuRngWords omp stream x.count workspace.generatedWords
                backend).getD (fun _ => 0#32) i = streamWord stream i := by
            intro i below
            obtain ⟨out, found⟩ := Option.isSome_iff_exists.mp (present (by omega))
            rw [found, stages.words, Option.getD_some, if_pos below]
          have generatedPresent : x.count ≠ 0 →
              (cpuRngWords omp stream x.count workspace.generatedWords
                backend).isSome = true := by
            intro nonempty
            obtain ⟨out, found⟩ := Option.isSome_iff_exists.mp (present nonempty)
            rw [found, stages.words]
            rfl
          obtain ⟨buffer', stored, bytes⟩ := cpuStore_eq stages bitWidth scale
            _ generatedPresent generated buffer
          obtain ⟨status, holds⟩ := storedRecord_spec bytes
          refine ⟨{ workspace with
            generatedWords := cpuRngWords omp stream x.count
              workspace.generatedWords backend }, buffer', ?_, holds⟩
          rw [stored, ← status]
          rfl

theorem tensorScale_error {values : ℕ → F32} {count : ℕ} {status : SqStatus}
    (failed : tensorScale values count = .error status) : status ≠ .ok := by
  unfold tensorScale at failed
  rintro rfl
  split at failed
  · cases failed
  · split at failed
    · cases failed
    · dsimp only at failed
      split at failed <;> cases failed

/-- A CPU backend with a reserved workspace returns the status of the tensor's
record and, on success, stores the record. -/
theorem sqCpuCompress_eq (stages : StagesCorrect omp backend x)
    {workspace : SqCpuCompressWorkspace} (reserved : Reserved workspace x.count)
    (bitWidth : ℕ) (ids : StreamIds) (prescribedScale : Option F32)
    (prescribedWords : Ptr Word) (buffer : ℕ → Byte) :
    ∃ workspace' buffer',
      sqCpuCompress omp backend bitWidth x.values x.count ids prescribedScale
          prescribedWords workspace (some buffer) =
        (resultStatus
            (tensorRecord bitWidth x ids prescribedScale prescribedWords),
          workspace', some buffer') ∧
      Holds bitWidth x.count
        (tensorRecord bitWidth x ids prescribedScale prescribedWords) buffer
        buffer' := by
  have wordsPresent : x.count ≠ 0 → workspace.generatedWords.isSome = true := by
    intro nonempty
    have := reserved.words_capacity
    exact reserved.words_present (by omega)
  cases prescribedScale with
  | some scale =>
      exact cpuDrawAndStore_eq stages workspace wordsPresent bitWidth ids scale
        prescribedWords buffer
  | none =>
      have sufficient : x.count ≠ 0 →
          workspace.scalePartials.isSome = true ∧
            sqScaleWorkspaceElements x.count ≤ workspace.scalePartialCapacity := by
        intro nonempty
        have capacity := reserved.partials_capacity
        have elements := sqScaleWorkspaceElements_eq nonempty x.count_le
        have pos : 0 < 2 ^ paddedBits x.count := by positivity
        exact ⟨reserved.partials_present (by omega), capacity⟩
      obtain ⟨partials, scaled⟩ := stages.scale workspace.scalePartials
        workspace.scalePartialCapacity sufficient
      unfold sqCpuCompress
      rw [scaled]
      cases outcome : tensorScale x.get x.count with
      | ok scale =>
          have resolved : tensorRecord bitWidth x ids none prescribedWords =
              tensorRecord bitWidth x ids (some scale) prescribedWords := by
            unfold tensorRecord resolveScale
            rw [outcome]
          rw [resolved]
          exact cpuDrawAndStore_eq stages { workspace with scalePartials := partials }
            wordsPresent bitWidth ids scale prescribedWords buffer
      | error status =>
          have notOk := tensorScale_error outcome
          have failed : tensorRecord bitWidth x ids none prescribedWords =
              .error status := by
            unfold tensorRecord resolveScale
            rw [outcome]
          rw [failed]
          refine ⟨{ workspace with scalePartials := partials }, buffer, ?_,
            fun record found => by cases found⟩
          cases status <;> first | rfl | exact absurd rfl notOk

end

end Stoquant

import Stoquant.Codec.Accepted
import Stoquant.Native.CudaProcess
import Stoquant.Native.Expect

/-!
# The record of `compress`

What `compress` loads and the record that it makes of it, on either device.  Where no file,
allocation or CUDA call fails, it ends with the status of making the record and writes it.
-/

namespace Stoquant

open Abort Ieee

/-! ## One compression -/

section

variable [RoundedArith Format.binary32] {bitWidth : ℕ} {x : F32Array} {ids : StreamIds}
  {prescribedScale : Option F32} {prescribedWords : Ptr Word}

/-- The record depends on the elements of the array alone. -/
theorem tensorRecord_sameElements {y : F32Array} (count : y.count = x.count)
    (same : ∀ i < x.count, y.get i = x.get i) :
    (do
      let record ← tensorRecord bitWidth y ids prescribedScale prescribedWords
      return recordBytes bitWidth y.count record) = do
      let record ← tensorRecord bitWidth x ids prescribedScale prescribedWords
      return recordBytes bitWidth x.count record := by
  have rescaled : resolveScale y prescribedScale = resolveScale x prescribedScale := by
    unfold resolveScale
    cases prescribedScale with
    | some scale => rfl
    | none =>
        dsimp only
        rw [count]
        exact tensorScale_congr same
  have stored : ∀ scale, storeStatus bitWidth y scale = storeStatus bitWidth x scale := by
    intro scale
    unfold storeStatus
    rw [count, encodeStatus_congr same]
  unfold tensorRecord
  rw [rescaled]
  cases resolveScale x prescribedScale with
  | error status => rfl
  | ok scale =>
      cases resolveWords ids prescribedWords with
      | error status => rfl
      | ok words =>
          dsimp only
          rw [stored]
          by_cases encoded : storeStatus bitWidth x scale = .ok
          · rw [if_pos encoded, if_pos encoded]
            have supported : Supported bitWidth := by
              by_contra other
              unfold storeStatus at encoded
              rw [if_pos (not_or.mp other)] at encoded
              cases encoded
            apply congrArg Except.ok
            unfold recordBytes payloadBytes
            rw [count]
            apply congrArg (headerBytes bitWidth x.count scale ++ ·)
            apply List.map_congr_left
            intro k member
            apply payloadByte_congr supported (List.mem_range.mp member)
            intro i inside
            dsimp only
            rw [same i inside]
          · rw [if_neg encoded, if_neg encoded]
            rfl

/-- Whether the record can be made does not depend on the stream. -/
theorem tensorRecord_otherIds {record : TensorRecord}
    (found : tensorRecord bitWidth x ids prescribedScale prescribedWords = .ok record)
    {others : StreamIds} (tensorId : others.tensorId.toNat ≤ uint32Max)
    (invocationId : others.invocationId.toNat ≤ uint32Max) :
    ∃ other, tensorRecord bitWidth x others prescribedScale prescribedWords = .ok other := by
  have accepted := tensorRecord_exists_iff.mp ⟨record, found⟩
  apply tensorRecord_exists_iff.mpr
  exact { accepted with fits := fun _ => ⟨tensorId, invocationId⟩ }

theorem tensorRecord_nonfinite (supported : Supported bitWidth)
    (tensorId : ids.tensorId.toNat ≤ uint32Max)
    (invocationId : ids.invocationId.toNat ≤ uint32Max)
    (scaleValid : ∀ scale, prescribedScale = some scale →
      isfinite scale = true ∧ scale.lt zeroF = false)
    (nonfinite : allFinite x.get x.count = false) :
    tensorRecord bitWidth x ids prescribedScale prescribedWords = .error .errNonfinite := by
  have nonempty : x.count ≠ 0 := by
    intro empty
    rw [empty] at nonfinite
    cases nonfinite
  cases prescribed : prescribedScale with
  | none =>
      have scaled : resolveScale x none = .error .errNonfinite := tensorScale_nonfinite nonfinite
      simp only [tensorRecord, scaled]
  | some scale =>
      obtain ⟨finite, nonneg⟩ := scaleValid scale prescribed
      have refused : storeStatus bitWidth x scale = .errNonfinite := by
        unfold storeStatus encodeStatus
        rw [if_neg supported.ne, if_neg (by simp [finite, nonneg]), if_neg nonempty,
          if_pos (by simp [nonfinite])]
      have scaled : resolveScale x (some scale) = .ok scale := rfl
      obtain ⟨words, drawn⟩ := (@resolveWords_ok_iff ids prescribedWords).mpr
        fun _ => ⟨tensorId, invocationId⟩
      simp [tensorRecord, scaled, drawn, refused]

end

/-! ## One input -/

/-- The scale that a command prescribes. -/
def SqOptions.prescribedScale (options : SqOptions) : Option F32 :=
  if options.seen.scale then some options.scale else none

/-- The record that a command is to make of its input. -/
def SqOptions.made [Arith Format.binary32] (options : SqOptions) (x : F32Array)
    (words : Ptr Word) : Except SqStatus TensorRecord :=
  tensorRecord options.bits x (options.streamIds options.seed) options.prescribedScale words

/-- The array that an input file holds. -/
def inputArray (input : List Byte) (fits : input.length / 4 ≤ sizeMax / 4) : F32Array where
  values := arrayOf (input.length / 4) (sqLoadF32ArrayLe input)
  count := input.length / 4
  present nonempty := by rw [arrayOf, if_neg nonempty]; rfl
  fits := fits

/-- The words that a word file holds for a number of elements. -/
def loadedWords (count : ℕ) : Option (List Byte) → Except SqStatus (Ptr Word)
  | none => .ok none
  | some bytes =>
      if bytes.length ≠ count * 4 then .error .errPayloadLength
      else .ok (arrayOf count (sqLoadU32ArrayLe bytes))

/-- The array and the words that both commands load from their files, or the status of the
first check that fails. -/
def loadedInput (input : List Byte) (words : Option (List Byte)) :
    Except SqStatus (F32Array × Ptr Word) :=
  if input.length % 4 ≠ 0 then .error .errPayloadLength
  else if fits : input.length / 4 ≤ sizeMax / 4 then do
    let words ← loadedWords (input.length / 4) words
    return (inputArray input fits, words)
  else .error .errCount

/-- The record that a command writes, or the status it ends with. -/
def commandRecord [Arith Format.binary32] (world : World) (options : SqOptions)
    (input : List Byte) (words : Option (List Byte)) : Except SqStatus (List Byte) := do
  let _ ← world.threads options
  let (x, words) ← loadedInput input words
  let record ← options.made x words
  return recordBytes options.bits x.count record

/-- A run in which every file is read and written and every allocation succeeds. -/
structure FilesAndMemory (world : World) (options : SqOptions) (input : List Byte)
    (words : Option (List Byte)) : Prop where
  read : world.readInput (options.inputPath.getD "") = some input
  readWords : options.wordsPath.map world.readWords = words.map some
  allocates : ∀ buffer size, world.allocates buffer size = true
  reserves : ∀ threads, world.threads options = .ok threads →
    world.reserve options.backend threads (input.length / 4) = .ok
  writes : world.Writes

section

variable {strtof : String → Option F32} {command : SqCommand} {arguments : List String}
  {options : SqOptions}

theorem acceptedOptions_scale (accepted : acceptedOptions strtof command arguments = .ok options) :
    isfinite options.scale = true ∧ options.scale.lt zeroF = false := by
  obtain ⟨parsed, parse, valid⟩ := bind_eq_ok.mp accepted
  obtain ⟨settings, reads, rfl⟩ := parseArguments_eq_ok_iff.mp parse
  have settled : isfinite (applySettings settings optionsInit).scale = true ∧
      (applySettings settings optionsInit).scale.lt zeroF = false := by
    refine @ReadsAs.run _ _ (fun options => isfinite options.scale = true ∧
      options.scale.lt zeroF = false) _ _ reads ?_ _ (by decide)
    intro id text value taken denotes options holds
    cases id with
    | scale =>
        obtain ⟨found, valid⟩ := Option.filter_eq_some_iff.mp denotes
        have legal : value.isFinite = true ∧ value.lt zeroF = false := by simpa using valid
        exact legal
    | _ => exact holds
  obtain ⟨-, checks⟩ := sqCliValidate_spec valid
  split at checks
  · rw [checks]
    exact settled
  obtain ⟨-, -, checks⟩ := checks
  split at checks
  · obtain ⟨row, resolved⟩ := checks
    obtain ⟨-, -, -, -, -, same⟩ := resolveBench_eq resolved
    rw [same]
    exact settled
  · rw [checks]
    exact settled

theorem prescribedScale_valid
    (accepted : acceptedOptions strtof command arguments = .ok options) (scale : F32)
    (prescribed : options.prescribedScale = some scale) :
    isfinite scale = true ∧ scale.lt zeroF = false := by
  unfold SqOptions.prescribedScale at prescribed
  split at prescribed
  · cases prescribed
    exact acceptedOptions_scale accepted
  · cases prescribed

variable {world : World} {input : List Byte} {words : Option (List Byte)}

theorem FilesAndMemory.loadValues_eq (given : FilesAndMemory world options input words) :
    loadValues world (options.inputPath.getD "") =
      if input.length % 4 ≠ 0 then .error .errPayloadLength
      else if input.length / 4 ≤ sizeMax / 4 then .ok (input, input.length / 4)
      else .error .errCount := by
  unfold loadValues
  rw [given.read]
  by_cases partialWord : input.length % 4 ≠ 0
  · simp [partialWord, failWhen, bind, Except.bind]
  · by_cases fits : input.length / 4 ≤ sizeMax / 4
    · have small : ¬ (input.length / 4 > sizeMax / 4 ∨
          input.length / 4 > sizeMax - sqHeaderSize) := by
        unfold sizeMax sqHeaderSize at *
        omega
      simp [partialWord, fits, small, failWhen, bind, Except.bind, pure, Except.pure]
    · have large : input.length / 4 > sizeMax / 4 := by omega
      simp [partialWord, fits, large, failWhen, bind, Except.bind]

theorem FilesAndMemory.loadWordBytes_eq (given : FilesAndMemory world options input words)
    {path : String} (named : options.wordsPath = some path) {bytes : List Byte}
    (present : words = some bytes) {count : ℕ} (fits : count ≤ sizeMax / 4) :
    loadWordBytes world path count =
      if bytes.length ≠ count * 4 then .error .errPayloadLength else .ok bytes := by
  have read := given.readWords
  rw [named, present, Option.map_some, Option.map_some] at read
  unfold loadWordBytes
  rw [Option.some.inj read]
  dsimp only
  split
  · rename_i rejected
    rw [if_pos (by omega)]
  · rename_i accepted
    rw [if_neg (by omega)]

theorem FilesAndMemory.unnamed (given : FilesAndMemory world options input words)
    (absent : words = none) : options.wordsPath = none := by
  have read := given.readWords
  rw [absent] at read
  exact Option.map_eq_none_iff.mp read

theorem FilesAndMemory.named (given : FilesAndMemory world options input words)
    {bytes : List Byte} (present : words = some bytes) :
    ∃ path, options.wordsPath = some path := by
  have read := given.readWords
  rw [present] at read
  obtain ⟨path, named, -⟩ := Option.map_eq_some_iff.mp read
  exact ⟨path, named⟩

/-- Up to its compression `compress` loads its input. -/
theorem FilesAndMemory.compressJob_eq (given : FilesAndMemory world options input words)
    (accepted : acceptedOptions strtof .compress arguments = .ok options)
    (ids : options.IdsFit) :
    compressJob world strtof arguments = do
      let threads ← world.threads options
      let (x, words) ← loadedInput input words
      return ⟨options, threads, x.values, x.count, words⟩ := by
  obtain ⟨parsed, parse, valid⟩ := bind_eq_ok.mp accepted
  unfold compressJob
  rw [parse]
  simp only [bind, Except.bind, valid, ids.rangeValid, given.loadValues_eq]
  cases threads : world.threads options with
  | error status => rfl
  | ok threads =>
      simp only [failWhen, loadedInput]
      by_cases partialWord : input.length % 4 ≠ 0
      · simp [partialWord]
      by_cases fits : input.length / 4 ≤ sizeMax / 4
      · cases present : words with
        | none =>
            simp [partialWord, fits, given.unnamed present, given.allocates, loadedWords,
              inputArray, pure, Except.pure, bind, Except.bind]
        | some bytes =>
            obtain ⟨path, named⟩ := given.named present
            have loaded := given.loadWordBytes_eq named present fits
            by_cases length : bytes.length ≠ input.length / 4 * 4
            · simp [partialWord, fits, named, given.allocates, loadedWords, loaded, length,
                bind, Except.bind]
            · simp [partialWord, fits, named, given.allocates, loadedWords, loaded, length,
                inputArray, pure, Except.pure, bind, Except.bind]
      · simp [partialWord, fits]

/-- Up to its first compression `bench` loads the same input and rejects one that is not
finite. -/
theorem FilesAndMemory.benchJob_eq (given : FilesAndMemory world options input words)
    (accepted : acceptedOptions strtof .bench arguments = .ok options) {legality : SqLegality}
    (row : sqCliLegality options.backend options.boundary = some legality)
    (range : sqInvocationRangeValid options.tensorId options.invocationId options.warmups
      options.reps legality.idStep = true)
    (samples : options.reps ≤ sizeMax / sampleSize) :
    benchJob world strtof arguments = do
      let threads ← world.threads options
      let (x, words) ← loadedInput input words
      checked (sqValidateInput x.values x.count)
      return { options, threads, values := x.values, count := x.count, words, legality } := by
  obtain ⟨parsed, parse, valid⟩ := bind_eq_ok.mp accepted
  obtain ⟨finite, nonneg⟩ := acceptedOptions_scale accepted
  have enough : ¬ options.reps > sizeMax / sampleSize := by omega
  unfold benchJob
  rw [parse]
  simp only [bind, Except.bind, valid, row, range, given.loadValues_eq]
  cases threads : world.threads options with
  | error status => rfl
  | ok threads =>
      simp only [failWhen, loadedInput]
      by_cases partialWord : input.length % 4 ≠ 0
      · simp [partialWord, enough]
      by_cases fits : input.length / 4 ≤ sizeMax / 4
      · have payload : ¬ sqPayloadSize (options.bits % 256) (input.length / 4) >
            sizeMax - sqHeaderSize := by
          unfold sqPayloadSize
          unfold sizeMax sqHeaderSize at *
          split
          · omega
          · omega
        cases present : words with
        | none =>
            simp [partialWord, fits, given.unnamed present, given.allocates, loadedWords,
              inputArray, pure, Except.pure, bind, Except.bind, enough, payload, finite, nonneg]
        | some bytes =>
            obtain ⟨path, named⟩ := given.named present
            have loaded := given.loadWordBytes_eq named present fits
            by_cases length : bytes.length ≠ input.length / 4 * 4
            · simp [partialWord, fits, named, given.allocates, loadedWords, loaded, length,
                bind, Except.bind, enough, payload]
            · simp [partialWord, fits, named, given.allocates, loadedWords, loaded, length,
                inputArray, pure, Except.pure, bind, Except.bind, enough, payload, finite, nonneg]
      · simp [partialWord, fits, enough]

end

/-! ## `compress` -/

/-- A run of `compress` on an accepted command line with identifiers that fit, in which no
file, allocation or CUDA call fails. -/
structure FaultlessCompress [Arith Format.binary32] (world : World) (strtof : String → Option F32)
    (arguments : List String) (options : SqOptions) (input : List Byte)
    (words : Option (List Byte)) : Prop where
  accepted : acceptedOptions strtof .compress arguments = .ok options
  ids : options.IdsFit
  given : FilesAndMemory world options input words
  onCpu : options.backend ≠ .cuda → ∀ job, compressJob world strtof arguments = .ok job →
    ∀ x : F32Array, x.values = job.values → x.count = job.count →
      CpuProcess world x (fun _ => cpuArgs job.options job.values job.count
        job.options.invocationId job.words job.threads) 1
  onGpu : options.backend = .cuda → ∀ job, compressJob world strtof arguments = .ok job →
    world.CompressesOnDevice 0 (makeCudaConfig job.options (job.options.bits % 2 ^ 8) job.values
      job.count job.options.seed job.words 1)

section

variable {strtof : String → Option F32} {command : SqCommand} {arguments : List String}
  {options : SqOptions} {world : World} {input : List Byte} {words : Option (List Byte)}

theorem makeCudaConfig_fits (accepted : acceptedOptions strtof command arguments = .ok options)
    (ids : options.IdsFit) (x : F32Array) (prescribedWords : Ptr Word) (step : ℕ) :
    (makeCudaConfig options options.bits x.values x.count options.seed prescribedWords
      step).Fits x := by
  obtain ⟨supported, -⟩ := acceptedOptions_bits accepted
  have checked : checkedOptions strtof command true arguments = .ok options := accepted
  obtain ⟨settings, -, legal⟩ := legal_of_accepted checked
  obtain ⟨positive, block⟩ := legal.blockSize
  have grid := legal.gridSize
  refine ⟨rfl, rfl, supported, ?_, ids.tensorId, ids.invocationId⟩
  unfold validLaunchGeometry makeCudaConfig
  rw [decide_eq_true_eq]
  refine ⟨?_, ?_, ?_, ?_⟩
  · exact_mod_cast positive
  · exact_mod_cast block
  · exact Int.natCast_nonneg _
  · exact_mod_cast grid

variable [RoundedArith Format.binary32]

theorem cpuArgs_made (accepted : acceptedOptions strtof command arguments = .ok options)
    (x : F32Array) (values : Ptr F32) (count invocationId : ℕ) (prescribedWords : Ptr Word)
    (threads : ℕ) :
    let args := cpuArgs options values count invocationId prescribedWords threads
    tensorRecord args.bitWidth x args.ids args.prescribedScale args.prescribedWords =
      tensorRecord options.bits x ⟨BitVec.ofNat 64 options.seed, BitVec.ofNat 64 options.tensorId,
        BitVec.ofNat 64 invocationId⟩ options.prescribedScale prescribedWords := by
  obtain ⟨-, bits⟩ := acceptedOptions_bits accepted
  unfold cpuArgs
  dsimp only
  rw [bits]
  rfl

theorem FaultlessCompress.compressRecord_eq
    (run : FaultlessCompress world strtof arguments options input words) {threads : ℕ}
    (resolved : world.threads options = .ok threads) {x : F32Array} {prescribedWords : Ptr Word}
    (count : x.count = input.length / 4)
    (job : compressJob world strtof arguments =
      .ok ⟨options, threads, x.values, x.count, prescribedWords⟩) :
    compressRecord world ⟨options, threads, x.values, x.count, prescribedWords⟩ = do
      let record ← options.made x prescribedWords
      return recordBytes options.bits x.count record := by
  obtain ⟨supported, bits⟩ := acceptedOptions_bits run.accepted
  have allocated : ∀ size, failWhen (!world.allocates .record size) .errMemory = .ok () := by
    intro size
    rw [run.given.allocates]
    rfl
  unfold compressRecord
  dsimp only
  rw [bits, allocated]
  by_cases backend : options.backend = .cuda
  · have onGpu := run.onGpu backend _ job
    dsimp only at onGpu
    rw [bits] at onGpu
    obtain ⟨refusal, answer⟩ := onGpu.answer
      (makeCudaConfig_fits run.accepted run.ids x prescribedWords 1)
    show (if options.backend = .cuda then _ else _) = _
    rw [if_pos backend]
    cases made : options.made x prescribedWords with
    | error status =>
        rw [refusal status made]
        rfl
    | ok record =>
        obtain ⟨payload, answered⟩ := answer record made
        obtain ⟨finite, nonneg, empty⟩ := tensorRecord_scale made
        obtain ⟨buffer, encoded, bytes⟩ := cudaRecord_packCodes supported finite nonneg empty
          record.codes payload
        have encodes : cudaRecord options.bits x.count
            (packCodes options.bits x.count record.codes payload) record.scale = .ok buffer :=
          encoded
        have gives : world.cudaCompress 0 (makeCudaConfig options options.bits x.values x.count
            options.seed prescribedWords 1) =
            .ok (packCodes options.bits x.count record.codes payload, record.scale) := answered
        rw [gives]
        show (cudaRecord options.bits x.count
            (packCodes options.bits x.count record.codes payload) record.scale >>= _) = _
        rw [encodes]
        exact congrArg Except.ok bytes
  · have process := run.onCpu backend _ job x rfl rfl
    have reserved : world.reserve options.backend threads x.count = .ok := by
      rw [count]
      exact run.given.reserves threads resolved
    have same := cpuArgs_made run.accepted x x.values x.count options.invocationId prescribedWords
      threads
    show (if options.backend = .cuda then _ else _) = _
    rw [if_neg backend, reserved]
    cases made : options.made x prescribedWords with
    | error status =>
        have stopped := process.refusal Nat.zero_lt_one (same.trans made)
        show (world.cpuCompress 0 _ >>= _) = _
        rw [stopped]
        rfl
    | ok record =>
        obtain ⟨buffer, answered, bytes⟩ := process.answer Nat.zero_lt_one (same.trans made)
        have stored : recordIn options.bits x.count buffer =
            recordBytes options.bits x.count record := by
          rw [← bits]
          exact bytes
        show (world.cpuCompress 0 _ >>= _) = _
        rw [answered]
        exact congrArg Except.ok stored

omit [RoundedArith Format.binary32] in
theorem loadedInput_count {x : F32Array} {prescribedWords : Ptr Word}
    (loaded : loadedInput input words = .ok (x, prescribedWords)) :
    x.count = input.length / 4 := by
  unfold loadedInput at loaded
  split at loaded
  · cases loaded
  split at loaded
  · obtain ⟨_, -, same⟩ := bind_eq_ok.mp loaded
    cases same
    rfl
  · cases loaded

theorem FaultlessCompress.record_eq
    (run : FaultlessCompress world strtof arguments options input words) :
    compressJob world strtof arguments >>= compressRecord world =
      commandRecord world options input words := by
  have job := run.given.compressJob_eq run.accepted run.ids
  unfold commandRecord
  cases resolved : world.threads options with
  | error status =>
      rw [resolved] at job
      rw [job]
      rfl
  | ok threads =>
      cases loaded : loadedInput input words with
      | error status =>
          rw [resolved, loaded] at job
          rw [job]
          rfl
      | ok both =>
          obtain ⟨x, prescribedWords⟩ := both
          rw [resolved, loaded] at job
          rw [job]
          exact run.compressRecord_eq resolved (loadedInput_count loaded) job

/-- `compress` ends with the status of making the record, and writes the record. -/
theorem FaultlessCompress.outcome
    (run : FaultlessCompress world strtof arguments options input words) :
    (∀ status, commandRecord world options input words = .error status →
      exec (compressFile world strtof arguments) ⟨none, []⟩ = (.error status, ⟨none, []⟩)) ∧
    ∀ bytes, commandRecord world options input words = .ok bytes →
      exec (compressFile world strtof arguments) ⟨none, []⟩ = (.ok (), ⟨some bytes, []⟩) := by
  rw [← run.record_eq]
  unfold compressFile
  cases loaded : compressJob world strtof arguments with
  | error status =>
      refine ⟨fun other same => ?_, fun bytes same => ?_⟩
      · rw [← Except.error.inj same]
        rfl
      · cases same
  | ok job =>
      rw [lift_ok_bind]
      cases made : compressRecord world job with
      | error status =>
          refine ⟨fun other same => ?_, fun bytes same => ?_⟩
          · rw [← Except.error.inj (made.symm.trans same)]
            rfl
          · cases made.symm.trans same
      | ok record =>
          refine ⟨fun other same => ?_, fun bytes same => ?_⟩
          · cases made.symm.trans same
          · rw [lift_ok_bind, exec_sqWriteFile run.given.writes,
              Except.ok.inj (made.symm.trans same)]

end

end Stoquant

import Stoquant.Native.BenchedRecord

/-!
# The record of a benchmark

On the same arguments `compress` and `bench` load one input and make one record of it.  Where
no file, allocation, clock or CUDA call fails, both end with the same status, and with
success they write the same record, but for one scale of an empty input.
-/

namespace Stoquant

open Abort Ieee

/-! ## One compression of two commands -/

/-- Options of the two commands that name the same compression.  Its geometry and its variant of
K1 may differ. -/
structure SameCompression (compress bench : SqOptions) : Prop where
  backend : bench.backend = compress.backend
  bits : bench.bits = compress.bits
  seed : bench.seed = compress.seed
  tensorId : bench.tensorId = compress.tensorId
  invocationId : bench.invocationId = compress.invocationId
  scaleSeen : bench.seen.scale = compress.seen.scale
  scale : bench.scale = compress.scale
  threadsSeen : bench.seen.threads = compress.seen.threads

/-- `-0.0f`. -/
def negativeZeroF : F32 := ofF32Bits 0x80000000#32

/-- A bench on the GPU of an empty input, without words and with the scale `-0`. -/
structure NegativeZeroOnGpu (options : SqOptions) (input : List Byte)
    (words : Option (List Byte)) : Prop where
  backend : options.backend = .cuda
  noThreads : options.seen.threads = false
  empty : input = []
  noWords : words = none ∨ words = some []
  scale : options.prescribedScale = some negativeZeroF

theorem scale_zero_cases {scale : F32} (zero : scale.eq zeroF = true) :
    scale = zeroF ∨ scale = negativeZeroF := by
  have mag := eq_zeroF_iff.mp zero
  cases sign : scale.sign with
  | false => exact .inl (Fp.ext sign mag)
  | true =>
      refine .inr (Fp.ext ?_ ?_)
      · rw [sign]
        decide +kernel
      · rw [mag]
        decide +kernel

section

variable [RoundedArith Format.binary32] {compressing benching : World}
  {compress bench : SqOptions} {input : List Byte} {words : Option (List Byte)}

omit [RoundedArith Format.binary32] in
theorem SameCompression.made_eq [Arith Format.binary32] (same : SameCompression compress bench)
    (x : F32Array) (prescribedWords : Ptr Word) :
    bench.made x prescribedWords = compress.made x prescribedWords := by
  unfold SqOptions.made SqOptions.prescribedScale SqOptions.streamIds
  rw [same.bits, same.seed, same.tensorId, same.invocationId, same.scaleSeen, same.scale]

omit [RoundedArith Format.binary32] in
theorem SameCompression.threads_cases (same : SameCompression compress bench)
    (host : benching.avx2Supported = compressing.avx2Supported) :
    (∃ status, compressing.threads compress = .error status ∧
      benching.threads bench = .error status) ∨
    (∃ threads team, compressing.threads compress = .ok threads ∧
      benching.threads bench = .ok team) ∧
      (bench.backend = .cuda → bench.seen.threads = false) := by
  unfold World.threads resolveCpuThreads
  rw [same.backend, same.threadsSeen, host]
  by_cases avx2 : compress.backend ≠ .cpuAvx2
  · rw [if_pos avx2, if_pos avx2]
    cases seen : compress.seen.threads with
    | true => exact .inl ⟨_, rfl, rfl⟩
    | false => exact .inr ⟨⟨_, _, rfl, rfl⟩, fun _ => rfl⟩
  · rw [if_neg avx2, if_neg avx2]
    have notCuda : compress.backend ≠ .cuda := by
      rw [not_not.mp avx2]
      exact Backend.noConfusion
    cases compressing.avx2Supported with
    | false => exact .inl ⟨_, rfl, rfl⟩
    | true => exact .inr ⟨⟨_, _, rfl, rfl⟩, fun cuda => absurd cuda notCuda⟩

theorem SameCompression.records_cases (same : SameCompression compress bench)
    (host : benching.avx2Supported = compressing.avx2Supported) :
    (∃ status, commandRecord compressing compress input words = .error status ∧
      benchedRecord benching bench input words = .error status) ∨
    ∃ x prescribedWords record, loadedInput input words = .ok (x, prescribedWords) ∧
      bench.made x prescribedWords = .ok record ∧
      (bench.backend = .cuda → bench.seen.threads = false) ∧
      commandRecord compressing compress input words =
        .ok (recordBytes bench.bits x.count record) ∧
      benchedRecord benching bench input words =
        .ok (recordBytes bench.bits x.count (record.asBenched bench.backend x.count)) := by
  unfold commandRecord benchedRecord
  rcases same.threads_cases host with ⟨status, compresses, benches⟩ | ⟨resolved, noThreads⟩
  · rw [compresses, benches]
    exact .inl ⟨status, rfl, rfl⟩
  obtain ⟨threads, team, compresses, benches⟩ := resolved
  rw [compresses, benches]
  cases loaded : loadedInput input words with
  | error status => exact .inl ⟨status, rfl, rfl⟩
  | ok both =>
      obtain ⟨x, prescribedWords⟩ := both
      have made := same.made_eq x prescribedWords
      cases found : compress.made x prescribedWords with
      | error status =>
          refine .inl ⟨status, ?_, ?_⟩
          · show (compress.made x prescribedWords >>= _) = _
            rw [found]
            rfl
          · show (bench.made x prescribedWords >>= _) = _
            rw [made, found]
            rfl
      | ok record =>
          refine .inr ⟨x, prescribedWords, record, rfl, made.trans found, noThreads, ?_, ?_⟩
          · show (compress.made x prescribedWords >>= _) = _
            rw [found, same.bits]
            rfl
          · show (bench.made x prescribedWords >>= _) = _
            rw [made, found]
            rfl

theorem asBenched_bytes {x : F32Array} {prescribedWords : Ptr Word} {record : TensorRecord}
    (made : bench.made x prescribedWords = .ok record) :
    recordBytes bench.bits x.count (record.asBenched bench.backend x.count) =
        recordBytes bench.bits x.count record ↔
      ¬ (bench.backend = .cuda ∧ x.count = 0 ∧ bench.prescribedScale = some negativeZeroF) := by
  obtain ⟨-, -, resolved, -⟩ := tensorRecord_ok made
  obtain ⟨-, -, zero⟩ := tensorRecord_scale made
  unfold TensorRecord.asBenched
  by_cases empty : bench.backend = .cuda ∧ x.count = 0
  · rw [if_pos empty]
    have prescribed : bench.prescribedScale = some negativeZeroF ↔ record.scale ≠ zeroF := by
      cases given : bench.prescribedScale with
      | none =>
          -- the computed scale of an empty input is `+0`
          rw [given] at resolved
          have computed : tensorScale x.get x.count = .ok record.scale := resolved
          rw [empty.2] at computed
          have scale : zeroF = record.scale := Except.ok.inj computed
          simp [scale]
      | some scale =>
          rw [given] at resolved
          obtain rfl : scale = record.scale := Except.ok.inj resolved
          rcases scale_zero_cases (zero empty.2) with positive | negative
          · rw [positive]
            decide +kernel
          · rw [negative]
            decide +kernel
    rw [prescribed]
    constructor
    · intro same both
      have scales := congrArg recordScale same
      rw [recordScale_recordBytes, recordScale_recordBytes] at scales
      exact both.2.2 scales.symm
    · intro other
      have scale : record.scale = zeroF := by
        by_contra nonzero
        exact other ⟨empty.1, empty.2, nonzero⟩
      rw [← scale]
  · rw [if_neg empty]
    exact iff_of_true rfl fun both => empty ⟨both.1, both.2.1⟩

omit [RoundedArith Format.binary32] in
theorem loadedInput_empty_iff {x : F32Array} {prescribedWords : Ptr Word}
    (loaded : loadedInput input words = .ok (x, prescribedWords)) :
    x.count = 0 ↔ input = [] ∧ (words = none ∨ words = some []) := by
  have count := loadedInput_count loaded
  unfold loadedInput at loaded
  split at loaded
  · cases loaded
  rename_i whole
  split at loaded
  swap
  · cases loaded
  obtain ⟨read, words_eq, -⟩ := bind_eq_ok.mp loaded
  rw [count]
  constructor
  · intro zero
    have empty : input = [] := List.length_eq_zero_iff.mp (by omega)
    refine ⟨empty, ?_⟩
    cases words with
    | none => exact .inl rfl
    | some bytes =>
        unfold loadedWords at words_eq
        dsimp only at words_eq
        split at words_eq
        · cases words_eq
        · rename_i length
          rw [zero, Nat.zero_mul, not_not] at length
          exact .inr (congrArg some (List.length_eq_zero_iff.mp length))
  · rintro ⟨empty, -⟩
    rw [empty]
    rfl

theorem NegativeZeroOnGpu.benched (negative : NegativeZeroOnGpu bench input words)
    (bits : Supported bench.bits) (ids : bench.IdsFit) :
    ∃ bytes, benchedRecord benching bench input words = .ok bytes := by
  obtain ⟨x, prescribedWords, loaded⟩ :
      ∃ x prescribedWords, loadedInput input words = .ok (x, prescribedWords) := by
    rw [negative.empty]
    rcases negative.noWords with none | empty
    · rw [none]
      exact ⟨_, _, rfl⟩
    · rw [empty]
      exact ⟨_, _, rfl⟩
  have count : x.count = 0 :=
    (loadedInput_empty_iff loaded).mpr ⟨negative.empty, negative.noWords⟩
  have accepted : Compressible bench.bits x (bench.streamIds bench.seed) bench.prescribedScale
      prescribedWords := by
    refine ⟨bits, ?_, ?_, fun none => ?_, fun _ => ids.streamIds bench.seed⟩
    · rw [count]
      exact fun i below => absurd below (Nat.not_lt_zero i)
    · intro scale prescribed
      obtain rfl := Option.some.inj (negative.scale.symm.trans prescribed)
      refine ⟨by decide +kernel, by decide +kernel, iff_of_true (by decide +kernel) ?_⟩
      rw [count]
      exact fun i below => absurd below (Nat.not_lt_zero i)
    · cases negative.scale.symm.trans none
  obtain ⟨record, found⟩ := tensorRecord_exists_iff.mpr accepted
  have made : bench.made x prescribedWords = .ok record := found
  have resolved : benching.threads bench = .ok 0 := by
    unfold World.threads resolveCpuThreads
    rw [negative.backend, negative.noThreads]
    rfl
  refine ⟨recordBytes bench.bits x.count (record.asBenched bench.backend x.count), ?_⟩
  unfold benchedRecord
  rw [resolved, loaded]
  show (bench.made x prescribedWords >>= _) = _
  rw [made]
  rfl

end

/-! ## The records that they write -/

/-- `bench` ends with the status of `compress`, and with success writes its record. -/
structure SameRecord (benched compressed : Except SqStatus Unit × Effects) : Prop where
  status : benched.1 = compressed.1
  record : benched.1 = .ok () → benched.2.output = compressed.2.output

/-- Two commands that succeed agree exactly where the records that they make do. -/
theorem sameRecord_iff [RoundedArith Format.binary32] {compressing benching : World}
    {strtof : String → Option F32} {compressLine benchLine : List String}
    {compressOptions benchOptions : SqOptions} {input : List Byte} {words : Option (List Byte)}
    (compress : FaultlessCompress compressing strtof compressLine compressOptions input words)
    (bench : FaultlessBench benching strtof benchLine benchOptions input words)
    {compressed benched : List Byte}
    (compressedEq : commandRecord compressing compressOptions input words = .ok compressed)
    (benchedEq : benchedRecord benching benchOptions input words = .ok benched) :
    SameRecord (exec (benchFile benching strtof benchLine) ⟨none, []⟩)
        (exec (compressFile compressing strtof compressLine) ⟨none, []⟩) ↔
      benched = compressed := by
  obtain ⟨printed, finished⟩ := bench.outcome.2 _ benchedEq
  rw [finished, compress.outcome.2 _ compressedEq]
  exact ⟨fun both => Option.some.inj (both.record rfl), fun bytes =>
    ⟨rfl, fun _ => congrArg some bytes⟩⟩

/-- Where nothing fails, `bench` writes the record of `compress` but for the scale `-0` of an
empty input on the GPU: `sq_cuda_bench` hands out `0` there, `sq_cuda_compress` the scale that
was prescribed. -/
theorem benchFile_sameRecord_iff [RoundedArith Format.binary32]
    {compressing benching : World} {strtof : String → Option F32}
    {compressLine benchLine : List String} {compressOptions benchOptions : SqOptions}
    {input : List Byte} {words : Option (List Byte)}
    (compress : FaultlessCompress compressing strtof compressLine compressOptions input words)
    (bench : FaultlessBench benching strtof benchLine benchOptions input words)
    (same : SameCompression compressOptions benchOptions)
    (host : benching.avx2Supported = compressing.avx2Supported) :
    SameRecord (exec (benchFile benching strtof benchLine) ⟨none, []⟩)
        (exec (compressFile compressing strtof compressLine) ⟨none, []⟩) ↔
      ¬ NegativeZeroOnGpu benchOptions input words := by
  rcases @same.records_cases _ _ _ _ _ input words host with
    ⟨status, compressed, benched⟩ |
      ⟨x, prescribedWords, record, loaded, made, noThreads, compressed, benched⟩
  · have failed := bench.outcome.1 status benched
    refine iff_of_true ⟨?_, fun succeeded => ?_⟩ fun negative => ?_
    · rw [failed, compress.outcome.1 status compressed]
    · cases failed.symm.trans succeeded
    · -- with the scale `-0` there is a record, so neither command failed
      obtain ⟨supported, -⟩ := acceptedOptions_bits bench.accepted
      obtain ⟨row, -, found, -⟩ := bench.legality_eq
      obtain ⟨ids, -⟩ := bench.runIds found
      obtain ⟨bytes, written⟩ := negative.benched supported ids
      cases benched.symm.trans written
  · rw [sameRecord_iff compress bench compressed benched, asBenched_bytes made,
      loadedInput_empty_iff loaded]
    refine not_congr ⟨fun negative => ?_, fun negative => ?_⟩
    · obtain ⟨cuda, empty, scale⟩ := negative
      exact ⟨cuda, noThreads cuda, empty.1, empty.2, scale⟩
    · exact ⟨negative.backend, ⟨negative.empty, negative.noWords⟩, negative.scale⟩

/-! ## A GPU where nothing fails -/

section

variable [Arith Format.binary32]

/-- A host with an input file and a GPU. -/
def gpuHost (input : List Byte) : World :=
  { stoppedClock with
    readInput := fun _ => some input
    cudaCompress := fun _ config => compressAnswer (sqCudaCompress quietDevice false
      (some config.toCuda) (some fun _ => 0#8) (some zeroF) zeroMemory)
    cudaBench := fun config => benchAnswer (fun _ => emptySample) 0 (sqCudaBench quietDevice
      (some config.toCuda) (some fun _ => 0#8) (some zeroF) true zeroMemory fun _ => 0#8)
    clockNow := fun _ _ => some 0 }

theorem gpuHost_given (input : List Byte) {options : SqOptions}
    (noWords : options.wordsPath = none) :
    FilesAndMemory (gpuHost input) options input none where
  read := rfl
  readWords := congrArg (Option.map fun _ => none) noWords
  allocates _ _ := rfl
  reserves _ _ := rfl
  writes _ := rfl

variable {strtof : String → Option F32} {arguments : List String} {options : SqOptions}

theorem gpuHost_compresses (input : List Byte)
    (accepted : acceptedOptions strtof .compress arguments = .ok options)
    (cuda : options.backend = .cuda) (noWords : options.wordsPath = none)
    (ids : options.IdsFit) :
    FaultlessCompress (gpuHost input) strtof arguments options input none where
  accepted := accepted
  ids := ids
  given := gpuHost_given input noWords
  onCpu other := absurd cuda other
  onGpu _ _ _ := ⟨quietDevice, false, _, _, _, quietDevice_quiet, rfl⟩

omit [Arith Format.binary32] in
theorem FilesAndMemory.benchJob_options {world : World} {input : List Byte}
    {words : Option (List Byte)} (given : FilesAndMemory world options input words)
    (accepted : acceptedOptions strtof .bench arguments = .ok options) {legality : SqLegality}
    (row : sqCliLegality options.backend options.boundary = some legality)
    (range : sqInvocationRangeValid options.tensorId options.invocationId options.warmups
      options.reps legality.idStep = true)
    (samples : options.reps ≤ sizeMax / sampleSize) {job : BenchJob}
    (loaded : benchJob world strtof arguments = .ok job) : job.options = options := by
  rw [given.benchJob_eq accepted row range samples] at loaded
  obtain ⟨threads, -, loaded⟩ := bind_eq_ok.mp loaded
  obtain ⟨both, -, loaded⟩ := bind_eq_ok.mp loaded
  obtain ⟨-, -, loaded⟩ := bind_eq_ok.mp loaded
  rw [← Except.ok.inj loaded]

theorem gpuHost_benches (input : List Byte)
    (accepted : acceptedOptions strtof .bench arguments = .ok options)
    (cuda : options.backend = .cuda) (noWords : options.wordsPath = none)
    {legality : SqLegality}
    (row : sqCliLegality options.backend options.boundary = some legality)
    (range : sqInvocationRangeValid options.tensorId options.invocationId options.warmups
      options.reps legality.idStep = true)
    (samples : options.reps ≤ sizeMax / sampleSize) (output : options.outputPath.isSome = true) :
    FaultlessBench (gpuHost input) strtof arguments options input none where
  accepted := accepted
  range other found := by
    obtain rfl := Option.some.inj (row.symm.trans found)
    exact range
  samples := samples
  output := output
  given := gpuHost_given input noWords
  clock := rfl
  readings _ _ := rfl
  onHost job loaded host := by
    have same := (gpuHost_given input noWords).benchJob_options accepted row range samples loaded
    unfold BenchJob.hostHost at host
    rw [same, cuda] at host
    simp at host
  staged job loaded _ cpu := by
    have same := (gpuHost_given input noWords).benchJob_options accepted row range samples loaded
    rw [same, cuda] at cpu
    cases cpu
  onGpu _ _ _ := ⟨quietDevice, _, _, _, _, _, _, quietDevice_quiet, fun _ => rfl, rfl⟩

end

/-- `stoquant compress` on the GPU. -/
def gpuCompressLine (scale : List String) : List String :=
  ["--input", "in.f32", "--output", "out.sq", "--seed", "2", "--backend", "cuda"] ++ scale

def gpuCompressOptions : SqOptions := { compressLineOptions with backend := .cuda }

/-- `stoquant bench` of the same compression as a graph, with one warm-up and two runs. -/
def gpuBenchLine (scale : List String) : List String :=
  ["--input", "in.f32", "--output", "out.sq", "--seed", "2", "--backend", "cuda",
    "--boundary", "resident-graph", "--warmup", "1", "--reps", "2"] ++ scale

def gpuBenchOptions : SqOptions :=
  { gpuCompressOptions with
    boundary := .residentGraph
    warmups := 1
    reps := 2
    seen := { gpuCompressOptions.seen with boundary := true } }

/-- The options with a prescribed scale. -/
def SqOptions.withScale (options : SqOptions) (scale : F32) : SqOptions :=
  { options with scale, seen := { options.seen with scale := true } }

theorem benchFile_sameRecord_pair :
    letI := nearestEven Format.binary32
    SameRecord (exec (benchFile (gpuHost pairBytes) (fun _ => none) (gpuBenchLine [])) ⟨none, []⟩)
      (exec (compressFile (gpuHost pairBytes) (fun _ => none) (gpuCompressLine []))
        ⟨none, []⟩) :=
  letI := nearestEven Format.binary32
  have compress : FaultlessCompress (gpuHost pairBytes) (fun _ => none) (gpuCompressLine [])
      gpuCompressOptions pairBytes none :=
    gpuHost_compresses pairBytes rfl rfl rfl ⟨by decide, by decide⟩
  have bench : FaultlessBench (gpuHost pairBytes) (fun _ => none) (gpuBenchLine [])
      gpuBenchOptions pairBytes none :=
    gpuHost_benches pairBytes rfl rfl rfl rfl (by decide) (by decide) rfl
  (@benchFile_sameRecord_iff (nearestEven Format.binary32).toRoundedArith _ _ _ _ _ _ _ _ _
    compress bench ⟨rfl, rfl, rfl, rfl, rfl, rfl, rfl, rfl⟩ rfl).mpr
    fun negative => absurd negative.empty (List.cons_ne_nil _ _)

/-- `strtof` of the text `-0`. -/
def strtofNegativeZero (_ : String) : Option F32 := some negativeZeroF

theorem negativeZero_compress [Arith Format.binary32] :
    FaultlessCompress (gpuHost []) strtofNegativeZero (gpuCompressLine ["--scale", "-0"])
      (gpuCompressOptions.withScale negativeZeroF) [] none :=
  gpuHost_compresses [] rfl rfl rfl ⟨by decide, by decide⟩

theorem negativeZero_bench [Arith Format.binary32] :
    FaultlessBench (gpuHost []) strtofNegativeZero (gpuBenchLine ["--scale", "-0"])
      (gpuBenchOptions.withScale negativeZeroF) [] none :=
  gpuHost_benches [] rfl rfl rfl rfl (by decide) (by decide) rfl

/-- With `--scale -0` on an empty input `compress` keeps the sign and `bench` drops it. -/
theorem benchFile_dropsNegativeZero :
    letI := nearestEven Format.binary32
    FaultlessCompress (gpuHost []) strtofNegativeZero (gpuCompressLine ["--scale", "-0"])
      (gpuCompressOptions.withScale negativeZeroF) [] none ∧
    FaultlessBench (gpuHost []) strtofNegativeZero (gpuBenchLine ["--scale", "-0"])
      (gpuBenchOptions.withScale negativeZeroF) [] none ∧
    SameCompression (gpuCompressOptions.withScale negativeZeroF)
      (gpuBenchOptions.withScale negativeZeroF) ∧
    ¬ SameRecord
      (exec (benchFile (gpuHost []) strtofNegativeZero (gpuBenchLine ["--scale", "-0"]))
        ⟨none, []⟩)
      (exec (compressFile (gpuHost []) strtofNegativeZero (gpuCompressLine ["--scale", "-0"]))
        ⟨none, []⟩) := by
  let _ := nearestEven Format.binary32
  refine ⟨negativeZero_compress, negativeZero_bench, ⟨rfl, rfl, rfl, rfl, rfl, rfl, rfl, rfl⟩,
    fun same => ?_⟩
  have compressed : commandRecord (gpuHost []) (gpuCompressOptions.withScale negativeZeroF) []
      none = .ok (headerBytes 8 0 negativeZeroF) := by
    decide +kernel
  have benched : benchedRecord (gpuHost []) (gpuBenchOptions.withScale negativeZeroF) [] none =
      .ok (headerBytes 8 0 zeroF) := by
    decide +kernel
  have bytes := (@sameRecord_iff (nearestEven Format.binary32).toRoundedArith _ _ _ _ _ _ _ _ _
    negativeZero_compress negativeZero_bench _ _ compressed benched).mp same
  revert bytes
  decide +kernel

end Stoquant

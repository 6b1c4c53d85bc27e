import Stoquant.Native.CpuProcess
import Stoquant.Native.Extra
import Stoquant.Native.Invocation
import Stoquant.Native.Legal

/-!
# The sums of `expect`

One seed after another, `expect_file` encodes the record that `compress` writes
for that seed, decodes it, and adds the values and their squares in order.
-/

namespace Stoquant

open Ieee Abort

/-! ## What both commands start from -/

/-- An input file holds the elements of an array. -/
structure Loads (bytes : List Byte) (x : F32Array) : Prop where
  whole : bytes.length % 4 = 0
  count : x.count = bytes.length / 4
  values : x.values = arrayOf x.count (sqLoadF32ArrayLe bytes)

/-- The identifiers of a compression with a seed. -/
def SqOptions.streamIds (options : SqOptions) (seed : ℕ) : StreamIds :=
  ⟨BitVec.ofNat 64 seed, BitVec.ofNat 64 options.tensorId,
    BitVec.ofNat 64 options.invocationId⟩

/-- Options with identifiers up to `UINT32_MAX`. -/
structure SqOptions.IdsFit (options : SqOptions) : Prop where
  tensorId : options.tensorId ≤ uint32Max
  invocationId : options.invocationId ≤ uint32Max

theorem SqOptions.IdsFit.rangeValid {options : SqOptions} (fit : options.IdsFit) :
    sqInvocationRangeValid options.tensorId options.invocationId 0 1 0 = true := by
  have tensorId := fit.tensorId
  have invocationId := fit.invocationId
  apply (sqInvocationRangeValid_iff (by decide)).mpr
  refine ⟨le_rfl, by decide, tensorId, ?_⟩
  omega

theorem SqOptions.IdsFit.streamIds {options : SqOptions} (fit : options.IdsFit) (seed : ℕ) :
    (options.streamIds seed).tensorId.toNat ≤ uint32Max ∧
      (options.streamIds seed).invocationId.toNat ≤ uint32Max :=
  ⟨(Nat.mod_le _ _).trans fit.tensorId, (Nat.mod_le _ _).trans fit.invocationId⟩

/-- The command line as a command accepts it. -/
def acceptedOptions (strtof : String → Option F32) (command : SqCommand)
    (arguments : List String) : Except SqStatus SqOptions := do
  let options ← sqCliParse strtof command arguments
  sqCliValidate command options true

theorem acceptedOptions_bits {strtof : String → Option F32} {command : SqCommand}
    {arguments : List String} {options : SqOptions}
    (accepted : acceptedOptions strtof command arguments = .ok options) :
    Supported options.bits ∧ options.bits % 2 ^ 8 = options.bits := by
  have checked : checkedOptions strtof command true arguments = .ok options := accepted
  obtain ⟨settings, -, legal⟩ := legal_of_accepted checked
  refine ⟨legal.bits, Nat.mod_eq_of_lt ?_⟩
  rcases legal.bits with bits | bits
  · rw [bits]
    decide
  · rw [bits]
    decide

/-- The seeds that the command line accepts stay below `2 ^ 64`. -/
theorem acceptedOptions_seeds {strtof : String → Option F32} {arguments : List String}
    {options : SqOptions} (accepted : acceptedOptions strtof .expect arguments = .ok options)
    {t : ℕ} (below : t < options.seeds) :
    (options.seedStart + t) % 2 ^ 64 = options.seedStart + t := by
  have checked : checkedOptions strtof .expect true arguments = .ok options := accepted
  obtain ⟨settings, -, legal⟩ := legal_of_accepted checked
  have range := (legal.seeds rfl).2
  apply Nat.mod_eq_of_lt
  unfold uint64Max at range
  omega

/-! ## `compress` without `--scale` -/

/-- A run of `compress` with the CPU backend, without `--scale` and `--words`, whose reads,
allocations and write succeed. -/
structure CompressGiven [Arith Format.binary32] (world : World)
    (strtof : String → Option F32) (arguments : List String) (options : SqOptions)
    (bytes : List Byte) (x : F32Array) : Prop where
  accepted : acceptedOptions strtof .compress arguments = .ok options
  backend : options.backend = .cpu
  noThreads : options.seen.threads = false
  noScale : options.seen.scale = false
  noWords : options.wordsPath = none
  ids : options.IdsFit
  read : world.readInput (options.inputPath.getD "") = some bytes
  loads : Loads bytes x
  allocates : ∀ buffer size, world.allocates buffer size = true
  reserves : world.reserve .cpu 0 x.count = .ok
  writes : world.Writes
  process : CpuProcess world x
    (fun _ => cpuArgs options x.values x.count options.invocationId none 0) 1

section

variable {world : World} {strtof : String → Option F32} {arguments : List String}
  {options : SqOptions} {bytes : List Byte} {x : F32Array}

theorem CompressGiven.job [Arith Format.binary32]
    (given : CompressGiven world strtof arguments options bytes x) :
    compressJob world strtof arguments = .ok ⟨options, 0, x.values, x.count, none⟩ := by
  obtain ⟨parsed, parse, valid⟩ := bind_eq_ok.mp given.accepted
  have fits := x.fits
  have threads : world.threads options = .ok 0 := by
    unfold World.threads resolveCpuThreads
    rw [given.backend, given.noThreads]
    rfl
  have small : ¬ (bytes.length / 4 > sizeMax / 4 ∨
      bytes.length / 4 > sizeMax - sqHeaderSize) := by
    rw [← given.loads.count]
    unfold sizeMax sqHeaderSize at *
    omega
  have loaded : loadValues world (options.inputPath.getD "") = .ok (bytes, x.count) := by
    unfold loadValues
    rw [given.read, given.loads.count]
    simp [failWhen, given.loads.whole, small, bind, Except.bind, pure, Except.pure]
  unfold compressJob
  rw [parse]
  simp only [bind, Except.bind, valid, threads, given.ids.rangeValid, loaded, given.noWords,
    given.allocates, failWhen, given.loads.values, pure, Except.pure]
  simp

theorem CompressGiven.record [RoundedArith Format.binary32]
    (given : CompressGiven world strtof arguments options bytes x)
    {record : TensorRecord}
    (found : tensorRecord options.bits x (options.streamIds options.seed) none none =
      .ok record) :
    compressRecord world ⟨options, 0, x.values, x.count, none⟩ =
      .ok (recordBytes options.bits x.count record) := by
  obtain ⟨-, bits⟩ := acceptedOptions_bits given.accepted
  have noScale : (cpuArgs options x.values x.count options.invocationId none 0).prescribedScale =
      none := by
    rw [cpuArgs, given.noScale]
    rfl
  have same : (cpuArgs options x.values x.count options.invocationId none 0).bitWidth =
      options.bits := bits
  have called : tensorRecord
      (cpuArgs options x.values x.count options.invocationId none 0).bitWidth x
      (options.streamIds options.seed)
      (cpuArgs options x.values x.count options.invocationId none 0).prescribedScale none =
        .ok record := by
    rw [noScale, same]
    exact found
  obtain ⟨buffer, answer, stored⟩ := given.process.answer Nat.zero_lt_one called
  rw [same] at stored
  unfold compressRecord
  simp only [bind, Except.bind, failWhen, given.allocates, given.backend, checked,
    given.reserves, if_true, answer, bits, stored, pure, Except.pure]
  simp

/-- `compress` writes the record of the input under its computed scale. -/
theorem CompressGiven.output [RoundedArith Format.binary32]
    (given : CompressGiven world strtof arguments options bytes x)
    {record : TensorRecord}
    (found : tensorRecord options.bits x (options.streamIds options.seed) none none =
      .ok record) :
    exec (compressFile world strtof arguments) ⟨none, []⟩ =
      (.ok (), ⟨some (recordBytes options.bits x.count record), []⟩) := by
  unfold compressFile
  rw [given.job, lift_ok_bind, given.record found, lift_ok_bind,
    exec_sqWriteFile given.writes]

end

/-! ## `expect` -/

/-- The arguments of the compression of iteration `t`. -/
def expectArgs (options : SqOptions) (x : F32Array) (scale : F32) (t : ℕ) : CpuCompressArgs :=
  { cpuArgs options x.values x.count options.invocationId none 0 with
    backend := .cpu
    seed := (options.seedStart + t) % 2 ^ 64
    prescribedScale := some scale }

/-- What `expect_file` has before its first seed. -/
def expectJobOf (options : SqOptions) (x : F32Array) (scale : F32) : ExpectJob :=
  { options, threads := 0, values := x.values, count := x.count, words := none, scale }

/-- A run of `expect` with the CPU backend on a nonempty finite input whose scale does not
overflow, whose reads, allocations and write succeed. -/
structure ExpectGiven [Arith Format.binary32] (world : World) (strtof : String → Option F32)
    (arguments : List String) (options : SqOptions) (bytes : List Byte) (x : F32Array)
    (scale : F32) : Prop where
  accepted : acceptedOptions strtof .expect arguments = .ok options
  backend : options.backend = .cpu
  ids : options.IdsFit
  read : world.readInput (options.inputPath.getD "") = some bytes
  loads : Loads bytes x
  nonempty : x.count ≠ 0
  addressable : 16 * x.count ≤ sizeMax
  scaled : tensorScale x.get x.count = .ok scale
  allocates : ∀ buffer size, world.allocates buffer size = true
  mallocs : ∀ call size, world.decodeMalloc call size = true
  reserves : world.reserve .cpu 0 x.count = .ok
  writes : world.Writes
  process : CpuProcess world x (expectArgs options x scale) options.seeds

/-- A sum over the seeds, in their order. -/
def foldValues [Arith Format.binary64] (seeds : ℕ) (y : ℕ → F64) : F64 :=
  (List.range seeds).foldl (fun sum t => sum + y t) (Fp.zero Format.binary64)

/-- A sum of squares over the seeds, in their order. -/
def foldSquares [Arith Format.binary64] (seeds : ℕ) (y : ℕ → F64) : F64 :=
  foldValues seeds fun t => y t * y t

/-- The value of element `i` that seed number `t` decodes to. -/
def decodedValue (decoded : ℕ → List F32) (i t : ℕ) : F64 := toF64 ((decoded t).getD i zeroF)

/-- The sums after some seeds. -/
def sumsAfter [Arith Format.binary64] (count seeds : ℕ) (decoded : ℕ → List F32) :
    List (F64 × F64) :=
  (List.range count).map fun i =>
    (foldValues seeds (decodedValue decoded i), foldSquares seeds (decodedValue decoded i))

theorem foldValues_succ [Arith Format.binary64] (seeds : ℕ) (y : ℕ → F64) :
    foldValues (seeds + 1) y = foldValues seeds y + y seeds := by
  unfold foldValues
  rw [List.range_succ, List.foldl_append, List.foldl_cons, List.foldl_nil]

theorem addDecoded_sumsAfter [Arith Format.binary64] (count seeds : ℕ)
    (decoded : ℕ → List F32) (length : (decoded seeds).length = count) :
    addDecoded (sumsAfter count seeds decoded) (decoded seeds) =
      sumsAfter count (seeds + 1) decoded := by
  apply List.ext_getElem
  · simp [addDecoded, sumsAfter, length]
  · intro i left right
    have below : i < count := by simpa [sumsAfter] using right
    have inside : i < (decoded seeds).length := by omega
    simp [addDecoded, sumsAfter, foldValues_succ, foldSquares, decodedValue,
      List.getD_eq_getElem?_getD, inside]

section

variable {world : World} {strtof : String → Option F32} {arguments : List String}
  {options : SqOptions} {bytes : List Byte} {x : F32Array} {scale : F32}

theorem sqComputeScale_eq [Arith Format.binary32]
    (allocates : ∀ buffer size, world.allocates buffer size = true) (nonempty : x.count ≠ 0)
    (scaled : tensorScale x.get x.count = .ok scale) :
    sqComputeScale world x.values x.count = .ok scale := by
  obtain ⟨notMax, fits⟩ := sqScaleWorkspaceElements_checks x.count_le
  have pos := workspaceElements_pos nonempty x.count_le
  have present : (arrayOf (sqScaleWorkspaceElements x.count) fun _ => zeroF).isSome = true := by
    rw [arrayOf, if_neg pos.ne']
    rfl
  obtain ⟨partials, computed⟩ := sqComputeScaleWithWorkspace_eq x.get zeroF
    (arrayOf (sqScaleWorkspaceElements x.count) fun _ => zeroF) x.count_le
    fun _ => ⟨present, le_rfl⟩
  unfold sqComputeScale
  rw [x.values_eq nonempty]
  simp [notMax, not_lt.mp fits, allocates, computed, scaled, scaleOutcome]

theorem ExpectGiven.job [Arith Format.binary32]
    (given : ExpectGiven world strtof arguments options bytes x scale) :
    expectJob world strtof arguments = .ok (expectJobOf options x scale) := by
  obtain ⟨parsed, parse, valid⟩ := bind_eq_ok.mp given.accepted
  have computed := sqComputeScale_eq given.allocates given.nonempty given.scaled
  have nonempty := given.nonempty
  have addressable := given.addressable
  have count := given.loads.count
  have notEmpty : ¬ (bytes.length = 0 ∨ bytes.length % 4 ≠ 0) := by
    have whole := given.loads.whole
    omega
  have small : ¬ (x.count > sizeMax / 16 ∨ x.count > sizeMax - sqHeaderSize) := by
    unfold sizeMax sqHeaderSize at *
    omega
  unfold expectJob
  rw [parse]
  simp only [bind, Except.bind, valid, given.ids.rangeValid, given.read, failWhen, notEmpty,
    small, given.allocates, ← count, ← given.loads.values, computed, given.backend, checked,
    given.reserves, pure, Except.pure]
  simp [expectJobOf]

/-- The record of iteration `t` is that of `compress`, and the decoder accepts it. -/
structure IterationRecord [Arith Format.binary32] (world : World) (options : SqOptions)
    (x : F32Array) (scale : F32) (t : ℕ) (bytes : List Byte) : Prop where
  content : ∃ record, tensorRecord options.bits x
      (options.streamIds (options.seedStart + t)) none none = .ok record ∧
    bytes = recordBytes options.bits x.count record
  encoded : expectRecord world (expectJobOf options x scale) t (options.seedStart + t) =
    .ok bytes
  decoded : decodeWhole world t bytes = .ok (recordValues bytes, x.count)
  length : (recordValues bytes).length = x.count

theorem ExpectGiven.iteration [RoundedArith Format.binary32]
    (given : ExpectGiven world strtof arguments options bytes x scale) {t : ℕ}
    (below : t < options.seeds) :
    ∃ record, IterationRecord world options x scale t record := by
  obtain ⟨supported, bits⟩ := acceptedOptions_bits given.accepted
  have seed := acceptedOptions_seeds given.accepted below
  obtain ⟨tensorId, invocationId⟩ := given.ids.streamIds (options.seedStart + t)
  obtain ⟨record, computed, prescribed⟩ :=
    tensorRecord_of_scale supported given.scaled tensorId invocationId
  have same : (expectArgs options x scale t).bitWidth = options.bits := bits
  have stream : (expectArgs options x scale t).ids =
      options.streamIds (options.seedStart + t) := by
    unfold CpuCompressArgs.ids expectArgs
    rw [seed]
    rfl
  have called : tensorRecord (expectArgs options x scale t).bitWidth x
      (expectArgs options x scale t).ids (some scale) none = .ok record := by
    rw [same, stream]
    exact prescribed
  obtain ⟨buffer, answer, stored⟩ := given.process.answer below called
  rw [same] at stored
  refine ⟨recordBytes options.bits x.count record, ⟨record, computed, rfl⟩, ?_,
    decodeWhole_recordBytes (given.mallocs t) given.nonempty computed,
    recordValues_length x options.bits record⟩
  have notCuda : ¬ (expectJobOf options x scale).options.backend = .cuda := by
    have cpu : (expectJobOf options x scale).options.backend = .cpu := given.backend
    rw [cpu]
    exact Backend.noConfusion
  unfold expectArgs at answer
  rw [seed] at answer
  unfold expectRecord
  dsimp only
  rw [if_neg notCuda]
  dsimp only [expectJobOf]
  rw [answer, bits]
  exact congrArg Except.ok stored

theorem expectSeeds_succ [Arith Format.binary32] [Arith Format.binary64] {job : ExpectJob}
    {t : ℕ} {sums : List (F64 × F64)} {record : List Byte} {decoded : List F32}
    (before : expectSeeds world job t = .ok sums)
    (encoded : expectRecord world job t ((job.options.seedStart + t) % 2 ^ 64) = .ok record)
    (accepted : decodeWhole world t record = .ok (decoded, job.count)) :
    expectSeeds world job (t + 1) = .ok (addDecoded sums decoded) := by
  rw [expectSeeds, before]
  simp only [bind, Except.bind, encoded, accepted, failWhen, ne_eq, not_true, decide_false,
    pure, Except.pure]
  rfl

theorem ExpectGiven.seeds [RoundedArith Format.binary32] [Arith Format.binary64]
    (given : ExpectGiven world strtof arguments options bytes x scale)
    {records : ℕ → List Byte}
    (each : ∀ t < options.seeds, IterationRecord world options x scale t (records t)) {n : ℕ}
    (le : n ≤ options.seeds) :
    expectSeeds world (expectJobOf options x scale) n =
      .ok (sumsAfter x.count n fun t => recordValues (records t)) := by
  induction n with
  | zero =>
      have zeros : sumsAfter x.count 0 (fun t => recordValues (records t)) =
          List.replicate x.count (Fp.zero Format.binary64, Fp.zero Format.binary64) := by
        simp [sumsAfter, foldValues, foldSquares]
      rw [zeros]
      rfl
  | succ t ih =>
      have iteration := each t le
      have seed := acceptedOptions_seeds given.accepted (show t < options.seeds from le)
      have added := addDecoded_sumsAfter x.count t (fun t => recordValues (records t))
        iteration.length
      have encoded := iteration.encoded
      rw [← seed] at encoded
      rw [← added]
      exact expectSeeds_succ (ih (Nat.le_of_succ_le le)) encoded iteration.decoded

end

/-! ## Two seeds of two elements -/

/-- The bytes of `0.3f` and `-0.7f`. -/
def pairBytes : List Byte := [0x9A#8, 0x99#8, 0x99#8, 0x3E#8, 0x33#8, 0x33#8, 0x33#8, 0xBF#8]

/-- `stoquant compress` with the second of them. -/
def compressLine : List String :=
  ["--input", "in.f32", "--output", "out.sq", "--seed", "2"]

def compressLineOptions : SqOptions :=
  { optionsInit with
    inputPath := some "in.f32"
    outputPath := some "out.sq"
    seed := 2
    seen := { optionsInit.seen with seed := true } }

section

variable [Arith Format.binary32]

end

end Stoquant

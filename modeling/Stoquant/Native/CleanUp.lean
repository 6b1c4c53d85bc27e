import Stoquant.Native.Files

/-!
# What a failed command leaves behind

Every command computes its output before it writes it, and prints last.  The
bench writes its record before its timed runs: the GPU-origin path removes it
when one of them fails, the host path does not.
-/

namespace Stoquant

open Ieee Abort

/-- Nothing is at the output path and nothing was printed. -/
structure Effects.Clean (effects : Effects) : Prop where
  output : effects.output = none
  stdout : effects.stdout = []

/-- A process that exits with a nonzero code has left nothing behind. -/
def Exit.FailsClean (exit : Exit) : Prop := exit.code ≠ 0 → exit.effects.Clean

/-- Between the write of a record and its clean-up only the record may be there. -/
structure RecordOnly (job : BenchJob) (effects : Effects) : Prop where
  stdout : effects.stdout = []
  output : job.options.outputPath.isSome = false → effects.output = none

/-- Every write to the output path succeeds. -/
def World.Writes (world : World) : Prop := ∀ bytes, (world.writeFile bytes).1 = true

section

variable {world : World} (writes : world.Writes)
include writes

theorem exec_sqWriteFile (bytes : List Byte) (effects : Effects) :
    exec (sqWriteFile world bytes) effects = (.ok (), { effects with output := some bytes }) := by
  have ok := writes bytes
  simp only [sqWriteFile]
  rw [exec_bind]
  simp [ok, failWhen]

theorem total_sqWriteFile (bytes : List Byte) : Total (sqWriteFile world bytes) := by
  intro effects
  rw [exec_sqWriteFile writes]
  exact ⟨(), rfl⟩

theorem exec_writeRecord (job : BenchJob) (record : ℕ → Byte) (effects : Effects) :
    exec (writeRecord world job record) effects =
      (.ok (), if job.options.outputPath.isSome then
        { effects with output := some (recordIn job.bitWidth job.count record) }
      else effects) := by
  unfold writeRecord
  cases job.options.outputPath with
  | none => rfl
  | some path =>
      rw [exec_sqWriteFile writes]
      rfl

theorem total_writeRecord (job : BenchJob) (record : ℕ → Byte) :
    Total (writeRecord world job record) := by
  intro effects
  rw [exec_writeRecord writes]
  exact ⟨(), rfl⟩

/-! ## The commands that write last -/

theorem tidy_compressFile (strtof : String → Option F32) (arguments : List String) :
    Tidy Effects.Clean Effects.Clean (compressFile world strtof arguments) := by
  unfold compressFile
  refine Silent.bind_tidy (silent_lift _) ?_
  intro job
  refine Silent.bind_tidy (silent_lift _) ?_
  intro record
  exact (total_sqWriteFile writes record).tidy

theorem tidy_decompressFile [Arith Format.binary32] (strtof : String → Option F32)
    (arguments : List String) :
    Tidy Effects.Clean Effects.Clean (decompressFile world strtof arguments) := by
  unfold decompressFile
  refine Silent.bind_tidy (silent_lift _) ?_
  intro output
  exact (total_sqWriteFile writes output).tidy

theorem tidy_expectFile [Arith Format.binary32] [Arith Format.binary64] (hex : Word → String)
    (strtof : String → Option F32) (arguments : List String) :
    Tidy Effects.Clean Effects.Clean (expectFile world hex strtof arguments) := by
  unfold expectFile
  refine Silent.bind_tidy (silent_lift _) ?_
  intro pair
  apply Total.tidy
  refine Total.bind (total_sqWriteFile writes pair.2) ?_
  intro _
  exact total_change _

/-! ## The bench -/

theorem tidy_benchCuda (job : BenchJob) :
    Tidy Effects.Clean Effects.Clean (benchCuda world job) := by
  unfold benchCuda
  refine Silent.bind_tidy (silent_lift _) ?_
  intro bench
  refine Silent.bind_tidy (silent_lift _) ?_
  intro record
  apply Total.tidy
  refine Total.bind (total_writeRecord writes job record) ?_
  intro _
  exact total_pure _

theorem tidy_benchCpuGpuOrigin (job : BenchJob) :
    Tidy Effects.Clean Effects.Clean (benchCpuGpuOrigin world job) := by
  unfold benchCpuGpuOrigin
  refine Silent.bind_tidy (silent_lift _) ?_
  intro _
  refine Silent.bind_tidy (silent_lift _) ?_
  intro landing
  refine Silent.bind_tidy (silent_lift _) ?_
  intro record
  have reaches : ∀ effects : Effects, effects.Clean →
      RecordOnly job (exec (writeRecord world job record) effects).2 := by
    intro effects clean
    rw [exec_writeRecord writes]
    cases path : job.options.outputPath with
    | none => exact ⟨clean.stdout, fun _ => clean.output⟩
    | some _ => exact ⟨clean.stdout, fun absent => by simp [path] at absent⟩
  refine Total.bind_tidy (total_writeRecord writes job record) reaches ?_
  intro _
  apply tidy_onError
  intro effects written
  rw [exec_lift]
  cases present : job.options.outputPath.isSome with
  | false => exact ⟨written.output present, written.stdout⟩
  | true => exact ⟨rfl, written.stdout⟩

omit writes in
theorem exec_benchPath_host {job : BenchJob} (host : job.hostHost = true) (effects : Effects) :
    exec (benchPath world job) effects =
      exec (benchHost world job >>= fun samples => pure (samples, 0)) effects := by
  rw [benchPath, if_pos host]

theorem tidy_benchPath {job : BenchJob} (host : job.hostHost = false) :
    Tidy Effects.Clean Effects.Clean (benchPath world job) := by
  rw [benchPath, if_neg (by simp [host])]
  by_cases cpu : job.options.backend = .cpu
  · rw [if_pos cpu]
    refine Tidy.bind_total (tidy_benchCpuGpuOrigin writes job) ?_
    intro samples
    exact total_pure _
  · rw [if_neg cpu]
    exact tidy_benchCuda writes job

end

/-! ## The timed runs on the host -/

/-- The clock starts, and each timed run reads it twice and compresses. -/
structure TimedRunsSucceed (world : World) (job : BenchJob) : Prop where
  clock : world.clockInit = true
  runs : ∀ run < job.totalRuns, (world.clockNow run 0).isSome = true ∧
    (∃ record, world.cpuCompress (run + 1)
      (job.cpuArgs job.values (job.runId run) job.threads) = .ok record) ∧
    (world.clockNow run 2).isSome = true

theorem readClock_isOk {world : World} {run reading : ℕ} :
    (∃ milliseconds, readClock world run reading = .ok milliseconds) ↔
      (world.clockNow run reading).isSome = true := by
  cases found : world.clockNow run reading <;> simp [readClock, found]

theorem hostRun_isOk {world : World} {job : BenchJob} {run : ℕ} {samples : ℕ → BenchSample} :
    (∃ later, hostRun world job run samples = .ok later) ↔
      (world.clockNow run 0).isSome = true ∧
      (∃ record, world.cpuCompress (run + 1)
        (job.cpuArgs job.values (job.runId run) job.threads) = .ok record) ∧
      (world.clockNow run 2).isSome = true := by
  rw [← readClock_isOk, ← readClock_isOk]
  constructor
  · intro finished
    obtain ⟨later, laterEq⟩ := finished
    obtain ⟨start, startEq, laterEq⟩ := bind_eq_ok.mp laterEq
    obtain ⟨record, recordEq, laterEq⟩ := bind_eq_ok.mp laterEq
    obtain ⟨stop, stopEq, laterEq⟩ := bind_eq_ok.mp laterEq
    exact ⟨⟨start, startEq⟩, ⟨record, recordEq⟩, ⟨stop, stopEq⟩⟩
  · intro each
    obtain ⟨⟨start, startEq⟩, ⟨record, recordEq⟩, ⟨stop, stopEq⟩⟩ := each
    exact ⟨_, bind_eq_ok.mpr ⟨start, startEq, bind_eq_ok.mpr ⟨record, recordEq,
      bind_eq_ok.mpr ⟨stop, stopEq, rfl⟩⟩⟩⟩

theorem repeatRuns_isOk (step : ℕ → (ℕ → BenchSample) → Except SqStatus (ℕ → BenchSample))
    {ends : ℕ → Prop} (each : ∀ run samples, (∃ later, step run samples = .ok later) ↔ ends run)
    (count : ℕ) (samples : ℕ → BenchSample) :
    (∃ later, repeatRuns step count samples = .ok later) ↔ ∀ run < count, ends run := by
  induction count with
  | zero => simp [repeatRuns]
  | succ run induction =>
      constructor
      · intro finished
        obtain ⟨final, finalEq⟩ := finished
        obtain ⟨middle, middleEq, finalEq⟩ := bind_eq_ok.mp finalEq
        intro other below
        rcases Nat.lt_succ_iff_lt_or_eq.mp below with earlier | rfl
        · exact induction.mp ⟨middle, middleEq⟩ other earlier
        · exact (each other middle).mp ⟨final, finalEq⟩
      · intro all
        obtain ⟨middle, middleEq⟩ := induction.mpr fun other earlier =>
          all other (Nat.lt_succ_of_lt earlier)
        obtain ⟨final, finalEq⟩ := (each run middle).mpr (all run (Nat.lt_succ_self run))
        exact ⟨final, bind_eq_ok.mpr ⟨middle, middleEq, finalEq⟩⟩

theorem hostRuns_isOk {world : World} {job : BenchJob} :
    (∃ samples, hostRuns world job = .ok samples) ↔ TimedRunsSucceed world job := by
  have loop := repeatRuns_isOk (hostRun world job) (fun run samples => hostRun_isOk)
    job.totalRuns fun _ => emptySample
  constructor
  · intro finished
    obtain ⟨samples, samplesEq⟩ := finished
    obtain ⟨⟨⟩, clock, samplesEq⟩ := bind_eq_ok.mp samplesEq
    have started : world.clockInit = true := by
      by_contra stopped
      simp [failWhen, stopped] at clock
    exact ⟨started, loop.mp ⟨samples, samplesEq⟩⟩
  · intro succeed
    obtain ⟨samples, samplesEq⟩ := loop.mpr succeed.runs
    refine ⟨samples, bind_eq_ok.mpr ⟨(), ?_, samplesEq⟩⟩
    simp [failWhen, succeed.clock]

/-- The workspace of a CPU bench is reserved. -/
def HostReserved (world : World) (job : BenchJob) : Prop :=
  job.options.backend ≠ .cuda →
    world.reserve job.options.backend job.threads job.count = .ok

theorem hostHost_not_cuda {job : BenchJob} (host : job.hostHost = true) :
    job.options.backend ≠ .cuda := by
  simp only [BenchJob.hostHost, decide_eq_true_eq] at host
  exact host.1

/-- The host path gets past the write of a record. -/
structure HostRecordWritten (world : World) (job : BenchJob) : Prop where
  host : job.hostHost = true
  output : job.options.outputPath.isSome = true
  reserved : world.reserve job.options.backend job.threads job.count = .ok
  compressed : ∃ record, world.cpuCompress 0
    (job.cpuArgs job.values job.options.invocationId job.threads) = .ok record

/-- Every bench that has written its record from host memory finishes its runs. -/
def HostBenchesFinish (world : World) (strtof : String → Option F32)
    (arguments : List String) : Prop :=
  ∀ job, benchJob world strtof arguments = .ok job → HostRecordWritten world job →
    TimedRunsSucceed world job

section

variable {world : World} (writes : world.Writes)
include writes

theorem exec_benchHost {job : BenchJob} {record : ℕ → Byte}
    (compressed : world.cpuCompress 0
      (job.cpuArgs job.values job.options.invocationId job.threads) = .ok record)
    (effects : Effects) :
    exec (benchHost world job) effects =
      (hostRuns world job, if job.options.outputPath.isSome then
        { effects with output := some (recordIn job.bitWidth job.count record) }
      else effects) := by
  unfold benchHost
  rw [compressed, exec_bind_ok (exec_lift _ _), exec_bind_ok (exec_writeRecord writes _ _ _),
    exec_lift]

theorem tidy_benchHost {job : BenchJob}
    (finishes : job.options.outputPath.isSome = true →
      (∃ record, world.cpuCompress 0
        (job.cpuArgs job.values job.options.invocationId job.threads) = .ok record) →
      TimedRunsSucceed world job) :
    Tidy Effects.Clean Effects.Clean (benchHost world job) := by
  intro effects clean error failed
  cases compressed : world.cpuCompress 0
      (job.cpuArgs job.values job.options.invocationId job.threads) with
  | error status =>
      unfold benchHost
      rw [compressed, exec_bind_error (exec_lift _ _)]
      exact clean
  | ok record =>
      rw [exec_benchHost writes compressed] at failed ⊢
      cases output : job.options.outputPath.isSome with
      | false => exact clean
      | true =>
          obtain ⟨samples, samplesEq⟩ := hostRuns_isOk.mpr (finishes output ⟨record, compressed⟩)
          rw [samplesEq] at failed
          cases failed

theorem exec_benchFile_host {strtof : String → Option F32} {arguments : List String}
    {job : BenchJob} (parsed : benchJob world strtof arguments = .ok job)
    (written : HostRecordWritten world job) {status : SqStatus}
    (stopped : hostRuns world job = .error status) (effects : Effects) :
    ∃ bytes, exec (benchFile world strtof arguments) effects =
      (.error status, { effects with output := some bytes }) := by
  obtain ⟨record, compressed⟩ := written.compressed
  have host := exec_benchHost writes compressed effects
  rw [if_pos written.output, stopped] at host
  have notCuda := hostHost_not_cuda written.host
  refine ⟨recordIn job.bitWidth job.count record, ?_⟩
  unfold benchFile
  rw [parsed, exec_bind_ok (exec_lift _ _)]
  simp only [ne_eq, notCuda, not_false_eq_true, if_true, written.reserved, checked]
  rw [exec_bind_ok (exec_lift _ _)]
  apply exec_bind_error
  rw [exec_benchPath_host written.host]
  exact exec_bind_error host

/-- The bench cleans up exactly where the timed runs of every record written from
host memory succeed. -/
theorem tidy_benchFile_iff (strtof : String → Option F32) (arguments : List String) :
    Tidy Effects.Clean Effects.Clean (benchFile world strtof arguments) ↔
      HostBenchesFinish world strtof arguments := by
  constructor
  · intro tidy job parsed written
    apply hostRuns_isOk.mp
    cases runs : hostRuns world job with
    | ok samples => exact ⟨samples, rfl⟩
    | error status =>
        obtain ⟨bytes, left⟩ := exec_benchFile_host writes parsed written runs ⟨none, []⟩
        have clean := tidy ⟨none, []⟩ ⟨rfl, rfl⟩ status (by rw [left])
        rw [left] at clean
        exact absurd clean.output (by simp)
  · intro finish
    unfold benchFile
    cases parsed : benchJob world strtof arguments with
    | error status =>
        apply Silent.tidy
        intro effects
        rw [exec_bind_error (exec_lift _ _)]
    | ok job =>
        have path : HostReserved world job →
            Tidy Effects.Clean Effects.Clean (benchPath world job) := by
          intro reserved
          cases host : job.hostHost with
          | false => exact tidy_benchPath writes host
          | true =>
              rw [benchPath, if_pos host]
              refine Tidy.bind_total (tidy_benchHost writes ?_) fun samples => total_pure _
              intro output compressed
              exact finish job parsed ⟨host, output, reserved (hostHost_not_cuda host), compressed⟩
        rw [lift_ok_bind]
        by_cases cuda : job.options.backend = .cuda
        · simp only [ne_eq, cuda, not_true_eq_false, if_false]
          exact Tidy.bind_total (path fun other => absurd cuda other) fun _ => total_change _
        · simp only [ne_eq, cuda, not_false_eq_true, if_true]
          by_cases reserved : world.reserve job.options.backend job.threads job.count = .ok
          · have passed : checked (world.reserve job.options.backend job.threads job.count) =
                .ok () := if_pos reserved
            rw [passed, lift_ok_bind]
            exact Tidy.bind_total (path fun _ => reserved) fun _ => total_change _
          · have stopped : checked (world.reserve job.options.backend job.threads job.count) =
                .error (world.reserve job.options.backend job.threads job.count) :=
              if_neg reserved
            rw [stopped]
            exact tidy_lift_error

/-- Every command but the bench cleans up; the bench does where the runs that
follow its write succeed. -/
theorem tidy_runCommand_iff [Arith Format.binary32] [Arith Format.binary64]
    (hex : Word → String) (strtof : String → Option F32) (command : SqCommand)
    (arguments : List String) :
    Tidy Effects.Clean Effects.Clean (runCommand world hex strtof command arguments) ↔
      (command = .bench → HostBenchesFinish world strtof arguments) := by
  cases command with
  | compress =>
      exact iff_of_true (tidy_compressFile writes strtof arguments) fun bench => nomatch bench
  | bench =>
      rw [runCommand, tidy_benchFile_iff writes]
      exact ⟨fun finish _ => finish, fun finish => finish rfl⟩
  | decompress =>
      exact iff_of_true (tidy_decompressFile writes strtof arguments) fun bench => nomatch bench
  | expect =>
      exact iff_of_true (tidy_expectFile writes hex strtof arguments) fun bench => nomatch bench

omit writes in
theorem commandOf_bench {word : String} (named : commandOf word = some .bench) :
    word = "bench" := by
  unfold commandOf at named
  split at named
  · cases named
  · split at named
    · assumption
    · split at named
      · cases named
      · split at named
        · cases named
        · cases named

omit writes in
theorem exit_failsClean_iff (command : Command Unit) :
    (match exec command ⟨none, []⟩ with
      | (.ok _, effects) => Exit.mk 0 effects
      | (.error _, effects) => Exit.mk 1 effects).FailsClean ↔
      Tidy Effects.Clean Effects.Clean command := by
  constructor
  · intro fails effects clean error failed
    obtain rfl : effects = ⟨none, []⟩ := by
      cases effects
      simp only [Effects.mk.injEq]
      exact ⟨clean.output, clean.stdout⟩
    cases ran : exec command ⟨none, []⟩ with
    | mk result reached =>
        rw [ran] at fails failed
        cases failed
        exact fails Nat.one_ne_zero
  · intro tidy
    cases ran : exec command ⟨none, []⟩ with
    | mk result reached =>
        cases result with
        | ok result => exact fun failed => absurd rfl failed
        | error error =>
            intro _
            have clean := tidy ⟨none, []⟩ ⟨rfl, rfl⟩ error (by rw [ran])
            rw [ran] at clean
            exact clean

/-- A process that exits with a nonzero code leaves no output and no print behind
exactly where every bench whose record was written from host memory starts its
clock and gets through its timed runs. -/
theorem runMain_failsClean_iff [Arith Format.binary32] [Arith Format.binary64]
    (hex : Word → String) (strtof : String → Option F32) (argv : List String) :
    (runMain world hex strtof argv).FailsClean ↔
      ∀ arguments, argv = "bench" :: arguments → HostBenchesFinish world strtof arguments := by
  cases argv with
  | nil => exact iff_of_true (fun _ => ⟨rfl, rfl⟩) fun arguments named => nomatch named
  | cons word arguments =>
      rw [runMain]
      split
      · rename_i help
        apply iff_of_true (fun failed => absurd rfl failed)
        intro other named
        obtain ⟨rfl, rfl⟩ := List.cons.inj named
        exact absurd help (by decide)
      · cases command : commandOf word with
        | none =>
            apply iff_of_true (fun _ => ⟨rfl, rfl⟩)
            intro other named
            obtain ⟨rfl, rfl⟩ := List.cons.inj named
            cases command
        | some command' =>
            have bench : (∀ other, word :: arguments = "bench" :: other →
                HostBenchesFinish world strtof other) ↔
                (command' = .bench → HostBenchesFinish world strtof arguments) := by
              constructor
              · intro finish isBench
                rw [isBench] at command
                exact finish arguments (by rw [commandOf_bench command])
              · intro finish other named
                obtain ⟨rfl, rfl⟩ := List.cons.inj named
                exact finish (Option.some.inj command).symm
            rw [bench, ← tidy_runCommand_iff writes hex]
            exact exit_failsClean_iff _

end

/-! ## The command line and the report of a bench -/

/-- A bench that has its job resolved the command line as `benchCommandLine` does. -/
theorem benchCommandLine_of_benchJob {world : World} {strtof : String → Option F32}
    {arguments : List String} {job : BenchJob} {run : BenchRun}
    (supported : run.avx2Supported = world.avx2Supported)
    (default : run.defaultThreadCount = world.defaultThreadCount)
    (parsed : benchJob world strtof arguments = .ok job) :
    benchCommandLine strtof run arguments = .ok (job.options, job.legality, job.threads) := by
  obtain ⟨raw, rawEq, parsed⟩ := bind_eq_ok.mp parsed
  obtain ⟨options, optionsEq, parsed⟩ := bind_eq_ok.mp parsed
  rw [benchCommandLine, rawEq]
  simp only [bind, Except.bind, optionsEq]
  cases row : sqCliLegality options.backend options.boundary with
  | none =>
      rw [row] at parsed
      cases parsed
  | some legality =>
      rw [row] at parsed
      obtain ⟨threads, threadsEq, parsed⟩ := bind_eq_ok.mp parsed
      obtain ⟨⟨⟩, range, parsed⟩ := bind_eq_ok.mp parsed
      obtain ⟨⟨⟩, -, parsed⟩ := bind_eq_ok.mp parsed
      obtain ⟨loaded, -, parsed⟩ := bind_eq_ok.mp parsed
      obtain ⟨⟨⟩, -, parsed⟩ := bind_eq_ok.mp parsed
      obtain ⟨⟨⟩, -, parsed⟩ := bind_eq_ok.mp parsed
      obtain ⟨words, -, parsed⟩ := bind_eq_ok.mp parsed
      obtain ⟨⟨⟩, -, parsed⟩ := bind_eq_ok.mp parsed
      obtain ⟨⟨⟩, -, parsed⟩ := bind_eq_ok.mp parsed
      cases parsed
      have valid : sqInvocationRangeValid options.tensorId options.invocationId options.warmups
          options.reps legality.idStep = true := by
        by_contra invalid
        simp [failWhen, invalid] at range
      rw [World.threads, ← supported, ← default] at threadsEq
      simp [threadsEq, valid, pure, Except.pure]

/-- The report of a bench whose team has the size requested is the one that the
driver's validation is proved about. -/
theorem report_eq_benchResult (world : World) (job : BenchJob) {run : BenchRun}
    (count : run.count = job.count)
    (payload : run.payloadBytes = sqPayloadSize job.bitWidth job.count)
    (granted : world.teamSize job.threads = job.threads)
    (noTeam : job.hostHost = false → job.threads = 0) :
    job.report world run.samples run.captureMs =
      benchResult run job.options job.legality job.threads := by
  have team : (if job.hostHost = true ∧ job.threads ≠ 0 then world.teamSize job.threads else 0) =
      job.threads := by
    by_cases none : job.threads = 0
    · simp [none]
    · have host : job.hostHost = true := by
        by_contra other
        exact none (noTeam (by simpa using other))
      rw [if_pos ⟨host, none⟩, granted]
  simp only [BenchJob.report, benchResult, team, count, payload, BenchJob.bitWidth]

/-! ## A clock that fails after the record is written -/

/-- A host where every call succeeds except the reading of the clock. -/
def stoppedClock : World where
  avx2Supported := false
  defaultThreadCount := 1
  teamSize := fun threads => threads
  readInput := fun _ => some [0#8, 0#8, 0#8, 0#8]
  readWords := fun _ => none
  allocates := fun _ _ => true
  reserve := fun _ _ _ => .ok
  cpuCompress := fun _ _ => .ok fun _ => 0#8
  cudaCompress := fun _ _ => .error .errCuda
  cudaBench := fun _ => .error .errCuda
  stagingCreate := fun _ _ _ => .errCuda
  stagingDownload := fun _ => .error .errCuda
  decodeMalloc := fun _ _ => true
  clockInit := true
  clockNow := fun _ _ => none
  writeFile := fun _ => (true, none)

/-- `stoquant bench` with an output path. -/
def benchLine : List String :=
  ["bench", "--input", "in.f32", "--seed", "1", "--reps", "1", "--output", "out.sq"]

theorem runMain_failsClean_iff_stoppedClock :
    letI := nearestArith Format.binary32
    letI := nearestArith Format.binary64
    (runMain stoppedClock (fun _ => "") (fun _ => none) benchLine).FailsClean ↔
      ∀ arguments, benchLine = "bench" :: arguments →
        HostBenchesFinish stoppedClock (fun _ => none) arguments :=
  letI := nearestArith Format.binary32
  letI := nearestArith Format.binary64
  runMain_failsClean_iff (fun _ => rfl) (fun _ => "") (fun _ => none) benchLine

/-- Its record stays at the output path although the process fails. -/
theorem runMain_stoppedClock_leavesRecord :
    letI := nearestArith Format.binary32
    letI := nearestArith Format.binary64
    stoppedClock.Writes ∧
      ¬ (runMain stoppedClock (fun _ => "") (fun _ => none) benchLine).FailsClean := by
  constructor
  · exact fun _ => rfl
  · intro clean
    have output := (clean (by decide +kernel)).output
    revert output
    decide +kernel

end Stoquant

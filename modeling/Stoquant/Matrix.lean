import Stoquant.Inputs

/-!
# Case files of a sweep

The argument checks of `run_benchmark_matrix`, the run plan and the case
identifiers of `Sweep.run`, and the files that `write_case` leaves in the
snapshot.
-/

namespace Stoquant

open Text

/-- The arguments of `run_benchmark_matrix` that choose the cases. -/
structure MatrixArguments where
  counts : List ℤ
  bitWidths : List ℤ
  backends : List String
  trials : ℤ
  caseOrderSeed : ℤ
  boundaries : List String
  transferPolicies : List String
  inputFamily : String
  modelTensors : Option String
  modelLimit : Option ℤ
  k1 : String

/-- `model_tensors or "distinct"`. -/
def modelTensorSet (modelTensors : Option String) : String :=
  if modelTensors.getD "" = "" then "distinct" else modelTensors.getD ""

/-- The checks of `run_benchmark_matrix` on single arguments. -/
def checkArguments (arguments : MatrixArguments) : Except PyError Unit :=
  if arguments.counts.dedup.length ≠ arguments.counts.length then
    .error (.valueError "--counts values must be unique")
  else if arguments.k1 ≠ "reference" ∧ arguments.k1 ≠ "optimized" then
    .error (.valueError ("unknown K1 variant '" ++ arguments.k1 ++
      "'; choose from ('reference', 'optimized')"))
  else if arguments.inputFamily ∉ ["dense", "sparse", "model"] then
    .error (.valueError ("unknown input family '" ++ arguments.inputFamily ++
      "'; choose from ('dense', 'sparse', 'model')"))
  else if arguments.inputFamily ≠ "model" ∧
      (arguments.modelTensors ≠ none ∨ arguments.modelLimit ≠ none) then
    .error (.valueError
      "--model-tensors and --model-limit apply only to the model family")
  else do
    if arguments.inputFamily = "model" then
      let _ ← selectModelTensors (modelTensorSet arguments.modelTensors)
        arguments.modelLimit
    if arguments.trials < 1 then
      .error (.valueError "trials must be at least 1")
    if "cpu" ∉ arguments.backends then
      .error (.valueError
        "the CPU comparator is required; include 'cpu' in backends")

/-- `numpy.random.default_rng(seed).permutation(n)`: some ordering of the first
`n` indices. -/
structure CaseShuffle where
  permutation : ℤ → ℕ → List ℕ
  perm : ∀ seed n, (permutation seed n).Perm (List.range n)

/-- `case_order`: every pair of an input and a bit width, shuffled. -/
def caseOrder (shuffle : CaseShuffle) (keys : List String) (bitWidths : List ℤ)
    (seed : ℤ) : List (String × ℤ) :=
  let cases := keys.flatMap fun key => bitWidths.map fun bits => (key, bits)
  (shuffle.permutation seed cases.length).map fun i => cases.getD i ("", 0)

/-- The `case_id` of `build_case_stubs`. -/
def caseId (path : BenchPath) (bits : ℤ) (inputKey : String) : String :=
  "case_" ++ path.backend.text ++ "_" ++ path.key ++ "_bits" ++ decimal bits ++
    "_" ++ inputKey

/-- One case of a sweep, as far as its name is concerned. -/
structure CaseName where
  path : BenchPath
  bits : ℤ
  inputKey : String
  deriving DecidableEq

def CaseName.id (name : CaseName) : String := caseId name.path name.bits name.inputKey

/-- What a completed sweep leaves behind, as far as its cases are concerned. -/
structure SweepFiles where
  /-- `total_cases` of the run plan. -/
  totalCases : ℕ
  /-- The cases in the order they were run. -/
  cases : List CaseName
  /-- The case files of the snapshot. -/
  files : List (String × CaseName)
  /-- `cases` of the manifest. -/
  manifestCases : List String

/-- The ranks by which `Sweep.run` sorts the cases. -/
def caseRank (inputs : List (String × ℤ)) (paths : List BenchPath)
    (name : CaseName) : ℤ × ℕ × ℤ × ℕ :=
  ((Dict.get? inputs name.inputKey).getD 0, (Dict.keys inputs).idxOf name.inputKey,
    name.bits, paths.idxOf name.path)

/-- The lexicographic order of tuples of ranks. -/
def rankLe (a b : ℤ × ℕ × ℤ × ℕ) : Bool :=
  decide (a.1 < b.1 ∨ a.1 = b.1 ∧ (a.2.1 < b.2.1 ∨ a.2.1 = b.2.1 ∧
    (a.2.2.1 < b.2.2.1 ∨ a.2.2.1 = b.2.2.1 ∧ a.2.2.2 ≤ b.2.2.2)))

/-- The cases of `Sweep.run` in execution order. -/
def sweepCases (paths : List BenchPath) (order : List (String × ℤ)) :
    List CaseName :=
  order.flatMap fun entry => paths.map fun path => ⟨path, entry.2, entry.1⟩

/-- The case files after every `write_case`. -/
def caseFiles (cases : List CaseName) : List (String × CaseName) :=
  Dict.ofEntries (cases.map fun name => (name.id ++ ".json", name))

/-- What `Sweep.run` leaves behind when it runs the cases in an order. -/
def sweepFiles (paths : List BenchPath) (inputs : List (String × ℤ))
    (bitWidths : List ℤ) (order : List (String × ℤ)) : SweepFiles :=
  let cases := sweepCases paths order
  let sorted := cases.mergeSort fun a b =>
    rankLe (caseRank inputs paths a) (caseRank inputs paths b)
  { totalCases := inputs.length * bitWidths.length * paths.length
    cases
    files := caseFiles cases
    manifestCases := sorted.map CaseName.id }

/-- `run_benchmark_matrix`, as far as its cases are concerned. -/
def runBenchmarkMatrix (shuffle : CaseShuffle) (arguments : MatrixArguments) :
    Except PyError SweepFiles := do
  checkArguments arguments
  let paths ← buildPaths arguments.backends arguments.boundaries
    arguments.transferPolicies
  let _ ← trialOrders paths.length arguments.trials.toNat
  let inputs ← generateFamilyInputs arguments.inputFamily arguments.counts
    (modelTensorSet arguments.modelTensors) arguments.modelLimit
  -- `order_and_warm_up` takes the largest input, a `max` over the inputs
  if inputs = [] then .error (.valueError "max() iterable argument is empty")
  else
    return sweepFiles paths inputs arguments.bitWidths
      (caseOrder shuffle (Dict.keys inputs) arguments.bitWidths
        arguments.caseOrderSeed)

/-- No case file was replaced: identifiers are distinct, there are as many
files as the plan says, and the manifest lists each file once. -/
structure CasesKept (run : SweepFiles) : Prop where
  distinct : (run.cases.map CaseName.id).Nodup
  planned : run.files.length = run.totalCases
  listed : run.manifestCases.Nodup
  each : ∀ id, id ∈ run.manifestCases ↔ id ++ ".json" ∈ Dict.keys run.files

theorem underscore_absent (path : BenchPath) :
    '_' ∉ path.backend.text.toList ∧ '_' ∉ path.key.toList := by
  obtain ⟨backend, boundary, policy⟩ := path
  cases backend <;> cases boundary <;> cases policy <;> decide

theorem underscore_absent_decimal (n : ℤ) : '_' ∉ (decimal n).toList := by
  intro member
  rcases mem_decimal member with sign | digit
  · exact absurd sign (by decide)
  · exact absurd digit (by decide)

/-- A publication path is determined by its backend and key. -/
theorem path_of_key {path path' : BenchPath} (member : path ∈ publicationPaths)
    (member' : path' ∈ publicationPaths)
    (backend : path.backend.text.toList = path'.backend.text.toList)
    (key : path.key.toList = path'.key.toList) : path = path' := by
  have distinct : ∀ p ∈ publicationPaths, ∀ q ∈ publicationPaths,
      p.backend.text.toList = q.backend.text.toList →
        p.key.toList = q.key.toList → p = q := by decide
  exact distinct path member path' member' backend key

theorem caseId_injective {path path' : BenchPath} {bits bits' : ℤ}
    {key key' : String} (member : path ∈ publicationPaths)
    (member' : path' ∈ publicationPaths)
    (same : caseId path bits key = caseId path' bits' key') :
    path = path' ∧ bits = bits' ∧ key = key' := by
  have shape : ∀ (p : BenchPath) (b : ℤ) (k : String),
      (caseId p b k).toList = "case_".toList ++ (p.backend.text.toList ++
        '_' :: (p.key.toList ++ '_' :: ("bits".toList ++ ((decimal b).toList ++
          '_' :: k.toList)))) := by
    intro p b k
    simp [caseId, String.toList_append]
  have lists := congrArg String.toList same
  rw [shape, shape] at lists
  have parts := List.append_cancel_left lists
  obtain ⟨backends, parts⟩ := split_unique (underscore_absent path).1
    (underscore_absent path').1 parts
  obtain ⟨pathKeys, parts⟩ := split_unique (underscore_absent path).2
    (underscore_absent path').2 parts
  obtain ⟨widths, keys⟩ := split_unique (underscore_absent_decimal bits)
    (underscore_absent_decimal bits') (List.append_cancel_left parts)
  refine ⟨path_of_key member member' backends pathKeys, ?_, ?_⟩
  · exact decimal_injective (String.toList_injective widths)
  · exact String.toList_injective keys

/-- The order of cases has each pair of an input and a bit width as often as
the two lists have it. -/
theorem caseOrder_perm (shuffle : CaseShuffle) (keys : List String)
    (bitWidths : List ℤ) (seed : ℤ) :
    (caseOrder shuffle keys bitWidths seed).Perm
      (keys.flatMap fun key => bitWidths.map fun bits => (key, bits)) := by
  have indexed : ∀ cases : List (String × ℤ),
      (List.range cases.length).map (fun i => cases.getD i ("", 0)) = cases := by
    intro cases
    apply List.ext_getElem
    · simp
    · intro i inRange inside
      simp [inside]
  unfold caseOrder
  dsimp only
  refine ((shuffle.perm seed _).map _).trans ?_
  rw [indexed]

section

variable {paths : List BenchPath} {inputs : List (String × ℤ)} {bitWidths : List ℤ}
  {order : List (String × ℤ)}
  (perm : order.Perm
    ((Dict.keys inputs).flatMap fun key => bitWidths.map fun bits => (key, bits)))

include perm in
theorem sweepCases_length :
    (sweepCases paths order).length =
      inputs.length * bitWidths.length * paths.length := by
  have pairs := perm.length_eq
  simp only [List.length_flatMap, List.length_map, List.map_const',
    List.sum_replicate, smul_eq_mul, Dict.keys] at pairs
  simp only [sweepCases, List.length_flatMap, List.length_map, List.map_const',
    List.sum_replicate, smul_eq_mul]
  rw [pairs]

/-- Lists of pairs without repetition have no repetition in their parts, and
the other way round when the first parts differ. -/
theorem nodup_pairs {α β γ : Type} {first : List α} {second : List β}
    {pair : α → β → γ} (injective : ∀ a ∈ first, ∀ a' ∈ first, ∀ b ∈ second,
      ∀ b' ∈ second, pair a b = pair a' b' → a = a' ∧ b = b')
    (firstNonempty : first ≠ []) (secondNonempty : second ≠ []) :
    (first.flatMap fun a => second.map fun b => pair a b).Nodup ↔
      first.Nodup ∧ second.Nodup := by
  rw [List.nodup_flatMap]
  constructor
  · rintro ⟨rows, apart⟩
    obtain ⟨a, aMember⟩ := List.exists_mem_of_ne_nil first firstNonempty
    obtain ⟨b, bMember⟩ := List.exists_mem_of_ne_nil second secondNonempty
    constructor
    · apply apart.imp
      intro x y disjoint same
      subst same
      exact disjoint (List.mem_map_of_mem bMember) (List.mem_map_of_mem bMember)
    · exact (rows a aMember).of_map
  · rintro ⟨firstNodup, secondNodup⟩
    constructor
    · intro a aMember
      apply List.Nodup.map_on _ secondNodup
      intro b bMember b' bMember' same
      exact (injective a aMember a aMember b bMember b' bMember' same).2
    · apply List.Pairwise.imp_of_mem _ firstNodup
      intro a a' aMember aMember' different entry left right
      obtain ⟨b, bMember, rfl⟩ := List.mem_map.mp left
      obtain ⟨b', bMember', same⟩ := List.mem_map.mp right
      exact different
        (injective a' aMember' a aMember b' bMember' b bMember same).1.symm

section

variable (pathsNodup : paths.Nodup) (pathsKnown : paths ⊆ publicationPaths)
  (pathsNonempty : paths ≠ [])

include pathsNodup pathsKnown pathsNonempty in
/-- Identifiers repeat exactly when the pairs of inputs and bit widths do. -/
theorem caseIds_nodup_iff :
    ((sweepCases paths order).map CaseName.id).Nodup ↔ order.Nodup := by
  rcases eq_or_ne order [] with rfl | orderNonempty
  · simp [sweepCases]
  have rows : (sweepCases paths order).map CaseName.id =
      order.flatMap fun entry =>
        paths.map fun path => caseId path entry.2 entry.1 := by
    simp [sweepCases, List.map_flatMap, Function.comp_def, CaseName.id]
  rw [rows, nodup_pairs _ orderNonempty pathsNonempty, and_iff_left pathsNodup]
  intro entry _ entry' _ path member path' member' same
  obtain ⟨paths_eq, bits_eq, keys_eq⟩ :=
    caseId_injective (pathsKnown member) (pathsKnown member') same
  exact ⟨Prod.ext keys_eq bits_eq, paths_eq⟩

end

include perm in
theorem order_nodup_iff (inputsNodup : (Dict.keys inputs).Nodup)
    (inputsNonempty : inputs ≠ []) : order.Nodup ↔ bitWidths.Nodup := by
  rw [perm.nodup_iff]
  rcases eq_or_ne bitWidths [] with rfl | some
  · have none : ((Dict.keys inputs).flatMap fun key =>
        ([] : List ℤ).map fun bits => (key, bits)) = [] :=
      List.flatMap_eq_nil_iff.mpr fun _ _ => rfl
    rw [none]
    exact iff_of_true List.nodup_nil List.nodup_nil
  · have keysNonempty : Dict.keys inputs ≠ [] := by
      intro none
      exact inputsNonempty (List.map_eq_nil_iff.mp none)
    rw [nodup_pairs _ keysNonempty some, and_iff_right inputsNodup]
    intro key _ key' _ bits _ bits' _ same
    exact ⟨(Prod.mk.inj same).1, (Prod.mk.inj same).2⟩

theorem caseFiles_keys_nodup_iff (cases : List CaseName) :
    (Dict.keys (cases.map fun name => (name.id ++ ".json", name))).Nodup ↔
      (cases.map CaseName.id).Nodup := by
  have keys : Dict.keys (cases.map fun name => (name.id ++ ".json", name)) =
      (cases.map CaseName.id).map fun id => id ++ ".json" := by
    simp [Dict.keys]
  have injective : Function.Injective fun id : String => id ++ ".json" := by
    intro id id' same
    have lists := congrArg String.toList same
    simp only [String.toList_append] at lists
    exact String.toList_injective (List.append_cancel_right lists)
  rw [keys, List.nodup_map_iff injective]

include perm in
/-- Nothing is lost exactly when no identifier repeats. -/
theorem casesKept_iff :
    CasesKept (sweepFiles paths inputs bitWidths order) ↔
      ((sweepCases paths order).map CaseName.id).Nodup := by
  constructor
  · intro kept
    exact kept.distinct
  · intro distinct
    have sorted : (sweepFiles paths inputs bitWidths order).manifestCases.Perm
        ((sweepCases paths order).map CaseName.id) :=
      (List.mergeSort_perm _ _).map _
    have planned : (caseFiles (sweepCases paths order)).length =
        (sweepCases paths order).length := by
      rw [caseFiles, Dict.length_ofEntries_eq_iff.mpr, List.length_map]
      exact (caseFiles_keys_nodup_iff _).mpr distinct
    constructor
    · exact distinct
    · exact planned.trans (sweepCases_length perm)
    · exact sorted.nodup_iff.mpr distinct
    · intro id
      rw [sorted.mem_iff]
      have member : id ++ ".json" ∈ Dict.keys (caseFiles (sweepCases paths order)) ↔
          id ++ ".json" ∈ ((sweepCases paths order).map CaseName.id).map
            fun id => id ++ ".json" := by
        rw [caseFiles, Dict.mem_keys]
        simp [Dict.keys]
      refine Iff.trans ?_ member.symm
      constructor
      · exact List.mem_map_of_mem
      · intro listed
        obtain ⟨id', member', same⟩ := List.mem_map.mp listed
        have lists := congrArg String.toList same
        simp only [String.toList_append] at lists
        rwa [← String.toList_injective (List.append_cancel_right lists)]

end

/-- No case file is replaced exactly when no bit width is given twice. -/
theorem runBenchmarkMatrix_kept_iff (shuffle : CaseShuffle)
    (arguments : MatrixArguments) (run : SweepFiles)
    (completed : runBenchmarkMatrix shuffle arguments = .ok run) :
    CasesKept run ↔ arguments.bitWidths.Nodup := by
  unfold runBenchmarkMatrix at completed
  obtain ⟨-, -, completed⟩ := bind_eq_ok.mp completed
  obtain ⟨paths, built, completed⟩ := bind_eq_ok.mp completed
  obtain ⟨-, -, completed⟩ := bind_eq_ok.mp completed
  obtain ⟨inputs, generated, completed⟩ := bind_eq_ok.mp completed
  split at completed
  · cases completed
  rename_i inputsNonempty
  cases completed
  obtain ⟨pathsNodup, pathsKnown, pathsSome⟩ := buildPaths_spec built
  have perm := caseOrder_perm shuffle (Dict.keys inputs) arguments.bitWidths
    arguments.caseOrderSeed
  rw [casesKept_iff perm,
    caseIds_nodup_iff pathsNodup pathsKnown (List.ne_nil_of_mem pathsSome)]
  exact order_nodup_iff perm (generateFamilyInputs_nodup generated) inputsNonempty

/-- The shuffle that changes nothing. -/
def keepOrder : CaseShuffle := ⟨fun _ n => List.range n, fun _ _ => .refl _⟩

/-- The comparator alone on one input, at given bit widths. -/
def comparatorRun (bitWidths : List ℤ) : MatrixArguments :=
  { counts := [1024]
    bitWidths
    backends := ["cpu"]
    trials := 1
    caseOrderSeed := 612
    boundaries := []
    transferPolicies := ["pageable"]
    inputFamily := "dense"
    modelTensors := none
    modelLimit := none
    k1 := "reference" }

/-- The files of a run of the comparator alone. -/
def comparatorFiles (bitWidths : List ℤ) : SweepFiles :=
  sweepFiles [comparator] [("n1024", 1024)] bitWidths
    (caseOrder keepOrder ["n1024"] bitWidths 612)

theorem comparatorRun_completes (bitWidths : List ℤ) :
    runBenchmarkMatrix keepOrder (comparatorRun bitWidths) =
      .ok (comparatorFiles bitWidths) := by
  have checked : checkArguments (comparatorRun bitWidths) = .ok () := rfl
  have built : buildPaths ["cpu"] [] ["pageable"] = .ok [comparator] := by
    simp [buildPaths, unknownEntries, transferPolicies, Policy.text]
  unfold runBenchmarkMatrix
  rw [checked]
  simp only [comparatorRun, built]
  rfl

/-- A bit width given twice replaces a case file. -/
theorem runBenchmarkMatrix_repeated_width :
    runBenchmarkMatrix keepOrder (comparatorRun [4, 4]) =
        .ok (comparatorFiles [4, 4]) ∧
      ¬ CasesKept (comparatorFiles [4, 4]) := by
  refine ⟨comparatorRun_completes [4, 4], fun kept => ?_⟩
  have distinct := kept.distinct
  revert distinct
  decide +kernel

theorem runBenchmarkMatrix_kept_iff_comparatorRun :
    CasesKept (comparatorFiles [4, 8]) ↔ (comparatorRun [4, 8]).bitWidths.Nodup :=
  runBenchmarkMatrix_kept_iff keepOrder (comparatorRun [4, 8]) _
    (comparatorRun_completes [4, 8])

end Stoquant

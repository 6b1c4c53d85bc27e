import Mathlib.Data.List.Perm.Basic
import Mathlib.Data.List.Dedup
import Mathlib.Data.List.Range
import Mathlib.Tactic
import Stoquant.Cyclic.Development

/-!
# The experimental design

The timed paths of `design.py`, how a selection of backends, boundaries and
transfer policies becomes a list of paths, and the order in which each trial
runs them.
-/

namespace Stoquant

/-- A Python exception that the modelled functions raise on purpose. -/
inductive PyError where
  | valueError (message : String)
  | runtimeError (message : String)
  | overflowError (message : String)
  | recursionError
  | zeroDivisionError
  | keyError (key : String)
  | indexError
  deriving DecidableEq, Repr

/-- A sequence of calls returns when each of them does. -/
theorem bind_eq_ok {ε α β : Type} {call : Except ε α} {next : α → Except ε β}
    {result : β} :
    (call >>= next) = .ok result ↔
      ∃ value, call = .ok value ∧ next value = .ok result := by
  cases call with
  | error error =>
      constructor
      · intro ok
        cases ok
      · rintro ⟨value, ok, -⟩
        cases ok
  | ok value =>
      constructor
      · intro ok
        exact ⟨value, rfl, ok⟩
      · rintro ⟨value', same, ok⟩
        cases same
        exact ok

/-- `BenchPath.backend`. -/
inductive Backend where
  | cpu
  | cpuAvx2
  | cuda
  deriving DecidableEq, Repr

/-- `BenchPath.boundary`. -/
inductive Boundary where
  | comparator
  | optimized
  | resident
  | residentGraph
  | hostOrigin
  | gpuOrigin
  deriving DecidableEq, Repr

/-- `BenchPath.policy`. -/
inductive Policy where
  | none
  | pageable
  | pinned
  deriving DecidableEq, Repr

def Backend.text : Backend → String
  | .cpu => "cpu"
  | .cpuAvx2 => "cpu-avx2"
  | .cuda => "cuda"

def Boundary.text : Boundary → String
  | .comparator => "comparator"
  | .optimized => "optimized"
  | .resident => "resident"
  | .residentGraph => "resident-graph"
  | .hostOrigin => "host-origin"
  | .gpuOrigin => "gpu-origin"

def Policy.text : Policy → String
  | .none => "none"
  | .pageable => "pageable"
  | .pinned => "pinned"

/-- One timed path: a backend, its timing boundary and its transfer policy. -/
structure BenchPath where
  backend : Backend
  boundary : Boundary
  policy : Policy
  deriving DecidableEq, Repr

/-- `COMPARATOR`. -/
def comparator : BenchPath := ⟨.cpu, .comparator, .none⟩

/-- `AVX2_COMPARATOR`. -/
def avx2Comparator : BenchPath := ⟨.cpuAvx2, .optimized, .none⟩

/-- `CUDA_RESIDENT`. -/
def cudaResident : BenchPath := ⟨.cuda, .resident, .none⟩

/-- `CUDA_RESIDENT_GRAPH`. -/
def cudaResidentGraph : BenchPath := ⟨.cuda, .residentGraph, .none⟩

/-- `CUDA_HOST_ORIGIN`, and `CUDA_HOST_ORIGIN_PINNED` under the pinned policy. -/
def cudaHostOrigin (policy : Policy) : BenchPath := ⟨.cuda, .hostOrigin, policy⟩

/-- `CPU_GPU_ORIGIN` of a transfer policy. -/
def cpuGpuOrigin (policy : Policy) : BenchPath := ⟨.cpu, .gpuOrigin, policy⟩

/-- `CUDA_GPU_ORIGIN` of a transfer policy. -/
def cudaGpuOrigin (policy : Policy) : BenchPath := ⟨.cuda, .gpuOrigin, policy⟩

namespace BenchPath

variable (path : BenchPath)

def key : String :=
  if path.policy = .pinned then path.boundary.text ++ "-pinned"
  else path.boundary.text

def label : String := path.backend.text ++ "-" ++ path.key

def extraArgs : List String :=
  (if path.boundary = .comparator ∨ path.boundary = .optimized then []
    else ["--boundary", path.boundary.text]) ++
  (if path.policy = .pinned then ["--transfer-policy", "pinned"] else [])

/-- The path that claims against this one are measured from. -/
def baseline : Option BenchPath :=
  if path = comparator then none
  else if path.backend = .cuda ∧ path.boundary = .gpuOrigin then
    some (cpuGpuOrigin path.policy)
  else some comparator

def pageableTwin : BenchPath := { path with policy := .pageable }

/-- Paths whose measured work is contained in this path's work. -/
def nestedPaths : List BenchPath :=
  if path.backend = .cpu ∧ path.boundary = .gpuOrigin then [comparator]
  else if path.backend = .cuda ∧ path.boundary = .gpuOrigin then [cudaResident]
  else if path.backend = .cuda ∧ path.boundary = .hostOrigin then
    [cudaResident, cudaResidentGraph, cudaGpuOrigin path.policy]
  else []

end BenchPath

/-- `EXTENSION_BOUNDARIES`. -/
def extensionBoundaries : List String := ["gpu-origin"]

/-- `TRANSFER_POLICIES`, in the fixed order of the extension. -/
def transferPolicies : List Policy := [.pageable, .pinned]

/-- The `repr` of a list of strings, as error messages show it. -/
def reprStrings (texts : List String) : String :=
  "[" ++ ", ".intercalate (texts.map fun text => "'" ++ text ++ "'") ++ "]"

/-- The entries of one sequence that are not in another, sorted, once each. -/
def unknownEntries (given known : List String) : List String :=
  (given.dedup.filter fun text => text ∉ known).mergeSort fun a b => decide (a ≤ b)

/-- The CUDA paths without the gpu-origin boundary. -/
def cudaPaths (policies : List Policy) : List BenchPath :=
  [cudaResident, cudaResidentGraph, cudaHostOrigin .pageable] ++
    if .pinned ∈ policies then [cudaHostOrigin .pinned] else []

/-- `build_paths`. -/
def buildPaths (backends boundaries policyNames : List String) :
    Except PyError (List BenchPath) :=
  let unknownBoundaries := unknownEntries boundaries extensionBoundaries
  let unknownPolicies :=
    unknownEntries policyNames (transferPolicies.map Policy.text)
  if unknownBoundaries ≠ [] then
    .error (.valueError
      ("unknown extension boundaries: " ++ reprStrings unknownBoundaries))
  else if unknownPolicies ≠ [] then
    .error (.valueError
      ("unknown transfer policies: " ++ reprStrings unknownPolicies))
  else if "pageable" ∉ policyNames then
    .error (.valueError
      "pinned paths are compared with their pageable twins; include 'pageable'")
  else if (boundaries ≠ [] ∨ "pinned" ∈ policyNames) ∧ "cuda" ∉ backends then
    .error (.valueError "the publication extension needs the 'cuda' backend")
  else
    let policies := transferPolicies.filter fun policy => policy.text ∈ policyNames
    .ok ([comparator] ++
      (if "cpu-avx2" ∈ backends then [avx2Comparator] else []) ++
      (if "cuda" ∈ backends then cudaPaths policies else []) ++
      (if "gpu-origin" ∈ boundaries then
        policies.flatMap fun policy => [cpuGpuOrigin policy, cudaGpuOrigin policy]
      else []))

/-- `PUBLICATION_PATHS`: every path a selection can contain. -/
def publicationPaths : List BenchPath :=
  [comparator, avx2Comparator, cudaResident, cudaResidentGraph,
    cudaHostOrigin .pageable, cudaHostOrigin .pinned, cpuGpuOrigin .pageable,
    cudaGpuOrigin .pageable, cpuGpuOrigin .pinned, cudaGpuOrigin .pinned]

/-- `MAX_PERMUTATION_PATHS`. -/
def maxPermutationPaths : ℕ := 4

/-- The loop of `williams_rows` that alternates low and high positions. -/
def williamsFirst (n : ℕ) : ℕ → List ℕ → ℕ → ℕ → List ℕ
  | 0, first, _, _ => first
  | fuel + 1, first, low, high =>
      if first.length < n then
        let first := first ++ [low]
        if first.length < n then
          williamsFirst n fuel (first ++ [high]) (low + 1) (high - 1)
        else williamsFirst n fuel first (low + 1) high
      else first

/-- `williams_rows`. -/
def williamsRows (n : ℕ) : List (List ℕ) :=
  let first := williamsFirst n n [0] 1 (n - 1)
  let rows := (List.range n).map fun i => first.map fun x => (x + i) % n
  if n % 2 = 1 then rows ++ rows.map List.reverse else rows

/-- Every way to take one item, with the others in order. -/
def picks {α : Type} : List α → List (α × List α)
  | [] => []
  | item :: items =>
      (item, items) :: (picks items).map fun pick => (pick.1, item :: pick.2)

/-- `itertools.permutations`: every ordering, in lexicographic positions. -/
def orderings {α : Type} : ℕ → List α → List (List α)
  | 0, _ => [[]]
  | n + 1, items =>
      (picks items).flatMap fun pick => (orderings n pick.2).map (pick.1 :: ·)

/-- `trial_orders`. -/
def trialOrders (pathCount trials : ℕ) : Except PyError (List (List ℕ)) :=
  if pathCount ≤ maxPermutationPaths then
    let perms := orderings pathCount (List.range pathCount)
    .ok ((List.range trials).map fun t => perms.getD (t % perms.length) [])
  else
    let rows := williamsRows pathCount
    if trials % rows.length ≠ 0 then
      .error (.valueError
        (toString pathCount ++ " paths use a Williams design of " ++
          toString rows.length ++ " orders; trials must be a multiple of " ++
          toString rows.length ++ ", not " ++ toString trials))
    else .ok ((List.range trials).map fun t => rows.getD (t % rows.length) [])

theorem filter_transferPolicies {policyNames : List String}
    (pageable : "pageable" ∈ policyNames) :
    (transferPolicies.filter fun policy => policy.text ∈ policyNames) =
      if "pinned" ∈ policyNames then [.pageable, .pinned] else [.pageable] := by
  by_cases pinned : "pinned" ∈ policyNames <;>
    simp [transferPolicies, Policy.text, pageable, pinned]

/-- The paths of a selection of backends, pinned transfers and the extension. -/
def selectedPaths (avx2 cuda pinned gpuOrigin : Bool) : List BenchPath :=
  [comparator] ++ (if avx2 then [avx2Comparator] else []) ++
    (if cuda then
      [cudaResident, cudaResidentGraph, cudaHostOrigin .pageable] ++
        (if pinned then [cudaHostOrigin .pinned] else [])
    else []) ++
    (if gpuOrigin then
      [cpuGpuOrigin .pageable, cudaGpuOrigin .pageable] ++
        (if pinned then [cpuGpuOrigin .pinned, cudaGpuOrigin .pinned] else [])
    else [])

/-- The shape of every accepted selection. -/
theorem buildPaths_eq {backends boundaries policyNames : List String}
    {paths : List BenchPath}
    (built : buildPaths backends boundaries policyNames = .ok paths) :
    ∃ avx2 cuda pinned gpuOrigin : Bool,
      (cuda = false → pinned = false ∧ gpuOrigin = false) ∧
      paths = selectedPaths avx2 cuda pinned gpuOrigin := by
  unfold buildPaths at built
  dsimp only at built
  split at built
  · cases built
  split at built
  · cases built
  split at built
  · cases built
  rename_i pageable
  split at built
  · cases built
  rename_i extended
  rw [filter_transferPolicies (not_not.mp pageable)] at built
  cases built
  refine ⟨decide ("cpu-avx2" ∈ backends), decide ("cuda" ∈ backends),
    decide ("pinned" ∈ policyNames), decide ("gpu-origin" ∈ boundaries), ?_, ?_⟩
  · intro noCuda
    have noCuda : "cuda" ∉ backends := of_decide_eq_false noCuda
    have plain : ¬ (boundaries ≠ [] ∨ "pinned" ∈ policyNames) :=
      fun some => extended ⟨some, noCuda⟩
    constructor
    · apply decide_eq_false
      exact fun pinned => plain (.inr pinned)
    · apply decide_eq_false
      exact fun member => plain (.inl (List.ne_nil_of_mem member))
  · by_cases pinned : "pinned" ∈ policyNames <;>
      simp [selectedPaths, cudaPaths, pinned]

/-- An accepted selection lists distinct publication paths, the comparator
among them. -/
theorem buildPaths_spec {backends boundaries policyNames : List String}
    {paths : List BenchPath}
    (built : buildPaths backends boundaries policyNames = .ok paths) :
    paths.Nodup ∧ paths ⊆ publicationPaths ∧ comparator ∈ paths := by
  obtain ⟨avx2, cuda, pinned, gpuOrigin, -, rfl⟩ := buildPaths_eq built
  clear built
  revert avx2 cuda pinned gpuOrigin
  decide

theorem perm_of_mem_picks {α : Type} {items : List α} {pick : α × List α}
    (member : pick ∈ picks items) : items.Perm (pick.1 :: pick.2) := by
  induction items generalizing pick with
  | nil => cases member
  | cons item items ih =>
      rcases List.mem_cons.mp member with first | later
      · rw [first]
      · obtain ⟨pick', member', rfl⟩ := List.mem_map.mp later
        exact ((ih member').cons item).trans (.swap _ _ _)

theorem perm_of_mem_orderings {α : Type} {n : ℕ} {items order : List α}
    (length : items.length = n) (member : order ∈ orderings n items) :
    order.Perm items := by
  induction n generalizing items order with
  | zero =>
      rw [List.length_eq_zero_iff.mp length]
      rw [List.mem_singleton.mp member]
  | succ n ih =>
      obtain ⟨pick, picked, later⟩ := List.mem_flatMap.mp member
      obtain ⟨rest, restMember, rfl⟩ := List.mem_map.mp later
      have perm := perm_of_mem_picks picked
      have restLength : pick.2.length = n := by
        have := perm.length_eq
        rw [length, List.length_cons] at this
        exact (Nat.succ_injective this).symm
      exact ((ih restLength restMember).cons pick.1).trans perm.symm

theorem orderings_ne_nil {α : Type} {n : ℕ} {items : List α}
    (length : items.length = n) : orderings n items ≠ [] := by
  induction n generalizing items with
  | zero => simp [orderings]
  | succ n ih =>
      cases items with
      | nil => cases length
      | cons item items =>
          have rest := ih (Nat.succ_injective length)
          intro none
          apply rest
          have first := List.append_eq_nil_iff.mp
            (show (orderings n items).map (item :: ·) ++ _ = [] from none)
          exact List.map_eq_nil_iff.mp first.1

theorem perm_range_of_ends {n low high : ℕ} {first : List ℕ}
    (taken : first.Perm (List.range low ++ List.range' (high + 1) (n - 1 - high)))
    (meet : low = high + 1) (below : high < n) : first.Perm (List.range n) := by
  have whole : List.range low ++ List.range' (high + 1) (n - 1 - high) =
      List.range n := by
    have joined : List.range' 0 (high + 1) ++ List.range' (0 + (high + 1))
        (n - 1 - high) = List.range' 0 (high + 1 + (n - 1 - high)) :=
      List.range'_append_1
    have size : high + 1 + (n - 1 - high) = n := by omega
    rw [Nat.zero_add, size] at joined
    rw [meet, List.range_eq_range', List.range_eq_range', joined]
  rwa [whole] at taken

theorem williamsFirst_full {n fuel low high : ℕ} {first : List ℕ}
    (full : n ≤ first.length) : williamsFirst n fuel first low high = first := by
  cases fuel with
  | zero => rfl
  | succ fuel => exact if_neg (Nat.not_lt.mpr full)

theorem williamsFirst_perm {n fuel low high : ℕ} {first : List ℕ}
    (taken : first.Perm (List.range low ++ List.range' (high + 1) (n - 1 - high)))
    (apart : low ≤ high + 1) (below : high < n)
    (enough : n ≤ first.length + 2 * fuel) :
    (williamsFirst n fuel first low high).Perm (List.range n) := by
  induction fuel generalizing low high first with
  | zero =>
      have length := taken.length_eq
      rw [List.length_append, List.length_range, List.length_range'] at length
      exact perm_range_of_ends taken (by omega) below
  | succ fuel ih =>
      have length := taken.length_eq
      rw [List.length_append, List.length_range, List.length_range'] at length
      unfold williamsFirst
      dsimp only
      by_cases more : first.length < n
      · have lowTaken : (first ++ [low]).Perm
            (List.range (low + 1) ++ List.range' (high + 1) (n - 1 - high)) := by
          refine (taken.append_right [low]).trans ?_
          rw [List.range_succ, List.append_assoc, List.append_assoc]
          exact List.Perm.append_left _ List.perm_append_comm
        rw [if_pos more, List.length_append, List.length_singleton]
        by_cases again : first.length + 1 < n
        · have highTaken : (first ++ [low] ++ [high]).Perm
              (List.range (low + 1) ++
                List.range' (high - 1 + 1) (n - 1 - (high - 1))) := by
            have index : high - 1 + 1 = high := by omega
            have size : n - 1 - (high - 1) = n - 1 - high + 1 := by omega
            refine (lowTaken.append_right [high]).trans ?_
            rw [index, size, List.range'_succ, List.append_assoc]
            exact List.Perm.append_left _ List.perm_append_comm
          have grown : (first ++ [low] ++ [high]).length = first.length + 2 := by
            simp
          rw [if_pos again]
          apply ih highTaken
          · omega
          · omega
          · rw [grown]
            omega
        · have full : (first ++ [low]).length = first.length + 1 := by simp
          rw [if_neg again, williamsFirst_full (by rw [full]; omega)]
          exact perm_range_of_ends lowTaken (by omega) below
      · rw [if_neg more]
        exact perm_range_of_ends taken (by omega) below

/-- Every row of a Williams design runs each path once. -/
theorem williamsRows_perm {n : ℕ} {row : List ℕ} (member : row ∈ williamsRows n) :
    row.Perm (List.range n) := by
  rcases Nat.eq_zero_or_pos n with rfl | pos
  · cases member
  have first : (williamsFirst n n [0] 1 (n - 1)).Perm (List.range n) := by
    apply williamsFirst_perm
    · have none : n - 1 - (n - 1) = 0 := by omega
      rw [none]
      exact .refl _
    · omega
    · omega
    · simp only [List.length_singleton]
      omega
  have rotated : ∀ row ∈ (List.range n).map fun i =>
      (williamsFirst n n [0] 1 (n - 1)).map fun x => (x + i) % n,
      row.Perm (List.range n) := by
    intro row member
    obtain ⟨i, -, rfl⟩ := List.mem_map.mp member
    exact Cyclic.shift_perm first
  unfold williamsRows at member
  dsimp only at member
  split at member
  · rcases List.mem_append.mp member with plain | reversed
    · exact rotated row plain
    · obtain ⟨row', member', rfl⟩ := List.mem_map.mp reversed
      exact row'.reverse_perm.trans (rotated row' member')
  · exact rotated row member

theorem williamsRows_length_pos {n : ℕ} (pos : 0 < n) :
    0 < (williamsRows n).length := by
  unfold williamsRows
  dsimp only
  split <;> simp [pos]

/-- There is one order for each trial, and it runs each path once. -/
theorem trialOrders_spec {pathCount trials : ℕ} {orders : List (List ℕ)}
    (designed : trialOrders pathCount trials = .ok orders) :
    orders.length = trials ∧ ∀ order ∈ orders, order.Perm (List.range pathCount) := by
  unfold trialOrders at designed
  dsimp only at designed
  have cycle : ∀ rows : List (List ℕ), 0 < rows.length →
      (∀ row ∈ rows, row.Perm (List.range pathCount)) →
      ∀ order ∈ (List.range trials).map fun t => rows.getD (t % rows.length) [],
        order.Perm (List.range pathCount) := by
    intro rows pos each order member
    obtain ⟨t, -, rfl⟩ := List.mem_map.mp member
    have inRange : t % rows.length < rows.length := Nat.mod_lt _ pos
    rw [List.getD_eq_getElem?_getD, List.getElem?_eq_getElem inRange,
      Option.getD_some]
    exact each _ (List.getElem_mem inRange)
  split at designed
  · cases designed
    have some := orderings_ne_nil (List.length_range (n := pathCount))
    constructor
    · simp
    · apply cycle _ (List.length_pos_iff.mpr some)
      exact fun row member => perm_of_mem_orderings List.length_range member
  · rename_i many
    have pos : 0 < pathCount := by
      unfold maxPermutationPaths at many
      omega
    split at designed
    · cases designed
    · cases designed
      constructor
      · simp
      · exact cycle _ (williamsRows_length_pos pos) fun row => williamsRows_perm

end Stoquant

import Stoquant.Stats.Group

/-!
# Claims fail closed

A case without a median cannot make a containment hold: a claim is supported
only when every selected path of its group has a median and none of them is
below a path whose work it contains.
-/

namespace Stoquant

/-- The first path does all the work of the second. -/
inductive Contains : BenchPath → BenchPath → Prop where
  | hostResident (policy : Policy) : Contains (cudaHostOrigin policy) cudaResident
  | hostResidentGraph (policy : Policy) : Contains (cudaHostOrigin policy) cudaResidentGraph
  | hostGpuOrigin (policy : Policy) : Contains (cudaHostOrigin policy) (cudaGpuOrigin policy)
  | gpuResident (policy : Policy) : Contains (cudaGpuOrigin policy) cudaResident
  | cpuComparator (policy : Policy) : Contains (cpuGpuOrigin policy) comparator

/-- The pooled median of the case of a path. -/
def medianAt (assignment : BenchPath → Option CaseStatistics) (path : BenchPath) : Option ℚ :=
  (assignment path).bind CaseStatistics.medianMs

section Relations

variable (paths : List BenchPath) (assignment : BenchPath → Option CaseStatistics)

/-- Between selected paths, both medians are there and the containing path is
not below the contained one. -/
def Upheld (outer inner : BenchPath) : Prop :=
  outer ∈ paths → inner ∈ paths →
    ∃ outerMs innerMs, medianAt assignment outer = some outerMs ∧
      medianAt assignment inner = some innerMs ∧ innerMs ≤ outerMs

/-- The containments of a backend in a policy group. -/
def GroupUpheld (backend : Backend) (policy : Policy) : Prop :=
  ∀ outer inner, Contains outer inner → outer.backend = backend → outer.policy = policy →
    Upheld paths assignment outer inner

/-- The containments a claim about a path rests on: the CUDA ones of its policy
group for a CUDA path, and the CPU one for a path with device-resident input. -/
def RelationsHold (path : BenchPath) : Prop :=
  (path.backend = .cuda → GroupUpheld paths assignment .cuda (policyGroup path)) ∧
  (path.boundary = .gpuOrigin → GroupUpheld paths assignment .cpu (policyGroup path))

end Relations

/-- What every accepted selection of paths has, in any order. -/
structure Selection (paths : List BenchPath) : Prop where
  nodup : paths.Nodup
  published : paths ⊆ publicationPaths
  comparator_mem : comparator ∈ paths
  resident_mem : ∀ path ∈ paths, path.backend = .cuda → cudaResident ∈ paths

theorem Selection.of_built {backends boundaries policyNames : List String}
    {paths : List BenchPath}
    (built : buildPaths backends boundaries policyNames = .ok paths) : Selection paths := by
  obtain ⟨nodup, published, comparatorMem⟩ := buildPaths_spec built
  refine ⟨nodup, published, comparatorMem, ?_⟩
  obtain ⟨avx2, cuda, pinned, gpuOrigin, extended, rfl⟩ := buildPaths_eq built
  clear built nodup published comparatorMem
  revert avx2 cuda pinned gpuOrigin
  decide

theorem Selection.perm {paths arranged : List BenchPath} (selection : Selection paths)
    (perm : arranged.Perm paths) : Selection arranged where
  nodup := perm.nodup_iff.mpr selection.nodup
  published := fun _ member => selection.published (perm.mem_iff.mp member)
  comparator_mem := perm.mem_iff.mpr selection.comparator_mem
  resident_mem := fun path member cuda =>
    perm.mem_iff.mpr (selection.resident_mem path (perm.mem_iff.mp member) cuda)

theorem label_injective {path other : BenchPath} (published : path ∈ publicationPaths)
    (otherPublished : other ∈ publicationPaths) (same : path.label = other.label) :
    path = other := by
  have distinct : ∀ path ∈ publicationPaths, ∀ other ∈ publicationPaths,
      path.label = other.label → path = other := by
    decide
  exact distinct path published other otherPublished same

theorem cudaKey_injective {path other : BenchPath} (published : path ∈ publicationPaths)
    (otherPublished : other ∈ publicationPaths) (cuda : path.backend = .cuda)
    (otherCuda : other.backend = .cuda) (same : path.key = other.key) : path = other := by
  have distinct : ∀ path ∈ publicationPaths, ∀ other ∈ publicationPaths,
      path.backend = .cuda → other.backend = .cuda → path.key = other.key →
      path = other := by
    decide
  exact distinct path published other otherPublished cuda otherCuda same

/-- `stats_by_label` of an assignment. -/
def groupStats (paths : List BenchPath) (assignment : BenchPath → Option CaseStatistics) :
    StatsByLabel :=
  paths.map fun path => (path.label, assignment path)

/-- `cuda_medians` of an assignment. -/
def groupMedians (paths : List BenchPath) (assignment : BenchPath → Option CaseStatistics) :
    List (String × ℚ) :=
  paths.filterMap fun path =>
    if path.backend = .cuda then (medianAt assignment path).map fun value => (path.key, value)
    else none

theorem Policy.transfer_cases {policy : Policy} (transfer : policy ≠ .none) :
    policy = .pageable ∨ policy = .pinned := by
  cases policy with
  | none => exact absurd rfl transfer
  | pageable => exact .inl rfl
  | pinned => exact .inr rfl

theorem nestedPaths_cudaHostOrigin (policy : Policy) :
    (cudaHostOrigin policy).nestedPaths =
      [cudaResident, cudaResidentGraph, cudaGpuOrigin policy] := by
  cases policy <;> rfl

theorem nestedPaths_cudaGpuOrigin (policy : Policy) :
    (cudaGpuOrigin policy).nestedPaths = [cudaResident] := by
  cases policy <;> rfl

theorem cpuInversion_eq (stats : StatsByLabel) (selectedLabels : List String)
    (policy : Policy) :
    cpuInversion stats selectedLabels policy =
      if (cpuGpuOrigin policy).label ∉ selectedLabels then .ok false
      else match stats.get (cpuGpuOrigin policy), stats.get comparator with
        | some candidate, some baseline => do
            return (← candidate.median) < (← baseline.median)
        | _, _ => .ok true := by
  cases policy <;> rfl

theorem transfer_published {policy : Policy} (transfer : policy ≠ .none) :
    cpuGpuOrigin policy ∈ publicationPaths ∧
      cudaHostOrigin policy ∈ publicationPaths ∧
      cudaGpuOrigin policy ∈ publicationPaths := by
  rcases Policy.transfer_cases transfer with rfl | rfl
  · decide
  · decide

section Lookups

variable {paths : List BenchPath} {assignment : BenchPath → Option CaseStatistics}

theorem groupStats_keys_nodup (selection : Selection paths) :
    (Dict.keys (groupStats paths assignment)).Nodup := by
  have keysEq : Dict.keys (groupStats paths assignment) = paths.map BenchPath.label := by
    simp [Dict.keys, groupStats]
  rw [keysEq]
  apply List.Nodup.map_on _ selection.nodup
  intro path member other otherMember same
  exact label_injective (selection.published member) (selection.published otherMember) same

theorem groupStats_get? (selection : Selection paths) {path : BenchPath}
    (published : path ∈ publicationPaths) :
    Dict.get? (groupStats paths assignment) path.label =
      if path ∈ paths then some (assignment path) else none := by
  apply Option.ext
  intro value
  rw [Dict.get?_eq_some_iff (groupStats_keys_nodup selection)]
  constructor
  · intro member
    obtain ⟨other, inside, same⟩ := List.mem_map.mp member
    obtain ⟨labelEq, rfl⟩ := Prod.mk.inj same
    have otherEq := label_injective (selection.published inside) published labelEq
    subst otherEq
    rw [if_pos inside]
  · intro found
    by_cases inside : path ∈ paths
    · rw [if_pos inside] at found
      cases found
      exact List.mem_map_of_mem inside
    · rw [if_neg inside] at found
      cases found

variable (assignment) in
theorem groupStats_get (selection : Selection paths) {path : BenchPath}
    (published : path ∈ publicationPaths) :
    StatsByLabel.get (groupStats paths assignment) path =
      if path ∈ paths then assignment path else none := by
  rw [StatsByLabel.get, groupStats_get? selection published]
  by_cases inside : path ∈ paths
  · simp [inside]
  · simp [inside]

variable (assignment) in
theorem groupStats_lookup (selection : Selection paths) {path : BenchPath}
    (member : path ∈ paths) :
    StatsByLabel.lookup (groupStats paths assignment) path = .ok (assignment path) := by
  rw [StatsByLabel.lookup, groupStats_get? selection (selection.published member),
    if_pos member]

theorem mem_groupMedians {key : String} {value : ℚ} :
    (key, value) ∈ groupMedians paths assignment ↔
      ∃ path ∈ paths, path.backend = .cuda ∧ path.key = key ∧
        medianAt assignment path = some value := by
  simp only [groupMedians, List.mem_filterMap]
  constructor
  · intro found
    obtain ⟨path, member, entry⟩ := found
    by_cases cuda : path.backend = .cuda
    · rw [if_pos cuda] at entry
      obtain ⟨value', median, same⟩ := Option.map_eq_some_iff.mp entry
      obtain ⟨keyEq, rfl⟩ := Prod.mk.inj same
      exact ⟨path, member, cuda, keyEq, median⟩
    · rw [if_neg cuda] at entry
      cases entry
  · intro found
    obtain ⟨path, member, cuda, rfl, median⟩ := found
    exact ⟨path, member, by rw [if_pos cuda, median]; rfl⟩

theorem groupMedians_keys_nodup (selection : Selection paths) :
    (Dict.keys (groupMedians paths assignment)).Nodup := by
  have sublist : ∀ some : List BenchPath, (Dict.keys (groupMedians some assignment)).Sublist
      ((some.filter fun path => path.backend = .cuda).map BenchPath.key) := by
    intro some
    induction some with
    | nil => exact List.Sublist.slnil
    | cons path some induction =>
        by_cases cuda : path.backend = .cuda
        · cases median : medianAt assignment path with
          | none => simpa [groupMedians, cuda, median] using induction.cons path.key
          | some value =>
              simpa [groupMedians, Dict.keys, cuda, median] using induction.cons_cons path.key
        · simpa [groupMedians, cuda] using induction
  apply (sublist paths).nodup
  apply List.Nodup.map_on _ (selection.nodup.filter _)
  intro path member other otherMember same
  obtain ⟨inside, cuda⟩ := List.mem_filter.mp member
  obtain ⟨otherInside, otherCuda⟩ := List.mem_filter.mp otherMember
  exact cudaKey_injective (selection.published inside) (selection.published otherInside)
    (of_decide_eq_true cuda) (of_decide_eq_true otherCuda) same

theorem groupMedians_get? (selection : Selection paths) {path : BenchPath}
    (member : path ∈ paths) (cuda : path.backend = .cuda) :
    Dict.get? (groupMedians paths assignment) path.key = medianAt assignment path := by
  apply Option.ext
  intro value
  rw [Dict.get?_eq_some_iff (groupMedians_keys_nodup selection), mem_groupMedians]
  constructor
  · intro found
    obtain ⟨other, inside, otherCuda, same, median⟩ := found
    have otherEq := cudaKey_injective (selection.published inside)
      (selection.published member) otherCuda cuda same
    subst otherEq
    exact median
  · intro median
    exact ⟨path, member, cuda, rfl, median⟩

theorem selectedKey_iff (selection : Selection paths) {path : BenchPath}
    (published : path ∈ publicationPaths) (cuda : path.backend = .cuda) :
    path.key ∈ (paths.filter fun path => path.backend = .cuda).map BenchPath.key ↔
      path ∈ paths := by
  constructor
  · intro member
    obtain ⟨other, inside, same⟩ := List.mem_map.mp member
    obtain ⟨otherMember, otherCuda⟩ := List.mem_filter.mp inside
    have otherEq := cudaKey_injective (selection.published otherMember) published
      (of_decide_eq_true otherCuda) cuda same
    exact otherEq ▸ otherMember
  · intro member
    exact List.mem_map_of_mem (List.mem_filter.mpr ⟨member, decide_eq_true cuda⟩)

/-- `cuda_medians` raises nothing when the statistics have their medians. -/
theorem cudaMedianEntries_eq (selection : Selection paths)
    (complete : ∀ path stats, assignment path = some stats → stats.medianMs.isSome)
    {some : List BenchPath} (subset : some ⊆ paths) :
    cudaMedianEntries (groupStats paths assignment) some =
      .ok (groupMedians some assignment) := by
  induction some with
  | nil => rfl
  | cons path some induction =>
      have rest := induction fun _ member => subset (List.mem_cons_of_mem _ member)
      have found := groupStats_lookup assignment selection
        (subset List.mem_cons_self)
      by_cases cuda : path.backend = .cuda
      · cases stats : assignment path with
        | none =>
            simp [cudaMedianEntries, cuda, found, stats, rest, bind, Except.bind, groupMedians,
              medianAt]
        | some value =>
            obtain ⟨median, medianEq⟩ := Option.isSome_iff_exists.mp (complete path value stats)
            simp [cudaMedianEntries, cuda, found, stats, rest, bind, Except.bind, groupMedians,
              medianAt, CaseStatistics.median, medianEq, pure, Except.pure]
      · simp [cudaMedianEntries, cuda, rest, groupMedians]

/-- A selected path without a median, or below a nested path, vetoes. -/
def vetoes (paths : List BenchPath) (assignment : BenchPath → Option CaseStatistics)
    (outer : BenchPath) (inners : List BenchPath) : Bool :=
  outer ∈ paths &&
    match medianAt assignment outer with
    | none => true
    | some candidate => inners.any fun inner =>
        inner ∈ paths &&
          match medianAt assignment inner with
          | none => true
          | some nestedMedian => candidate < nestedMedian

theorem vetoes_eq_false_iff {outer : BenchPath} {inners : List BenchPath}
    (someInner : outer ∈ paths → ∃ inner ∈ inners, inner ∈ paths) :
    vetoes paths assignment outer inners = false ↔
      ∀ inner ∈ inners, Upheld paths assignment outer inner := by
  by_cases selected : outer ∈ paths
  · cases median : medianAt assignment outer with
    | none =>
        obtain ⟨inner, member, innerSelected⟩ := someInner selected
        constructor
        · intro silent
          simp [vetoes, selected, median] at silent
        · intro upheld
          obtain ⟨outerMs, innerMs, found, -⟩ := upheld inner member selected innerSelected
          rw [median] at found
          cases found
    | some candidate =>
        simp only [vetoes, selected, median, decide_true, Bool.true_and, List.any_eq_false]
        apply forall₂_congr
        intro inner member
        by_cases innerSelected : inner ∈ paths
        · cases innerMedian : medianAt assignment inner with
          | none => simp [Upheld, selected, innerSelected, innerMedian]
          | some nestedMedian => simp [Upheld, selected, innerSelected, median, innerMedian]
        · simp [Upheld, innerSelected]
  · simp [vetoes, Upheld, selected]

variable (assignment) in
/-- One pass of the loop of `boundary_inversion`. -/
theorem boundaryVeto_eq (selection : Selection paths) {outer : BenchPath}
    (published : outer ∈ publicationPaths) (cuda : outer.backend = .cuda)
    (nestedPublished : ∀ inner ∈ outer.nestedPaths,
      inner ∈ publicationPaths ∧ inner.backend = .cuda) :
    (decide (outer.key ∈
        (paths.filter fun path => path.backend = .cuda).map BenchPath.key) &&
      match Dict.get? (groupMedians paths assignment) outer.key with
      | none => true
      | some candidate => outer.nestedPaths.any fun nested =>
          decide (nested.key ∈
              (paths.filter fun path => path.backend = .cuda).map BenchPath.key) &&
            match Dict.get? (groupMedians paths assignment) nested.key with
            | none => true
            | some nestedMedian => decide (candidate < nestedMedian)) =
      vetoes paths assignment outer outer.nestedPaths := by
  by_cases selected : outer ∈ paths
  · have inner : ∀ candidate : ℚ, ∀ nested ∈ outer.nestedPaths,
        (decide (nested.key ∈
            (paths.filter fun path => path.backend = .cuda).map BenchPath.key) &&
          match Dict.get? (groupMedians paths assignment) nested.key with
          | none => true
          | some nestedMedian => decide (candidate < nestedMedian)) =
        (decide (nested ∈ paths) &&
          match medianAt assignment nested with
          | none => true
          | some nestedMedian => decide (candidate < nestedMedian)) := by
      intro candidate nested member
      obtain ⟨nestedPublished, nestedCuda⟩ := nestedPublished nested member
      by_cases nestedSelected : nested ∈ paths
      · simp only [selectedKey_iff selection nestedPublished nestedCuda, nestedSelected,
          groupMedians_get? selection nestedSelected nestedCuda]
      · simp only [selectedKey_iff selection nestedPublished nestedCuda, nestedSelected,
          decide_false, Bool.false_and]
    simp only [vetoes, selectedKey_iff selection published cuda, selected, decide_true,
      Bool.true_and, groupMedians_get? selection selected cuda]
    cases medianAt assignment outer with
    | none => rfl
    | some candidate =>
        apply Bool.eq_iff_iff.mpr
        simp only [List.any_eq_true]
        apply exists_congr
        intro nested
        apply and_congr_right
        intro member
        rw [inner candidate nested member]
  · simp only [vetoes, selectedKey_iff selection published cuda, selected, decide_false,
      Bool.false_and]

variable (assignment) in
/-- `boundary_inversion` is false exactly when every CUDA containment of the
policy group holds. -/
theorem boundaryInversion_eq_false_iff (selection : Selection paths) {policy : Policy}
    (transfer : policy ≠ .none) :
    boundaryInversion (groupMedians paths assignment) policy
        (some ((paths.filter fun path => path.backend = .cuda).map BenchPath.key)) = false ↔
      GroupUpheld paths assignment .cuda policy := by
  obtain ⟨-, hostPublished, gpuPublished⟩ := transfer_published transfer
  have residentPublished : cudaResident ∈ publicationPaths := by decide
  have graphPublished : cudaResidentGraph ∈ publicationPaths := by decide
  have host := boundaryVeto_eq assignment selection hostPublished rfl (by
    rw [nestedPaths_cudaHostOrigin]
    intro inner member
    simp only [List.mem_cons, List.not_mem_nil, or_false] at member
    rcases member with rfl | rfl | rfl
    · exact ⟨residentPublished, rfl⟩
    · exact ⟨graphPublished, rfl⟩
    · exact ⟨gpuPublished, rfl⟩)
  have gpu := boundaryVeto_eq assignment selection gpuPublished rfl (by
    rw [nestedPaths_cudaGpuOrigin]
    intro inner member
    rw [List.mem_singleton.mp member]
    exact ⟨residentPublished, rfl⟩)
  have split : boundaryInversion (groupMedians paths assignment) policy
      (some ((paths.filter fun path => path.backend = .cuda).map BenchPath.key)) =
      (vetoes paths assignment (cudaHostOrigin policy) (cudaHostOrigin policy).nestedPaths ||
        vetoes paths assignment (cudaGpuOrigin policy)
          (cudaGpuOrigin policy).nestedPaths) := by
    rw [← host, ← gpu]
    simp only [boundaryInversion, List.any_cons, List.any_nil, Bool.or_false]
    rfl
  rw [split, Bool.or_eq_false_iff, nestedPaths_cudaHostOrigin, nestedPaths_cudaGpuOrigin,
    vetoes_eq_false_iff fun member =>
      ⟨_, List.mem_cons_self, selection.resident_mem _ member rfl⟩,
    vetoes_eq_false_iff fun member =>
      ⟨_, List.mem_cons_self, selection.resident_mem _ member rfl⟩]
  constructor
  · intro upheld outer inner contained backend samePolicy
    obtain ⟨hostUpheld, gpuUpheld⟩ := upheld
    cases contained with
    | hostResident other =>
        obtain rfl : other = policy := samePolicy
        exact hostUpheld _ (by simp)
    | hostResidentGraph other =>
        obtain rfl : other = policy := samePolicy
        exact hostUpheld _ (by simp)
    | hostGpuOrigin other =>
        obtain rfl : other = policy := samePolicy
        exact hostUpheld _ (by simp)
    | gpuResident other =>
        obtain rfl : other = policy := samePolicy
        exact gpuUpheld _ (by simp)
    | cpuComparator => cases backend
  · intro upheld
    constructor
    · intro inner member
      simp only [List.mem_cons, List.not_mem_nil, or_false] at member
      rcases member with rfl | rfl | rfl
      · exact upheld _ _ (.hostResident policy) rfl rfl
      · exact upheld _ _ (.hostResidentGraph policy) rfl rfl
      · exact upheld _ _ (.hostGpuOrigin policy) rfl rfl
    · intro inner member
      rw [List.mem_singleton.mp member]
      exact upheld _ _ (.gpuResident policy) rfl rfl

/-- The CPU entry of a policy group is false exactly when its containment holds,
and nothing is raised. -/
theorem cpuInversion_spec (selection : Selection paths)
    (complete : ∀ path stats, assignment path = some stats → stats.medianMs.isSome)
    {policy : Policy} (transfer : policy ≠ .none) :
    ∃ inverted, cpuInversion (groupStats paths assignment) (paths.map BenchPath.label)
        policy = .ok inverted ∧
      (inverted = false ↔ GroupUpheld paths assignment .cpu policy) := by
  have published := (transfer_published transfer).1
  have group : GroupUpheld paths assignment .cpu policy ↔
      Upheld paths assignment (cpuGpuOrigin policy) comparator := by
    constructor
    · intro upheld
      exact upheld _ _ (.cpuComparator policy) rfl rfl
    · intro upheld outer inner contained backend samePolicy
      cases contained with
      | cpuComparator other =>
          obtain rfl : other = policy := samePolicy
          exact upheld
      | hostResident => cases backend
      | hostResidentGraph => cases backend
      | hostGpuOrigin => cases backend
      | gpuResident => cases backend
  have labelIff : (cpuGpuOrigin policy).label ∈ paths.map BenchPath.label ↔
      cpuGpuOrigin policy ∈ paths := by
    constructor
    · intro member
      obtain ⟨other, inside, same⟩ := List.mem_map.mp member
      exact label_injective (selection.published inside) published same ▸ inside
    · exact List.mem_map_of_mem
  have comparatorFound := groupStats_get assignment selection
    (selection.published selection.comparator_mem)
  rw [if_pos selection.comparator_mem] at comparatorFound
  have pathFound := groupStats_get assignment selection published
  rw [cpuInversion_eq, group]
  simp only [labelIff, pathFound, comparatorFound]
  by_cases selected : cpuGpuOrigin policy ∈ paths
  · have upheldIff : Upheld paths assignment (cpuGpuOrigin policy) comparator ↔
        ∃ outerMs innerMs, medianAt assignment (cpuGpuOrigin policy) = some outerMs ∧
          medianAt assignment comparator = some innerMs ∧ innerMs ≤ outerMs := by
      constructor
      · intro upheld
        exact upheld selected selection.comparator_mem
      · intro upheld _ _
        exact upheld
    rw [upheldIff]
    simp only [selected, not_true_eq_false, if_false, if_true]
    cases candidate : assignment (cpuGpuOrigin policy) with
    | none => exact ⟨true, rfl, by simp [medianAt, candidate]⟩
    | some candidateStats =>
        cases baseline : assignment comparator with
        | none => exact ⟨true, rfl, by simp [medianAt, baseline]⟩
        | some baselineStats =>
            obtain ⟨outerMs, outerEq⟩ := Option.isSome_iff_exists.mp (complete _ _ candidate)
            obtain ⟨innerMs, innerEq⟩ := Option.isSome_iff_exists.mp (complete _ _ baseline)
            refine ⟨decide (outerMs < innerMs), ?_, ?_⟩
            · simp [CaseStatistics.median, outerEq, innerEq, bind, Except.bind, pure,
                Except.pure]
            · simp [medianAt, candidate, baseline, outerEq, innerEq]
  · refine ⟨false, ?_, ?_⟩
    · simp [selected]
    · simp [Upheld, selected]

/-- The computed inversions say which containments fail. -/
structure Inversions.Faithful (inversions : Inversions) (paths : List BenchPath)
    (assignment : BenchPath → Option CaseStatistics) : Prop where
  cpu : ∀ policy ≠ .none,
    (inversions.cpu policy = false ↔ GroupUpheld paths assignment .cpu policy)
  cuda : ∀ policy ≠ .none,
    (inversions.cuda policy = false ↔ GroupUpheld paths assignment .cuda policy)

theorem policyGroup_ne_none (path : BenchPath) : policyGroup path ≠ .none := by
  by_cases pinned : path.policy = .pinned
  · simp [policyGroup, pinned]
  · simp [policyGroup, pinned]

/-- `path_inversion` is false exactly when the containments of the path hold. -/
theorem pathInversion_eq_false_iff {inversions : Inversions}
    (faithful : inversions.Faithful paths assignment) {path : BenchPath}
    (published : path ∈ publicationPaths) (compared : path ≠ comparator) :
    pathInversion inversions path = false ↔ RelationsHold paths assignment path := by
  have group := policyGroup_ne_none path
  have shape : ∀ path ∈ publicationPaths,
      (path.backend = .cpu → path = comparator ∨ path.boundary = .gpuOrigin) ∧
      (path.backend = .cpuAvx2 → path = avx2Comparator) := by
    decide
  obtain ⟨cpuShape, avx2Shape⟩ := shape path published
  cases backend : path.backend with
  | cpuAvx2 =>
      have avx2 := avx2Shape backend
      subst avx2
      simp [pathInversion, RelationsHold, avx2Comparator]
  | cpu =>
      have origin := (cpuShape backend).resolve_left compared
      have notAvx2 : path ≠ avx2Comparator := by
        intro same
        rw [same] at backend
        cases backend
      simp [pathInversion, RelationsHold, notAvx2, backend, origin, faithful.cpu _ group]
  | cuda =>
      have notAvx2 : path ≠ avx2Comparator := by
        intro same
        rw [same] at backend
        cases backend
      by_cases origin : path.boundary = .gpuOrigin
      · simp [pathInversion, RelationsHold, notAvx2, backend, origin, faithful.cpu _ group,
          faithful.cuda _ group]
      · simp [pathInversion, RelationsHold, notAvx2, backend, origin, faithful.cuda _ group]

end Lookups

/-- A direction is supported by a conclusive verdict and the containments it rests
on, and by nothing else. -/
def FailClosed (verdict : Verdict) (claims : ClaimSupport) (relations : Prop) : Prop :=
  (claims.directionSupported = true ↔
    (verdict = .faster ∨ verdict = .slower) ∧ relations) ∧
  (claims.magnitudeSupported = true → claims.directionSupported = true)

theorem compareSpeedup_verdict_ne (generator : Generator) (baseline candidate : CaseStatistics)
    (pointKey : String) :
    (compareSpeedup generator baseline candidate pointKey).verdict ≠ .comparator := by
  have range : ∀ low high : ℚ, speedupVerdict low high ≠ .comparator := by
    intro low high
    unfold speedupVerdict
    split_ifs <;> simp
  unfold compareSpeedup
  split_ifs
  · simp [inconclusiveSpeedup]
  · simp [inconclusiveSpeedup]
  · exact range _ _

/-- A claim of a candidate against a baseline, which rests on some relations. -/
structure PairClaim.Closed (claim : PairClaim) (generator : Generator)
    (baseline candidate : CaseStatistics) (pointKey : String) (relations : Prop) : Prop where
  speedup : claim.speedup = compareSpeedup generator baseline candidate pointKey
  inversion : claim.boundaryInversion = false ↔ relations
  claims : FailClosed claim.speedup.verdict claim.claims relations

theorem pairClaim_closed (generator : Generator) (baseline candidate : CaseStatistics)
    (pointKey : String) {inversion : Bool} {relations : Prop}
    (vetoed : inversion = false ↔ relations) :
    (pairClaim generator baseline candidate pointKey inversion).Closed generator baseline
      candidate pointKey relations := by
  have notComparator := compareSpeedup_verdict_ne generator baseline candidate pointKey
  refine ⟨rfl, vetoed, ?_⟩
  simp only [pairClaim, claimSupport, FailClosed]
  generalize (compareSpeedup generator baseline candidate pointKey).verdict = verdict at *
  constructor
  · rw [← vetoed, Bool.and_eq_true, decide_eq_true_eq, Bool.not_eq_true']
    apply and_congr_left
    intro _
    cases verdict with
    | faster => simp
    | slower => simp
    | inconclusive => simp
    | comparator => exact absurd rfl notComparator
  · intro supported
    simp only [Bool.and_eq_true] at supported ⊢
    exact supported.1.1

/-- A selected path whose case passed. -/
def Passed (paths : List BenchPath) (assignment : BenchPath → Option CaseStatistics)
    (path : BenchPath) : Prop :=
  path ∈ paths ∧ (assignment path).isSome

/-- The keys written for the comparison of a path: its speedup against its baseline,
claims except for the comparator and the descriptive path, and for a pinned path whose
twin passed the comparison with the twin. -/
structure Comparison.Closed (comparison : Comparison) (generator : Generator)
    (paths : List BenchPath) (assignment : BenchPath → Option CaseStatistics)
    (path : BenchPath) (stats : CaseStatistics) : Prop where
  speedup : ∀ base baseStats, path.baseline = some base → assignment base = some baseStats →
    comparison.baseline = base.label ∧
      comparison.speedup = compareSpeedup generator baseStats stats "speedup_vs_cpu"
  inversion : comparison.boundaryInversion = false ↔ RelationsHold paths assignment path
  claimed : comparison.claims.isSome ↔ path ≠ comparator ∧ path ≠ avx2Comparator
  claims : ∀ claims, comparison.claims = some claims →
    FailClosed comparison.speedup.verdict claims (RelationsHold paths assignment path)
  twinned : comparison.vsPageable.isSome ↔
    path.policy = .pinned ∧ Passed paths assignment path.pageableTwin
  vsPageable : ∀ claim, comparison.vsPageable = some claim →
    ∃ twin, assignment path.pageableTwin = some twin ∧
      claim.Closed generator twin stats "speedup_vs_pageable"
        (RelationsHold paths assignment path ∧ RelationsHold paths assignment path.pageableTwin)

section Results

variable {paths : List BenchPath} {assignment : BenchPath → Option CaseStatistics}

theorem relationsHold_comparator : RelationsHold paths assignment comparator := by
  constructor
  · intro cuda
    cases cuda
  · intro origin
    cases origin

theorem comparatorComparison_closed (generator : Generator) (stats : CaseStatistics) :
    comparatorComparison.Closed generator paths assignment comparator stats where
  speedup := by
    intro base baseStats none
    cases none
  inversion := by simp [comparatorComparison, relationsHold_comparator]
  claimed := by simp [comparatorComparison]
  claims := by
    intro claims found
    cases found
  twinned := by simp [comparatorComparison, comparator]
  vsPageable := by
    intro claim found
    cases found

theorem pageableTwin_published {path : BenchPath} (published : path ∈ publicationPaths)
    (pinned : path.policy = .pinned) :
    path.pageableTwin ∈ publicationPaths ∧ path.pageableTwin ≠ comparator := by
  have twins : ∀ path ∈ publicationPaths, path.policy = .pinned →
      path.pageableTwin ∈ publicationPaths ∧ path.pageableTwin ≠ comparator := by
    decide
  exact twins path published pinned

theorem baseline_published {path base : BenchPath} (published : path ∈ publicationPaths)
    (found : path.baseline = some base) : base ∈ publicationPaths := by
  have baselines : ∀ path ∈ publicationPaths, ∀ base, path.baseline = some base →
      base ∈ publicationPaths := by
    decide
  exact baselines path published base found

theorem baseline_eq_none {path : BenchPath} : path.baseline = none ↔ path = comparator := by
  unfold BenchPath.baseline
  split_ifs with same
  · simp [same]
  · simp [same]
  · simp [same]

section

variable (generator : Generator) {stats : StatsByLabel}
  (got : ∀ path ∈ publicationPaths,
    stats.get path = if path ∈ paths then assignment path else none)

include got

theorem passed_iff {path : BenchPath} (published : path ∈ publicationPaths) :
    (stats.get path).isSome ↔ Passed paths assignment path := by
  rw [got path published, Passed]
  by_cases inside : path ∈ paths
  · simp [inside]
  · simp [inside]

theorem assignment_of_get {path : BenchPath} (published : path ∈ publicationPaths)
    {found : CaseStatistics} (given : stats.get path = some found) :
    path ∈ paths ∧ assignment path = some found := by
  rw [got path published] at given
  split at given
  · exact ⟨‹_›, given⟩
  · cases given

theorem pathComparison_closed {inversions : Inversions}
    (faithful : inversions.Faithful paths assignment) {path base : BenchPath}
    (published : path ∈ publicationPaths) (compared : path ≠ comparator)
    (baseline : path.baseline = some base) {baseStats : CaseStatistics}
    (baseGiven : assignment base = some baseStats) (found : CaseStatistics) :
    (pathComparison generator stats inversions path base baseStats found).Closed generator
      paths assignment path found := by
  have clear := pathInversion_eq_false_iff faithful published compared
  have speedup : ∀ other otherStats, path.baseline = some other →
      assignment other = some otherStats → base.label = other.label ∧
        compareSpeedup generator baseStats found "speedup_vs_cpu" =
          compareSpeedup generator otherStats found "speedup_vs_cpu" := by
    intro other otherStats otherBase otherGiven
    obtain rfl := Option.some.inj (baseline.symm.trans otherBase)
    obtain rfl := Option.some.inj (baseGiven.symm.trans otherGiven)
    exact ⟨rfl, rfl⟩
  by_cases avx2 : path = avx2Comparator
  · simp only [pathComparison, if_pos avx2]
    refine ⟨speedup, clear, ?_, ?_, ?_, ?_⟩
    · simp [avx2]
    · intro claims found
      cases found
    · simp [avx2, avx2Comparator]
    · intro claim found
      cases found
  · simp only [pathComparison, if_neg avx2]
    refine ⟨speedup, clear, ?_, ?_, ?_, ?_⟩
    · simp [compared, avx2]
    · intro claims claimsEq
      cases claimsEq
      exact (pairClaim_closed generator baseStats found _ clear).claims
    · by_cases pinned : path.policy = .pinned
      · rw [if_pos pinned, Option.isSome_map,
          passed_iff got (pageableTwin_published published pinned).1]
        exact (and_iff_right pinned).symm
      · simp [pinned]
    · intro claim claimEq
      by_cases pinned : path.policy = .pinned
      · obtain ⟨twinPublished, twinCompared⟩ := pageableTwin_published published pinned
        have twinClear := pathInversion_eq_false_iff faithful twinPublished twinCompared
        have bothClear : (pathInversion inversions path ||
              pathInversion inversions path.pageableTwin) = false ↔
            RelationsHold paths assignment path ∧
              RelationsHold paths assignment path.pageableTwin := by
          rw [Bool.or_eq_false_iff, clear, twinClear]
        simp only [if_pos pinned, Option.map_eq_some_iff] at claimEq
        obtain ⟨twin, twinFound, rfl⟩ := claimEq
        exact ⟨twin, (assignment_of_get got twinPublished twinFound).2,
          pairClaim_closed generator twin found _ bothClear⟩
      · simp [if_neg pinned] at claimEq

end

/-- The result of a case fails closed in each of its claims: it is compared exactly when its
baseline passed, and the resident graph with the resident path when that passed. -/
structure CaseResult.Closed (result : CaseResult) (generator : Generator)
    (paths : List BenchPath) (assignment : BenchPath → Option CaseStatistics)
    (path : BenchPath) : Prop where
  stats : assignment path = some result.stats
  compared : result.comparison.isSome ↔
    path = comparator ∨ ∃ base, path.baseline = some base ∧ Passed paths assignment base
  comparison : ∀ comparison, result.comparison = some comparison →
    comparison.Closed generator paths assignment path result.stats
  residentCompared : result.vsResident.isSome ↔
    path = cudaResidentGraph ∧ Passed paths assignment cudaResident
  vsResident : ∀ claim, result.vsResident = some claim →
    ∃ resident, assignment cudaResident = some resident ∧
      claim.Closed generator resident result.stats "speedup_vs_resident"
        (RelationsHold paths assignment path)

/-- What one pass of the loop leaves, before the resident graph is compared. -/
structure CaseResult.Looped (result : CaseResult) (generator : Generator)
    (paths : List BenchPath) (assignment : BenchPath → Option CaseStatistics)
    (path : BenchPath) : Prop where
  stats : assignment path = some result.stats
  compared : result.comparison.isSome ↔
    path = comparator ∨ ∃ base, path.baseline = some base ∧ Passed paths assignment base
  comparison : ∀ comparison, result.comparison = some comparison →
    comparison.Closed generator paths assignment path result.stats
  vsResident : result.vsResident = none

section

variable (generator : Generator) {stats : StatsByLabel}
  (got : ∀ path ∈ publicationPaths,
    stats.get path = if path ∈ paths then assignment path else none)
  {inversions : Inversions} (faithful : inversions.Faithful paths assignment)
  {path : BenchPath} (published : path ∈ publicationPaths)

include got faithful published

theorem pathResult_looped {result : CaseResult}
    (found : pathResult generator stats inversions path (assignment path) = some result) :
    result.Looped generator paths assignment path := by
  cases given : assignment path with
  | none =>
      rw [given] at found
      cases found
  | some value =>
      rw [given, pathResult] at found
      by_cases same : path = comparator
      · rw [if_pos same] at found
        cases found
        refine ⟨given, ?_, ?_, rfl⟩
        · simp [same]
        · intro added addedEq
          cases addedEq
          rw [same]
          exact comparatorComparison_closed generator value
      · rw [if_neg same] at found
        cases baseline : path.baseline with
        | none => exact absurd (baseline_eq_none.mp baseline) same
        | some base =>
            have basePublished := baseline_published published baseline
            have passed := passed_iff got basePublished
            have compared : (stats.get base).isSome ↔ path = comparator ∨
                ∃ other, path.baseline = some other ∧ Passed paths assignment other := by
              rw [passed, baseline]
              simp [same]
            rw [baseline] at found
            cases baseFound : stats.get base with
            | none =>
                rw [baseFound] at compared
                simp only [baseFound] at found
                cases found
                refine ⟨given, compared, ?_, rfl⟩
                intro added addedEq
                cases addedEq
            | some baseStats =>
                rw [baseFound] at compared
                simp only [baseFound] at found
                cases found
                refine ⟨given, compared, ?_, rfl⟩
                intro added addedEq
                cases addedEq
                exact pathComparison_closed generator got faithful published same baseline
                  (assignment_of_get got basePublished baseFound).2 value

theorem compareResident_closed (selected : path ∈ paths) {before : Option CaseResult}
    (looped : ∀ result, before = some result → result.Looped generator paths assignment path)
    {result : CaseResult}
    (found : compareResident generator stats inversions path before = some result) :
    result.Closed generator paths assignment path := by
  have residentPassed := passed_iff got (show cudaResident ∈ publicationPaths by decide)
  have kept : before = some result →
      ¬ (path = cudaResidentGraph ∧ Passed paths assignment cudaResident) →
      result.Closed generator paths assignment path := by
    intro same uncompared
    obtain ⟨given, compared, comparison, none⟩ := looped result same
    refine ⟨given, compared, comparison, ?_, ?_⟩
    · rw [none]
      exact iff_of_false Bool.false_ne_true uncompared
    · intro claim claimEq
      rw [none] at claimEq
      cases claimEq
  have graphGet : path = cudaResidentGraph → stats.get cudaResidentGraph = assignment path := by
    intro same
    rw [← same, got path published, if_pos selected]
  unfold compareResident at found
  split at found
  · rename_i resident graph residentFound graphFound
    split at found
    · rename_i label
      have same : path = cudaResidentGraph := label_injective published (by decide) label
      obtain ⟨case, caseEq, rfl⟩ := Option.map_eq_some_iff.mp found
      obtain ⟨given, compared, comparison, -⟩ := looped case caseEq
      have residentGiven := assignment_of_get got (by decide) residentFound
      have graphIs : graph = case.stats := by
        rw [graphGet same, given] at graphFound
        exact (Option.some.inj graphFound).symm
      have relations : inversions.cuda .pageable = false ↔
          RelationsHold paths assignment path := by
        subst same
        rw [faithful.cuda .pageable (by decide)]
        simp [RelationsHold, cudaResidentGraph, policyGroup]
      refine ⟨given, compared, comparison, ?_, ?_⟩
      · rw [← residentPassed, residentFound]
        simp [same]
      · intro claim claimEq
        cases claimEq
        rw [graphIs]
        exact ⟨resident, residentGiven.2, pairClaim_closed generator resident _ _ relations⟩
    · rename_i other
      apply kept found
      rintro ⟨same, -⟩
      exact other (congrArg BenchPath.label same)
  · rename_i missing
    apply kept found
    rintro ⟨same, passed⟩
    obtain ⟨residentStats, residentFound⟩ := Option.isSome_iff_exists.mp (residentPassed.mpr passed)
    obtain ⟨looped, -, -, -⟩ := looped result found
    exact missing residentStats result.stats residentFound ((graphGet same).trans looped)

end

end Results

/-- The policy that stands for the group of a policy. -/
def groupOf (policy : Policy) : Policy :=
  if policy = .pinned then .pinned else .pageable

open Classical in
/-- The veto of a requirement. -/
noncomputable def vetoOf (requirement : Prop) : Bool :=
  decide (¬ requirement)

theorem vetoOf_eq_false_iff {requirement : Prop} : vetoOf requirement = false ↔ requirement := by
  simp [vetoOf]

theorem eq_vetoOf {veto : Bool} {requirement : Prop} (agree : veto = false ↔ requirement) :
    veto = vetoOf requirement := by
  have same := agree.trans vetoOf_eq_false_iff.symm
  cases veto with
  | false => exact (same.mp rfl).symm
  | true =>
      cases other : vetoOf requirement with
      | true => rfl
      | false => exact absurd (same.mpr other) (by decide)

/-- The vetoes of an assignment, read off its containments. -/
noncomputable def groupInversions (paths : List BenchPath)
    (assignment : BenchPath → Option CaseStatistics) : Inversions where
  cpu policy := vetoOf (GroupUpheld paths assignment .cpu (groupOf policy))
  cuda policy := vetoOf (GroupUpheld paths assignment .cuda (groupOf policy))

section Runs

variable {paths : List BenchPath} {assignment : BenchPath → Option CaseStatistics}

theorem groupOf_eq {policy : Policy} (transfer : policy ≠ .none) : groupOf policy = policy := by
  rcases Policy.transfer_cases transfer with rfl | rfl
  · rfl
  · rfl

theorem groupInversions_faithful :
    (groupInversions paths assignment).Faithful paths assignment where
  cpu policy transfer := by
    simp only [groupInversions, groupOf_eq transfer, vetoOf_eq_false_iff]
  cuda policy transfer := by
    simp only [groupInversions, groupOf_eq transfer, vetoOf_eq_false_iff]

/-- The result of each path, in terms of the assignment alone. -/
noncomputable def groupResult (generator : Generator) (paths : List BenchPath)
    (assignment : BenchPath → Option CaseStatistics) (path : BenchPath) : Option CaseResult :=
  compareResident generator (groupStats paths assignment) (groupInversions paths assignment) path
    (pathResult generator (groupStats paths assignment) (groupInversions paths assignment) path
      (assignment path))

theorem mapM_eq_ok {α β : Type} {items : List α} {call : α → Except PyError β} {value : α → β}
    (each : ∀ item ∈ items, call item = .ok (value item)) :
    items.mapM call = .ok (items.map value) := by
  induction items with
  | nil => rfl
  | cons item items induction =>
      have rest := induction fun other member => each other (List.mem_cons_of_mem _ member)
      rw [List.mapM_cons, each item List.mem_cons_self, rest]
      rfl

/-- The comparison of a group raises nothing and gives every path its result. -/
theorem compareCaseGroup_eq (generator : Generator) (selection : Selection paths)
    (complete : ∀ path stats, assignment path = some stats → stats.medianMs.isSome) :
    compareCaseGroup generator (paths.map assignment) paths =
      .ok (paths.map (groupResult generator paths assignment)) := by
  have statsEq : Dict.ofEntries ((paths.map BenchPath.label).zip (paths.map assignment)) =
      groupStats paths assignment := by
    rw [List.zip_map']
    exact Dict.ofEntries_of_nodup (groupStats_keys_nodup selection)
  have mediansEq : Dict.ofEntries (groupMedians paths assignment) =
      groupMedians paths assignment :=
    Dict.ofEntries_of_nodup (groupMedians_keys_nodup selection)
  have comparatorFound := groupStats_lookup assignment selection
    selection.comparator_mem
  obtain ⟨cpuPageable, cpuPageableEq, cpuPageableIff⟩ :=
    cpuInversion_spec selection complete (show Policy.pageable ≠ .none by decide)
  obtain ⟨cpuPinned, cpuPinnedEq, cpuPinnedIff⟩ :=
    cpuInversion_spec selection complete (show Policy.pinned ≠ .none by decide)
  have cudaPageableIff := boundaryInversion_eq_false_iff assignment selection
    (show Policy.pageable ≠ .none by decide)
  have cudaPinnedIff := boundaryInversion_eq_false_iff assignment selection
    (show Policy.pinned ≠ .none by decide)
  have inversionsEq : ({
      cpu := fun policy => if policy = .pinned then cpuPinned else cpuPageable
      cuda := fun policy =>
        if policy = .pinned then
          boundaryInversion (groupMedians paths assignment) .pinned
            (some ((paths.filter fun path => path.backend = .cuda).map BenchPath.key))
        else
          boundaryInversion (groupMedians paths assignment) .pageable
            (some ((paths.filter fun path => path.backend = .cuda).map BenchPath.key)) } :
        Inversions) = groupInversions paths assignment := by
    unfold groupInversions
    congr 1
    · funext policy
      by_cases pinned : policy = .pinned
      · simp only [if_pos pinned, groupOf]
        exact eq_vetoOf cpuPinnedIff
      · simp only [if_neg pinned, groupOf]
        exact eq_vetoOf cpuPageableIff
    · funext policy
      by_cases pinned : policy = .pinned
      · simp only [if_pos pinned, groupOf]
        exact eq_vetoOf cudaPinnedIff
      · simp only [if_neg pinned, groupOf]
        exact eq_vetoOf cudaPageableIff
  have looped : ∀ inversions, paths.mapM (comparePath generator (groupStats paths assignment)
      inversions) = .ok (paths.map fun path =>
        pathResult generator (groupStats paths assignment) inversions path
          (assignment path)) := by
    intro inversions
    apply mapM_eq_ok
    intro path member
    simp [comparePath, groupStats_lookup assignment selection member, bind, Except.bind, pure,
      Except.pure]
  have mediansFound := cudaMedianEntries_eq selection complete (List.Subset.refl paths)
  unfold compareCaseGroup
  simp only [List.length_map, lt_irrefl, if_false, statsEq, mediansFound, mediansEq,
    comparatorFound, cpuPageableEq, cpuPinnedEq, bind, Except.bind, pure, Except.pure,
    inversionsEq, looped]
  have paired : ∀ result : BenchPath → Option CaseResult,
      paths.zip (paths.map result) = paths.map fun path => (path, result path) := by
    intro result
    simpa using List.zip_map' (f := fun path : BenchPath => path) (g := result) (l := paths)
  rw [paired, List.map_map]
  rfl

/-- The result of a path does not depend on the order of the group. -/
theorem groupResult_perm (generator : Generator) (selection : Selection paths)
    {arranged : List BenchPath} (perm : arranged.Perm paths) :
    groupResult generator arranged assignment = groupResult generator paths assignment := by
  have found : ∀ label, Dict.get? (groupStats arranged assignment) label =
      Dict.get? (groupStats paths assignment) label :=
    Dict.get?_perm (groupStats_keys_nodup selection) (perm.map _)
  have getEq : StatsByLabel.get (groupStats arranged assignment) =
      StatsByLabel.get (groupStats paths assignment) := by
    funext path
    rw [StatsByLabel.get, StatsByLabel.get, found]
  have upheldIff : ∀ backend policy, GroupUpheld arranged assignment backend policy ↔
      GroupUpheld paths assignment backend policy := by
    intro backend policy
    simp only [GroupUpheld, Upheld, perm.mem_iff]
  have inversionsEq : groupInversions arranged assignment = groupInversions paths assignment := by
    simp only [groupInversions, upheldIff]
  have comparisonEq : ∀ path base baseStats value,
      pathComparison generator (groupStats arranged assignment)
        (groupInversions paths assignment) path base baseStats value =
      pathComparison generator (groupStats paths assignment)
        (groupInversions paths assignment) path base baseStats value := by
    intro path base baseStats value
    simp only [pathComparison, getEq]
  funext path
  simp only [groupResult, inversionsEq, compareResident, getEq]
  cases assignment path with
  | none => rfl
  | some value => simp only [pathResult, getEq, comparisonEq]

theorem groupResult_ne_none (generator : Generator) {path : BenchPath} {value : CaseStatistics}
    (given : assignment path = some value) :
    groupResult generator paths assignment path ≠ none := by
  have kept : ∀ stats inversions before, before ≠ none →
      compareResident generator stats inversions path before ≠ none := by
    intro stats inversions before present
    unfold compareResident
    split
    · split
      · simpa using present
      · exact present
    · exact present
  apply kept
  rw [given, pathResult]
  split
  · simp
  · split
    · simp
    · split
      · simp
      · simp

/-- Claims fail closed.  Whatever subset of the cases failed, and in whatever
order the paths are listed, the comparison of a group raises nothing and gives
each path one result.  Exactly the passed cases whose counterparts passed are
compared, and a claim needs a conclusive verdict and every containment of its
policy group. -/
theorem compareCaseGroup_failClosed (generator : Generator)
    (backends boundaries policyNames : List String) (paths : List BenchPath)
    (built : buildPaths backends boundaries policyNames = .ok paths)
    (assignment : BenchPath → Option CaseStatistics)
    (complete : ∀ path stats, assignment path = some stats → stats.medianMs.isSome) :
    ∃ results : BenchPath → Option CaseResult,
      (∀ arranged : List BenchPath, arranged.Perm paths →
        compareCaseGroup generator (arranged.map assignment) arranged =
          .ok (arranged.map results)) ∧
      ∀ path ∈ paths,
        ((results path).map CaseResult.stats = assignment path) ∧
        ∀ result, results path = some result →
          result.Closed generator paths assignment path := by
  have selection := Selection.of_built built
  have got : ∀ path ∈ publicationPaths, StatsByLabel.get (groupStats paths assignment) path =
      if path ∈ paths then assignment path else none :=
    fun path published => groupStats_get assignment selection published
  refine ⟨groupResult generator paths assignment, ?_, ?_⟩
  · intro arranged perm
    rw [compareCaseGroup_eq generator (selection.perm perm) complete,
      groupResult_perm generator selection perm]
  · intro path member
    have published := selection.published member
    have closed : ∀ result, groupResult generator paths assignment path = some result →
        result.Closed generator paths assignment path := by
      intro result found
      apply compareResident_closed generator got groupInversions_faithful published member _ found
      exact fun before => pathResult_looped generator got groupInversions_faithful published
    refine ⟨?_, closed⟩
    cases resultEq : groupResult generator paths assignment path with
    | some result => exact (closed result resultEq).stats.symm
    | none =>
        cases given : assignment path with
        | none => rfl
        | some value =>
            exact absurd resultEq (groupResult_ne_none generator given)

end Runs

/-- A group in which the resident path failed. -/
def missingResident (path : BenchPath) : Option CaseStatistics :=
  if path = cudaResident then none else some (computeCaseStatistics evenTrials)

theorem missingResident_complete (path : BenchPath) (stats : CaseStatistics)
    (given : missingResident path = some stats) : stats.medianMs.isSome := by
  by_cases resident : path = cudaResident
  · simp [missingResident, resident] at given
  · simp only [missingResident, if_neg resident, Option.some.injEq] at given
    rw [← given, evenTrials.medianMs_computed]
    rfl

theorem compareCaseGroup_failClosed_missingResident :
    ∃ results : BenchPath → Option CaseResult,
      (∀ arranged : List BenchPath, arranged.Perm (selectedPaths false true true true) →
        compareCaseGroup identityGenerator (arranged.map missingResident) arranged =
          .ok (arranged.map results)) ∧
      ∀ path ∈ selectedPaths false true true true,
        ((results path).map CaseResult.stats = missingResident path) ∧
        ∀ result, results path = some result →
          result.Closed identityGenerator (selectedPaths false true true true) missingResident
            path :=
  have built : buildPaths ["cuda"] ["gpu-origin"] ["pageable", "pinned"] =
      .ok (selectedPaths false true true true) := by
    decide +kernel
  compareCaseGroup_failClosed identityGenerator ["cuda"] ["gpu-origin"] ["pageable", "pinned"]
    (selectedPaths false true true true) built missingResident missingResident_complete

end Stoquant

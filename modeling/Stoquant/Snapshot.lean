import Mathlib.Logic.Function.Basic
import Mathlib.Logic.Relation
import Mathlib.Data.List.Basic

/-!
# Write-once snapshots

Benchmark runs that aim at one snapshot name share two directory names: the
final one and the partial one a run fills before it commits.  A run is the
sequence of file-system operations of `create_snapshot` and `Snapshot.commit`;
runs interleave operation by operation, and a run that stops is one that takes
no further step.
-/

namespace Stoquant

/-- Whether the two directories exist. -/
structure SnapshotNames where
  final : Bool
  partialDir : Bool
  deriving DecidableEq

/-- How `Path.rename` of the partial directory to the final name ends. -/
inductive RenameResult where
  | moved
  | replaced
  | raised
  deriving DecidableEq

/-- `Path.rename`: a free target is taken; over an existing target the platform
either raises or lets the directory take its place. -/
inductive Rename : SnapshotNames → RenameResult → SnapshotNames → Prop where
  | missing {final : Bool} : Rename ⟨final, false⟩ .raised ⟨final, false⟩
  | free : Rename ⟨false, true⟩ .moved ⟨true, false⟩
  | refused : Rename ⟨true, true⟩ .raised ⟨true, true⟩
  | over : Rename ⟨true, true⟩ .replaced ⟨true, false⟩

/-- `git_prov["git_dirty"]` and `allow_dirty`. -/
structure SnapshotGate where
  gitDirty : Bool
  allowDirty : Bool

/-- Where a run stands between two file-system operations. -/
inductive SnapshotRun where
  /-- `check_snapshot` has not looked at any name. -/
  | start
  /-- `target.exists()` was false. -/
  | targetChecked
  /-- `partial.exists()` was false. -/
  | partialChecked
  /-- `partial.parent` exists. -/
  | parentMade
  /-- `create_snapshot` returned, and `commit` has not succeeded. -/
  | created
  /-- `self.final.exists()` was false in `commit`. -/
  | finalChecked
  /-- The rename succeeded. -/
  | committed
  /-- `create_snapshot` raised. -/
  | refused
  deriving DecidableEq

/-- What a step adds to the history. -/
inductive SnapshotEvent where
  | obtained
  | renamed (result : RenameResult)
  deriving DecidableEq

/-- One operation of a run. -/
inductive SnapshotRun.Step (gate : SnapshotGate) :
    SnapshotNames → SnapshotRun → SnapshotNames → SnapshotRun →
      List SnapshotEvent → Prop where
  | dirty {names : SnapshotNames} :
      gate.gitDirty = true → gate.allowDirty = false →
      Step gate names .start names .refused []
  | targetExists {names : SnapshotNames} :
      (gate.gitDirty && !gate.allowDirty) = false → names.final = true →
      Step gate names .start names .refused []
  | targetFree {names : SnapshotNames} :
      (gate.gitDirty && !gate.allowDirty) = false → names.final = false →
      Step gate names .start names .targetChecked []
  | partialExists {names : SnapshotNames} :
      names.partialDir = true →
      Step gate names .targetChecked names .refused []
  | partialFree {names : SnapshotNames} :
      names.partialDir = false →
      Step gate names .targetChecked names .partialChecked []
  | makeParent {names : SnapshotNames} :
      Step gate names .partialChecked names .parentMade []
  | mkdirTaken {names : SnapshotNames} :
      names.partialDir = true →
      Step gate names .parentMade names .refused []
  | mkdir {names : SnapshotNames} :
      names.partialDir = false →
      Step gate names .parentMade { names with partialDir := true } .created
        [.obtained]
  | finalExists {names : SnapshotNames} :
      -- `commit` raises and leaves the snapshot object as it was
      names.final = true →
      Step gate names .created names .created []
  | finalFree {names : SnapshotNames} :
      names.final = false →
      Step gate names .created names .finalChecked []
  | renameRaised {names names' : SnapshotNames} :
      Rename names .raised names' →
      Step gate names .finalChecked names' .created [.renamed .raised]
  | rename {names names' : SnapshotNames} {result : RenameResult} :
      Rename names result names' → result ≠ .raised →
      Step gate names .finalChecked names' .committed [.renamed result]
  | again {names : SnapshotNames} :
      -- `commit` on a committed snapshot raises
      Step gate names .committed names .committed []

/-- The two names, every run, and what happened so far. -/
structure SnapshotState (ι : Type) where
  names : SnapshotNames
  run : ι → SnapshotRun
  history : List (ι × SnapshotEvent)

section

variable {ι : Type} [DecidableEq ι]

/-- The state after an operation of run `i`. -/
def SnapshotState.after (state : SnapshotState ι) (i : ι) (names : SnapshotNames)
    (next : SnapshotRun) (events : List SnapshotEvent) : SnapshotState ι :=
  { names
    run := Function.update state.run i next
    history := state.history ++ events.map (i, ·) }

theorem SnapshotState.after_run_self (state : SnapshotState ι) (i : ι)
    (names : SnapshotNames) (next : SnapshotRun) (events : List SnapshotEvent) :
    (state.after i names next events).run i = next :=
  Function.update_self _ _ _

theorem SnapshotState.after_run_of_ne (state : SnapshotState ι) {i j : ι}
    (different : j ≠ i) (names : SnapshotNames) (next : SnapshotRun)
    (events : List SnapshotEvent) :
    (state.after i names next events).run j = state.run j :=
  Function.update_of_ne different _ _

/-- Some run performs its next operation. -/
inductive SnapshotState.Step (gate : ι → SnapshotGate) :
    SnapshotState ι → SnapshotState ι → Prop where
  | run {state : SnapshotState ι} {names : SnapshotNames} {next : SnapshotRun}
      {events : List SnapshotEvent} (i : ι) :
      (state.run i).Step (gate i) state.names names next events →
      Step gate state (state.after i names next events)

/-- Every run is about to call `create_snapshot`; the directories of earlier
runs may be there. -/
def SnapshotState.initial (names : SnapshotNames) : SnapshotState ι :=
  ⟨names, fun _ => .start, []⟩

/-- States that some interleaving reaches. -/
def SnapshotState.Reachable (gate : ι → SnapshotGate) (state : SnapshotState ι) :
    Prop :=
  ∃ names, Relation.ReflTransGen (SnapshotState.Step gate) (.initial names) state

end

/-- A run that obtained the partial directory and has not renamed it. -/
def SnapshotRun.Holds : SnapshotRun → Prop
  | .created | .finalChecked => True
  | _ => False

/-- A rename that took the final name. -/
def SnapshotEvent.isCommit : SnapshotEvent → Bool
  | .renamed .moved | .renamed .replaced => true
  | _ => false

/-- The commits of a history. -/
def commits {ι : Type} (history : List (ι × SnapshotEvent)) :
    List (ι × SnapshotEvent) :=
  history.filter fun entry => entry.2.isCommit

/-- What every interleaving keeps true. -/
structure SnapshotState.Inv {ι : Type} (state : SnapshotState ι) : Prop where
  exclusive : ∀ i j, (state.run i).Holds → (state.run j).Holds → i = j
  held : ∀ i, (state.run i).Holds → state.names.partialDir = true
  checked : ∀ i, state.run i = .finalChecked → state.names.final = false
  once : commits state.history = [] ∨
    (commits state.history).length = 1 ∧ state.names.final = true
  fresh : ∀ i, (i, .renamed .replaced) ∉ state.history

section

variable {ι : Type} [DecidableEq ι] {gate : ι → SnapshotGate}
  {state : SnapshotState ι}

omit [DecidableEq ι] in
theorem SnapshotState.Inv.initial (names : SnapshotNames) :
    (SnapshotState.initial (ι := ι) names).Inv := by
  constructor
  · intro i j holds
    exact holds.elim
  · intro i holds
    exact holds.elim
  · intro i same
    cases same
  · exact .inl rfl
  · intro i member
    cases member

theorem SnapshotState.Inv.idle (inv : state.Inv) {i : ι} {next : SnapshotRun}
    (holds : next.Holds → (state.run i).Holds)
    (checked : next = .finalChecked → state.names.final = false) :
    (state.after i state.names next []).Inv := by
  have before : ∀ j, ((state.after i state.names next []).run j).Holds →
      (state.run j).Holds := by
    intro j held
    by_cases same : j = i
    · subst same
      rw [after_run_self] at held
      exact holds held
    · rwa [after_run_of_ne _ same] at held
  have history : (state.after i state.names next []).history = state.history :=
    List.append_nil _
  constructor
  · intro j k jHolds kHolds
    exact inv.exclusive j k (before j jHolds) (before k kHolds)
  · intro j jHolds
    exact inv.held j (before j jHolds)
  · intro j atRename
    by_cases same : j = i
    · subst same
      rw [after_run_self] at atRename
      exact checked atRename
    · rw [after_run_of_ne _ same] at atRename
      exact inv.checked j atRename
  · rw [history]
    exact inv.once
  · rw [history]
    exact inv.fresh

theorem SnapshotState.Inv.mkdir (inv : state.Inv) {i : ι}
    (free : state.names.partialDir = false) :
    (state.after i { state.names with partialDir := true } .created
      [.obtained]).Inv := by
  have nobody : ∀ j, ¬ (state.run j).Holds := by
    intro j holds
    rw [inv.held j holds] at free
    cases free
  have only : ∀ j, ((state.after i { state.names with partialDir := true } .created
      [.obtained]).run j).Holds → j = i := by
    intro j holds
    by_contra different
    rw [after_run_of_ne _ different] at holds
    exact nobody j holds
  have sameCommits : commits (state.after i { state.names with partialDir := true }
      .created [.obtained]).history = commits state.history := by
    simp [SnapshotState.after, commits, SnapshotEvent.isCommit]
  constructor
  · intro j k jHolds kHolds
    rw [only j jHolds, only k kHolds]
  · intro j _
    rfl
  · intro j atRename
    by_cases same : j = i
    · subst same
      rw [after_run_self] at atRename
      cases atRename
    · rw [after_run_of_ne _ same] at atRename
      exact inv.checked j atRename
  · rw [sameCommits]
    exact inv.once
  · intro j member
    rcases List.mem_append.mp member with old | new
    · exact inv.fresh j old
    · simp at new

theorem SnapshotState.Inv.rename (inv : state.Inv) {i : ι}
    (checked : state.run i = .finalChecked) {result : RenameResult}
    {names : SnapshotNames} (renamed : Rename state.names result names)
    (succeeded : result ≠ .raised) :
    (state.after i names .committed [.renamed result]).Inv := by
  have final := inv.checked i checked
  have holds : (state.run i).Holds := by
    rw [checked]
    trivial
  have present := inv.held i holds
  have names_eq : state.names = ⟨false, true⟩ := by
    rw [← final, ← present]
  rw [names_eq] at renamed
  cases renamed
  have nobody : ∀ j, ¬ ((state.after i ⟨true, false⟩ .committed
      [.renamed .moved]).run j).Holds := by
    intro j jHolds
    by_cases same : j = i
    · subst same
      rw [after_run_self] at jHolds
      exact jHolds
    · rw [after_run_of_ne _ same] at jHolds
      exact same (inv.exclusive j i jHolds holds)
  have noCommit : commits state.history = [] := by
    rcases inv.once with none | ⟨-, taken⟩
    · exact none
    · rw [final] at taken
      cases taken
  constructor
  · intro j k jHolds
    exact (nobody j jHolds).elim
  · intro j jHolds
    exact (nobody j jHolds).elim
  · intro j atRename
    exact (nobody j (atRename ▸ trivial)).elim
  · right
    constructor
    · have appended :
          commits (state.after i ⟨true, false⟩ .committed [.renamed .moved]).history =
            commits state.history ++ [(i, .renamed .moved)] := by
        simp [SnapshotState.after, commits, SnapshotEvent.isCommit]
      rw [appended, noCommit]
      rfl
    · rfl
  · intro j member
    rcases List.mem_append.mp member with old | new
    · exact inv.fresh j old
    · simp at new

omit [DecidableEq ι] in
theorem SnapshotState.Inv.no_raise (inv : state.Inv) {i : ι}
    (checked : state.run i = .finalChecked) {names : SnapshotNames} :
    ¬ Rename state.names .raised names := by
  have final := inv.checked i checked
  have present := inv.held i (by rw [checked]; trivial)
  have names_eq : state.names = ⟨false, true⟩ := by
    rw [← final, ← present]
  intro raised
  rw [names_eq] at raised
  cases raised

theorem SnapshotState.Step.inv {state' : SnapshotState ι}
    (step : SnapshotState.Step gate state state') (inv : state.Inv) :
    state'.Inv := by
  obtain ⟨i, local_step⟩ := step
  generalize running : state.run i = before at local_step
  cases local_step with
  | dirty | targetExists | targetFree | partialExists | partialFree
  | makeParent | mkdirTaken | again =>
      exact inv.idle (fun holds => holds.elim) (fun same => by cases same)
  | mkdir free => exact inv.mkdir free
  | finalExists =>
      apply inv.idle
      · intro _
        rw [running]
        trivial
      · intro same
        cases same
  | finalFree free =>
      apply inv.idle
      · intro _
        rw [running]
        trivial
      · intro _
        exact free
  | renameRaised raised => exact (inv.no_raise running raised).elim
  | rename renamed succeeded => exact inv.rename running renamed succeeded

theorem SnapshotState.Reachable.inv (reachable : state.Reachable gate) :
    state.Inv := by
  obtain ⟨names, steps⟩ := reachable
  induction steps with
  | refl => exact .initial names
  | tail _ step ih => exact step.inv ih

/-- In every interleaving at most one run holds the partial directory, at most
one commit succeeds, and no rename takes the place of a final snapshot. -/
theorem SnapshotState.write_once (gate : ι → SnapshotGate)
    (state : SnapshotState ι) (reachable : state.Reachable gate) :
    (∀ i j, (state.run i).Holds → (state.run j).Holds → i = j) ∧
      (commits state.history).length ≤ 1 ∧
      ∀ i, (i, .renamed .replaced) ∉ state.history := by
  have inv := reachable.inv
  refine ⟨inv.exclusive, ?_, inv.fresh⟩
  rcases inv.once with none | ⟨one, -⟩
  · rw [none]
    exact Nat.zero_le 1
  · exact Nat.le_of_eq one

end

/-- The second run looks at both names, and only then the first one takes the
partial directory and commits. -/
def racedRuns : SnapshotState Bool :=
  (SnapshotState.initial ⟨false, false⟩
    |>.after true ⟨false, false⟩ .targetChecked []
    |>.after true ⟨false, false⟩ .partialChecked []
    |>.after false ⟨false, false⟩ .targetChecked []
    |>.after false ⟨false, false⟩ .partialChecked []
    |>.after false ⟨false, false⟩ .parentMade []
    |>.after false ⟨false, true⟩ .created [.obtained]
    |>.after false ⟨false, true⟩ .finalChecked []
    |>.after false ⟨true, false⟩ .committed [.renamed .moved])

theorem racedRuns_reachable : racedRuns.Reachable fun _ => ⟨false, false⟩ := by
  refine ⟨⟨false, false⟩, ?_⟩
  unfold racedRuns
  refine .tail ?_ (.run false (.rename .free (by decide)))
  refine .tail ?_ (.run false (.finalFree rfl))
  refine .tail ?_ (.run false (.mkdir rfl))
  refine .tail ?_ (.run false .makeParent)
  refine .tail ?_ (.run false (.partialFree rfl))
  refine .tail ?_ (.run false (.targetFree rfl rfl))
  refine .tail ?_ (.run true (.partialFree rfl))
  exact .single (.run true (.targetFree rfl rfl))

theorem SnapshotState.write_once_racedRuns :
    (∀ i j, (racedRuns.run i).Holds → (racedRuns.run j).Holds → i = j) ∧
      (commits racedRuns.history).length ≤ 1 ∧
      ∀ i, (i, .renamed .replaced) ∉ racedRuns.history :=
  SnapshotState.write_once _ racedRuns racedRuns_reachable

end Stoquant

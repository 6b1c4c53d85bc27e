import Stoquant.Effect.Abort

/-!
# Rules for computations that may stop with an error

What holds of the state before a computation leads to what holds after it, of the result
and the state when it ends and of the error and the state when it stops.
-/

namespace Abort

variable {σ ε ε' α β : Type}

/-- Convert the error of a computation. -/
def mapError (convert : ε → ε') (run : Run σ ε α) : Run σ ε' α :=
  ExceptT.mk fun state =>
    match exec run state with
    | (.ok result, later) => (.ok result, later)
    | (.error error, later) => (.error (convert error), later)

/-- From a state as before, the computation ends as after says or stops as failed says. -/
def Ends (before : σ → Prop) (run : Run σ ε α) (after : α → σ → Prop) (failed : ε → σ → Prop) :
    Prop :=
  ∀ state, before state →
    match exec run state with
    | (.ok result, later) => after result later
    | (.error error, later) => failed error later

section

variable {before : σ → Prop} {run : Run σ ε α} {after : α → σ → Prop} {failed : ε → σ → Prop}

theorem Ends.ok {state later : σ} {result : α} (ends : Ends before run after failed)
    (start : before state) (ran : exec run state = (.ok result, later)) : after result later := by
  have holds := ends state start
  rw [ran] at holds
  exact holds

theorem Ends.error {state later : σ} {error : ε} (ends : Ends before run after failed)
    (start : before state) (ran : exec run state = (.error error, later)) : failed error later := by
  have holds := ends state start
  rw [ran] at holds
  exact holds

theorem ends_of_cases
    (ok : ∀ state result later, before state → exec run state = (.ok result, later) →
      after result later)
    (error : ∀ state error later, before state → exec run state = (.error error, later) →
      failed error later) :
    Ends before run after failed := by
  intro state start
  cases ran : exec run state with
  | mk outcome later =>
      cases outcome with
      | ok result => exact ok state result later start ran
      | error stopped => exact error state stopped later start ran

theorem ends_pure {result : α} (holds : ∀ state, before state → after result state) :
    Ends before (pure result : Run σ ε α) after failed :=
  holds

theorem ends_throw {error : ε} (holds : ∀ state, before state → failed error state) :
    Ends before (throw error : Run σ ε α) after failed :=
  holds

theorem ends_change {f : σ → σ} {after : Unit → σ → Prop}
    (holds : ∀ state, before state → after () (f state)) :
    Ends before (change f : Run σ ε Unit) after failed :=
  holds

theorem Ends.weaken {before' : σ → Prop} {after' : α → σ → Prop} {failed' : ε → σ → Prop}
    (ends : Ends before run after failed) (start : ∀ state, before' state → before state)
    (ok : ∀ result state, after result state → after' result state)
    (error : ∀ error state, failed error state → failed' error state) :
    Ends before' run after' failed' := by
  apply ends_of_cases
  · intro state result later holds ran
    exact ok result later (ends.ok (start state holds) ran)
  · intro state stopped later holds ran
    exact error stopped later (ends.error (start state holds) ran)

/-- Only what follows the first computation needs its result. -/
theorem Ends.bind {next : α → Run σ ε β} {final : β → σ → Prop}
    (first : Ends before run after failed)
    (rest : ∀ result, Ends (after result) (next result) final failed) :
    Ends before (run >>= next) final failed := by
  intro state start
  rw [exec_bind]
  cases ran : exec run state with
  | mk outcome later =>
      cases outcome with
      | ok result => exact rest result later (first.ok start ran)
      | error stopped => exact first.error start ran

/-- A step that brings about what the rest starts from. -/
theorem Ends.then {next : α → Run σ ε β} {middle : σ → Prop} {final : β → σ → Prop}
    (first : Ends before run (fun _ => middle) failed)
    (rest : ∀ result, Ends middle (next result) final failed) :
    Ends before (run >>= next) final failed :=
  first.bind rest

theorem ends_ite {condition : Prop} [Decidable condition] {other : Run σ ε α}
    (yes : condition → Ends before run after failed)
    (no : ¬condition → Ends before other after failed) :
    Ends before (if condition then run else other) after failed := by
  split
  · exact yes ‹_›
  · exact no ‹_›

/-- A fact about results may be assumed by what follows. -/
theorem ends_assuming {fact : Prop} (ends : fact → Ends before run after failed) :
    Ends (fun state => fact ∧ before state) run after failed :=
  fun state start => ends start.1 state start.2

theorem Ends.mapError {convert : ε → ε'} {failed' : ε' → σ → Prop}
    (ends : Ends before run after failed)
    (error : ∀ error state, failed error state → failed' (convert error) state) :
    Ends before (mapError convert run) after failed' := by
  intro state start
  have whole : exec (Abort.mapError convert run) state =
      match exec run state with
      | (.ok result, later) => (.ok result, later)
      | (.error error, later) => (.error (convert error), later) := rfl
  rw [whole]
  cases ran : exec run state with
  | mk outcome later =>
      cases outcome with
      | ok result => exact ends.ok start ran
      | error stopped => exact error stopped later (ends.error start ran)

/-- A loop keeps what each round keeps. -/
theorem ends_forM {δ : Type} {items : List δ} {body : δ → Run σ ε Unit}
    (round : ∀ item ∈ items, Ends before (body item) (fun _ => before) failed) :
    Ends before (items.forM body) (fun _ => before) failed := by
  induction items with
  | nil => exact fun _ start => start
  | cons item items ih =>
      apply (round item List.mem_cons_self).then
      intro _
      exact ih fun other member => round other (List.mem_cons_of_mem _ member)

/-- After a loop that is not empty holds what its last round leaves. -/
theorem ends_forM_last {δ : Type} {items : List δ} {body : δ → Run σ ε Unit} {last : σ → Prop}
    (nonempty : items ≠ []) (round : ∀ item ∈ items, Ends before (body item) (fun _ => last) failed)
    (again : ∀ state, last state → before state) :
    Ends before (items.forM body) (fun _ => last) failed := by
  induction items with
  | nil => exact absurd rfl nonempty
  | cons item items ih =>
      apply (round item List.mem_cons_self).then
      intro _
      by_cases done : items = []
      · subst done
        exact fun _ start => start
      · refine (ih done fun other member => round other (List.mem_cons_of_mem _ member)).weaken
          again ?_ ?_
        · exact fun _ _ => id
        · exact fun _ _ => id

end

end Abort

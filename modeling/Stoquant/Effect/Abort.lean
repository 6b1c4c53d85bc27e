import Mathlib.Control.Monad.Basic

/-!
# Computations that may stop with an error

A computation over a state that may stop with an error keeps the state it had
reached.  A clean-up property says that an error leaves a clean state clean; it
follows from computations that leave the state alone and from ones that cannot
fail, and both kinds compose.
-/

namespace Abort

variable {σ ε α β : Type}

/-- A computation over a state that may stop with an error. -/
abbrev Run (σ ε : Type) := ExceptT ε (StateM σ)

/-- The result and the state at the end. -/
def exec (run : Run σ ε α) (state : σ) : Except ε α × σ := run.run.run state

/-- Continue with a pure result or stop with its error. -/
def lift (result : Except ε α) : Run σ ε α := ExceptT.mk (pure result)

/-- Change the state. -/
def change (f : σ → σ) : Run σ ε Unit := ExceptT.mk fun state => (.ok (), f state)

/-- Run, and on an error change the state before stopping with it. -/
def onError (run : Run σ ε α) (cleanUp : σ → σ) : Run σ ε α :=
  ExceptT.mk fun state =>
    match exec run state with
    | (.ok result, state) => (.ok result, state)
    | (.error error, state) => (.error error, cleanUp state)

@[simp] theorem exec_pure (result : α) (state : σ) :
    exec (pure result : Run σ ε α) state = (.ok result, state) := rfl

@[simp] theorem exec_lift (result : Except ε α) (state : σ) :
    exec (lift result) state = (result, state) := rfl

@[simp] theorem exec_change (f : σ → σ) (state : σ) :
    exec (change f : Run σ ε Unit) state = (.ok (), f state) := rfl

@[simp] theorem exec_throw (error : ε) (state : σ) :
    exec (throw error : Run σ ε α) state = (.error error, state) := rfl

theorem exec_bind (run : Run σ ε α) (next : α → Run σ ε β) (state : σ) :
    exec (run >>= next) state =
      match exec run state with
      | (.ok result, state) => exec (next result) state
      | (.error error, state) => (.error error, state) := by
  simp only [exec, ExceptT.run_bind, StateT.run_bind]
  cases ran : (run.run.run state : Except ε α × σ) with
  | mk result later =>
      cases result with
      | error error =>
          simp only [bind]
          rfl
      | ok result =>
          simp only [bind]

theorem exec_bind_ok {run : Run σ ε α} {next : α → Run σ ε β} {state later : σ} {result : α}
    (ran : exec run state = (.ok result, later)) :
    exec (run >>= next) state = exec (next result) later := by
  rw [exec_bind, ran]

theorem exec_bind_error {run : Run σ ε α} {next : α → Run σ ε β} {state later : σ} {error : ε}
    (ran : exec run state = (.error error, later)) :
    exec (run >>= next) state = (.error error, later) := by
  rw [exec_bind, ran]

/-- Without an error nothing is cleaned up. -/
theorem exec_onError_ok {run : Run σ ε α} {cleanUp : σ → σ} {state later : σ} {result : α}
    (ran : exec run state = (.ok result, later)) :
    exec (onError run cleanUp) state = (.ok result, later) := by
  have whole : exec (onError run cleanUp) state =
      match exec run state with
      | (.ok result, state) => (.ok result, state)
      | (.error error, state) => (.error error, cleanUp state) := rfl
  rw [whole, ran]

theorem lift_ok_bind (result : α) (next : α → Run σ ε β) :
    (lift (.ok result) >>= next) = next result := rfl

/-- A computation that leaves the state alone. -/
def Silent (run : Run σ ε α) : Prop := ∀ state, (exec run state).2 = state

/-- A computation that cannot fail. -/
def Total (run : Run σ ε α) : Prop := ∀ state, ∃ result, (exec run state).1 = .ok result

/-- A computation whose errors lead from a state as before to a clean one. -/
def Tidy (before clean : σ → Prop) (run : Run σ ε α) : Prop :=
  ∀ state, before state → ∀ error, (exec run state).1 = .error error → clean (exec run state).2

theorem silent_lift (result : Except ε α) : Silent (lift result : Run σ ε α) :=
  fun _ => rfl

theorem total_pure (result : α) : Total (pure result : Run σ ε α) :=
  fun _ => ⟨result, rfl⟩

theorem total_change (f : σ → σ) : Total (change f : Run σ ε Unit) :=
  fun _ => ⟨(), rfl⟩

theorem Total.bind {run : Run σ ε α} {next : α → Run σ ε β} (total : Total run)
    (later : ∀ result, Total (next result)) : Total (run >>= next) := by
  intro state
  obtain ⟨result, resultEq⟩ := total state
  rw [exec_bind_ok (Prod.ext resultEq rfl)]
  exact later result _

section Tidy

variable {before middle clean : σ → Prop} {run : Run σ ε α} {next : α → Run σ ε β}

theorem Silent.tidy (silent : Silent run) : Tidy clean clean run := by
  intro state start error _
  rw [silent state]
  exact start

theorem Total.tidy (total : Total run) : Tidy before clean run := by
  intro state _ error failed
  obtain ⟨result, resultEq⟩ := total state
  rw [resultEq] at failed
  cases failed

/-- Stopping at once leaves the state as it was. -/
theorem tidy_lift_error {error : ε} : Tidy clean clean (lift (.error error) >>= next) := by
  intro state start _ _
  rw [exec_bind_error (exec_lift _ _)]
  exact start

theorem Silent.bind_tidy (silent : Silent run)
    (later : ∀ result, Tidy clean clean (next result)) : Tidy clean clean (run >>= next) := by
  intro state start error failed
  have unchanged := silent state
  cases ran : exec run state with
  | mk result reached =>
      rw [ran] at unchanged
      obtain rfl : reached = state := unchanged
      cases result with
      | error other =>
          rw [exec_bind_error ran]
          exact start
      | ok result =>
          rw [exec_bind_ok ran] at failed ⊢
          exact later result _ start error failed

theorem Total.bind_tidy (total : Total run)
    (reaches : ∀ state, before state → middle (exec run state).2)
    (later : ∀ result, Tidy middle clean (next result)) : Tidy before clean (run >>= next) := by
  intro state start error failed
  obtain ⟨result, resultEq⟩ := total state
  have ran : exec run state = (.ok result, (exec run state).2) := Prod.ext resultEq rfl
  rw [exec_bind_ok ran] at failed ⊢
  exact later result _ (reaches state start) error failed

theorem Tidy.bind_total (tidy : Tidy before clean run) (total : ∀ result, Total (next result)) :
    Tidy before clean (run >>= next) := by
  intro state start error failed
  cases ran : exec run state with
  | mk result reached =>
      cases result with
      | error other =>
          rw [exec_bind_error ran]
          have stopped := tidy state start other
          rw [ran] at stopped
          exact stopped rfl
      | ok result =>
          rw [exec_bind_ok ran] at failed
          obtain ⟨final, finalEq⟩ := total result reached
          rw [finalEq] at failed
          cases failed

/-- A clean-up that restores a clean state makes a computation tidy. -/
theorem tidy_onError {cleanUp : σ → σ}
    (restores : ∀ state, before state → clean (cleanUp (exec run state).2)) :
    Tidy before clean (onError run cleanUp) := by
  intro state start error failed
  have restored := restores state start
  cases ran : exec run state with
  | mk result reached =>
      rw [ran] at restored
      have whole : exec (onError run cleanUp) state =
          match exec run state with
          | (.ok result, state) => (.ok result, state)
          | (.error error, state) => (.error error, cleanUp state) := rfl
      rw [whole, ran] at failed ⊢
      cases result with
      | ok result => cases failed
      | error other => exact restored

end Tidy

end Abort

import Stoquant.Par.Team

/-!
# Tasks without atomic updates

A task that absorbs nothing leaves the operands absorbed before it as they were, in every
interleaving.
-/

namespace Par

namespace Task

variable {Addr : Type} {Val : Addr → Type} {Event : Type}

/-- No run of the task performs an atomic update. -/
def Silent : Task Val Event → Prop
  | .done => True
  | .read _ next => ∀ v, (next v).Silent
  | .write _ _ next => next.Silent
  | .atomic _ _ => False
  | .seq first next => first.Silent ∧ next.Silent
  | .par _ child => ∀ i, (child i).Silent

section

variable [DecidableEq Addr] {t t' : Task Val Event} {m m' : Mem Val Event}

theorem Silent.step (step : Step t m t' m') (silent : t.Silent) :
    t'.Silent ∧ m'.log = m.log := by
  induction step with
  | read => exact ⟨silent _, rfl⟩
  | write => exact ⟨silent, rfl⟩
  | atomic => exact silent.elim
  | first _ ih =>
      obtain ⟨first, kept⟩ := ih silent.1
      exact ⟨⟨first, silent.2⟩, kept⟩
  | barrier => exact ⟨silent.2, rfl⟩
  | child i _ ih =>
      obtain ⟨moved, kept⟩ := ih (silent i)
      refine ⟨fun j => ?_, kept⟩
      by_cases same : j = i
      · subst same
        rw [Function.update_self]
        exact moved
      · rw [Function.update_of_ne same]
        exact silent j
  | join => exact ⟨trivial, rfl⟩

theorem Silent.steps (silent : t.Silent) (ran : Steps t m t' m') : m'.log = m.log := by
  induction ran with
  | refl => rfl
  | head step _ ih =>
      obtain ⟨moved, kept⟩ := silent.step step
      exact (ih moved).trans kept

end

theorem silent_forEach {ι : Type} {items : List ι} {body : ι → Task Val Event}
    (silent : ∀ i, (body i).Silent) : (forEach items body).Silent := by
  induction items with
  | nil => trivial
  | cons i items ih => exact ⟨silent i, ih⟩

theorem silent_team {ι : Type} {n : ℕ} {items : ℕ → List ι} {body : ℕ → ι → Task Val Event}
    (silent : ∀ b i, (body b i).Silent) : (team n items body).Silent :=
  fun b => silent_forEach (silent b)

end Task

end Par

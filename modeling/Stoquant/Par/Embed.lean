import Stoquant.Par.Array
import Stoquant.Par.Team
import Stoquant.Tree.Loop

/-!
# Sequential loops and parts of a memory

A sequential loop over an array has the effect of the same loop on the array's
contents.  A task over one part of a memory is also a task over the whole, with
the same effect on the part and none on the rest.
-/

namespace Par

open Loop

variable {Addr Addr' : Type} {Val : Addr' → Type} {Event : Type}

/-- The part of a memory at the addresses of an embedding. -/
def Mem.part (e : Addr → Addr') (m : Mem Val Event) : Mem (fun a => Val (e a)) Event :=
  ⟨fun a => m.cell (e a), m.log⟩

namespace Task

/-- A task over one part of a memory. -/
def embed (e : Addr → Addr') : Task (fun a => Val (e a)) Event → Task Val Event
  | .done => .done
  | .read a next => .read (e a) fun v => (next v).embed e
  | .write a v next => .write (e a) v (next.embed e)
  | .atomic x next => .atomic x (next.embed e)
  | .seq first next => .seq (first.embed e) (next.embed e)
  | .par n child => .par n fun i => (child i).embed e

theorem Within.embed {e : Addr → Addr'} {t : Task (fun a => Val (e a)) Event}
    {reads writes : Set Addr} (within : t.Within reads writes) :
    (t.embed e).Within (e '' reads) (e '' writes) := by
  induction t with
  | done => trivial
  | read a next ih =>
      exact ⟨within.1.imp (Set.mem_image_of_mem e) (Set.mem_image_of_mem e),
        fun v => ih v (within.2 v)⟩
  | write a v next ih => exact ⟨Set.mem_image_of_mem e within.1, ih within.2⟩
  | atomic x next ih => exact ih within
  | seq first next ihFirst ihNext => exact ⟨ihFirst within.1, ihNext within.2⟩
  | par n child ih => exact fun i => ih i (within i)

variable [DecidableEq Addr] [DecidableEq Addr']

section

variable {Val₁ : Addr → Type} {view : Mem Val₁ Event → Mem Val Event} {ι : Type}

theorem eval_forEach_view {items : List ι} {body₁ : ι → Task Val₁ Event}
    {body : ι → Task Val Event}
    (each : ∀ i m, (body i).eval (view m) = view ((body₁ i).eval m))
    (m : Mem Val₁ Event) :
    (forEach items body).eval (view m) = view ((forEach items body₁).eval m) := by
  rw [eval_forEach, eval_forEach]
  exact List.foldl_hom view fun m i => each i m

/-- Bodies that correspond under a view of memory make teams that do. -/
theorem eval_team_view {n : ℕ} {items : ℕ → List ι} {body₁ : ℕ → ι → Task Val₁ Event}
    {body : ℕ → ι → Task Val Event}
    (each : ∀ t i m, (body t i).eval (view m) = view ((body₁ t i).eval m))
    (m : Mem Val₁ Event) :
    (team n items body).eval (view m) = view ((team n items body₁).eval m) := by
  rw [team, team, eval_threads, eval_threads]
  exact List.foldl_hom view fun m t => eval_forEach_view (each t) m

end

theorem part_set {e : Addr → Addr'} (injective : Function.Injective e) (m : Mem Val Event)
    (a : Addr) (v : Val (e a)) : (m.set (e a) v).part e = (m.part e).set a v := by
  apply Mem.ext
  · funext b
    by_cases same : b = a
    · subst same
      simp [Mem.part, Mem.set]
    · have different : e b ≠ e a := fun equal => same (injective equal)
      simp [Mem.part, Mem.set, Function.update_of_ne same,
        Function.update_of_ne different]
  · rfl

/-- An embedded task does to its part what the task does. -/
theorem eval_embed {e : Addr → Addr'} (injective : Function.Injective e)
    (t : Task (fun a => Val (e a)) Event) (m : Mem Val Event) :
    ((t.embed e).eval m).part e = t.eval (m.part e) := by
  induction t generalizing m with
  | done => rfl
  | read a next ih => exact ih _ m
  | write a v next ih =>
      rw [Task.embed, eval, eval, ih, part_set injective]
  | atomic x next ih => exact ih (m.absorb x)
  | seq first next ihFirst ihNext =>
      rw [Task.embed, eval, eval, ihNext, ihFirst]
  | par n child ih =>
      rw [Task.embed, eval, eval]
      generalize List.finRange n = members
      induction members generalizing m with
      | nil => rfl
      | cons i members rest =>
          rw [List.foldl_cons, List.foldl_cons, rest, ih]

variable {α : Type}

/-- A loop whose bodies have an effect on the array has the effect of the loop. -/
theorem forEach_cell {ι : Type} {items : List ι} {body : ι → ArrayTask α Event}
    {effect : (ℕ → α) → ι → ℕ → α}
    (each : ∀ i m, ((body i).eval m).cell = effect m.cell i)
    (m : Mem (fun _ : ℕ => α) Event) :
    ((forEach items body).eval m).cell = items.foldl effect m.cell := by
  rw [eval_forEach]
  exact (List.foldl_hom Mem.cell fun m i => (each i m).symm).symm

/-- A counted loop of tasks. -/
theorem forEach_range_cell {n : ℕ} {body : ℕ → ArrayTask α Event}
    {effect : ℕ → (ℕ → α) → ℕ → α}
    (each : ∀ i m, ((body i).eval m).cell = effect i m.cell)
    (m : Mem (fun _ : ℕ => α) Event) :
    ((forEach (List.range n) body).eval m).cell = upTo n effect m.cell := by
  rw [upTo_eq_foldl]
  exact forEach_cell each m

/-- A run of stores depends on the values it stores. -/
theorem storeRun_congr {first length : ℕ} {value value' : ℕ → α}
    (same : ∀ k < length, value k = value' k) :
    (storeRun first length value : ArrayTask α Event) = storeRun first length value' := by
  apply List.foldr_ext
  intro k member rest
  simp only [same k (List.mem_range.mp member)]

/-- A run of stores from the start of an array is a counted loop. -/
theorem storeRun_zero_cell (n : ℕ) (value : ℕ → α) (m : Mem (fun _ : ℕ => α) Event) :
    ((storeRun 0 n value).eval m).cell =
      upTo n (fun i array => Function.update array i (value i)) m.cell := by
  apply forEach_range_cell
  intro i m
  rw [Nat.zero_add]
  rfl

end Task

end Par

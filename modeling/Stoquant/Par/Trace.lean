import Stoquant.Par.Array

/-!
# The accesses of a task

The cells that a task loads from and stores to, in the order in which it does so
when its concurrent parts run one after the other.  Coverage statements count
accesses, which a bound on the touched cells cannot do.
-/

namespace Par

/-- One access to memory. -/
inductive Access (Addr : Type) where
  | load (a : Addr)
  | store (a : Addr)
  deriving DecidableEq

variable {Addr : Type} {Val : Addr → Type} {Event : Type}

namespace Task

variable [DecidableEq Addr]

/-- The accesses of a task that starts in a memory. -/
def trace : Task Val Event → Mem Val Event → List (Access Addr)
  | .done, _ => []
  | .read a next, m => .load a :: (next (m.cell a)).trace m
  | .write a v next, m => .store a :: next.trace (m.set a v)
  | .atomic x next, m => next.trace (m.absorb x)
  | .seq first next, m => first.trace m ++ next.trace (first.eval m)
  | .par n child, m =>
      ((List.finRange n).foldl
        (fun (so, m) i => (so ++ (child i).trace m, (child i).eval m)) ([], m)).1

/-- A task whose accesses do not depend on the memory. -/
def Accesses (t : Task Val Event) (accesses : List (Access Addr)) : Prop :=
  ∀ m, t.trace m = accesses

theorem accesses_done : (.done : Task Val Event).Accesses [] := fun _ => rfl

theorem Accesses.write {a : Addr} {v : Val a} {next : Task Val Event}
    {rest : List (Access Addr)} (tail : next.Accesses rest) :
    (Task.write a v next).Accesses (.store a :: rest) :=
  fun _ => congrArg _ (tail _)

theorem Accesses.seq {first next : Task Val Event} {before after : List (Access Addr)}
    (head : first.Accesses before) (tail : next.Accesses after) :
    (Task.seq first next).Accesses (before ++ after) := by
  intro m
  rw [trace, head, tail]

theorem accesses_forEach {ι : Type} {items : List ι} {body : ι → Task Val Event}
    {each : ι → List (Access Addr)} (bodies : ∀ i ∈ items, (body i).Accesses (each i)) :
    (forEach items body).Accesses (items.flatMap each) := by
  induction items with
  | nil => exact accesses_done
  | cons i items ih =>
      rw [List.flatMap_cons]
      apply Accesses.seq
      · exact bodies i List.mem_cons_self
      · exact ih fun j member => bodies j (List.mem_cons_of_mem i member)

end Task

section

variable {α : Type}

theorem Task.accesses_storeRun (first length : ℕ) (value : ℕ → α) :
    (storeRun first length value : ArrayTask α Event).Accesses
      ((List.range' first length).map .store) := by
  have singles : ∀ k ∈ List.range length,
      (Task.write (first + k) (value k) .done : ArrayTask α Event).Accesses
        [.store (first + k)] := fun _ _ => accesses_done.write
  have run : (List.range' first length).map Access.store =
      (List.range length).flatMap fun k => [.store (first + k)] := by
    rw [List.range'_eq_map_range, List.map_map, ← List.map_eq_flatMap]
    rfl
  rw [run]
  exact accesses_forEach singles

end

end Par

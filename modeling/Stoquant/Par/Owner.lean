import Stoquant.Par.Embed

/-!
# Cells with owners

Threads that write cells of their own and read, beside them, only cells that nobody owns
have no races, and an owned cell holds what its owner leaves there when run alone.  A task
over a part of a memory has no races in the whole.
-/

namespace Par

namespace Task

variable {Addr : Type} {Val : Addr → Type} {Event : Type}

/-- The cells of an owner. -/
def owned (owner : Addr → Option ℕ) (i : ℕ) : Set Addr := { a | owner a = some i }

/-- The cells that nobody owns. -/
def unowned (owner : Addr → Option ℕ) : Set Addr := { a | owner a = none }

theorem separated_owned (owner : Addr → Option ℕ) :
    Separated (fun _ : ℕ => unowned owner) (owned owner) := by
  intro i j different a member
  have own : owner a = some i := member
  constructor
  · intro none
    exact absurd (own.symm.trans none) (Option.some_ne_none i)
  · intro other
    exact different (Option.some.inj (own.symm.trans other))

section

variable {n : ℕ} {thread : ℕ → Task Val Event} {owner : Addr → Option ℕ}
  (within : ∀ i < n, (thread i).Within (unowned owner) (owned owner i))

include within

theorem raceFree_owned (free : ∀ i < n, (thread i).RaceFree) : (threads n thread).RaceFree :=
  raceFree_threads _ _ within (separated_owned owner) free

variable [DecidableEq Addr]

/-- An owned cell holds what its owner leaves there. -/
theorem eval_owned {i : ℕ} (below : i < n) {a : Addr} (own : owner a = some i)
    (m : Mem Val Event) : ((threads n thread).eval m).cell a = ((thread i).eval m).cell a :=
  threads_cell within (separated_owned owner) below own m

/-- A cell that none of the threads owns is as before. -/
theorem eval_notOwned {a : Addr} (other : ∀ i < n, owner a ≠ some i) (m : Mem Val Event) :
    ((threads n thread).eval m).cell a = m.cell a :=
  threads_frame within other m

end

section

variable {ι : Type} {n : ℕ} {items : ℕ → List ι} {body : ℕ → ι → Task Val Event}
  {inputs : Set Addr} {outputs : ι → Set Addr} {scratch : ℕ → Set Addr} [DecidableEq Addr]

/-- The outputs of an item are what it leaves there when run from some memory with the
inputs of the team. -/
theorem Team.item (team : Team n items body inputs outputs scratch) {b : ℕ} (bound : b < n)
    {i : ι} (member : i ∈ items b) (m : Mem Val Event) :
    ∃ k : Mem Val Event, (∀ a ∈ inputs, k.cell a = m.cell a) ∧
      ∀ a ∈ outputs i, ((Task.team n items body).eval m).cell a = ((body b i).eval k).cell a := by
  obtain ⟨before, after, split⟩ := List.append_of_mem member
  have nodup := team.nodup b bound
  have subset : ∀ j, j ∈ before ∨ j = i ∨ j ∈ after → j ∈ items b := by
    intro j part
    rw [split]
    simpa using part
  rw [split, List.nodup_append] at nodup
  have notAfter : i ∉ after := (List.nodup_cons.mp nodup.2.1).1
  refine ⟨before.foldl (fun m i => (body b i).eval m) m, ?_, ?_⟩
  · intro a input
    exact team.foldl_inputs bound (fun j inBefore => subset j (.inl inBefore)) input m
  · intro a output
    have written : a ∈ Team.writes n items outputs scratch b := .inl ⟨i, ⟨bound, member⟩, output⟩
    rw [Task.team, threads_cell (fun c bound => team.within_member bound) team.separated bound
      written, eval_forEach, split, List.foldl_append, List.foldl_cons]
    apply foldl_frame fun j inAfter => team.within b bound j (subset j (.inr (.inr inAfter)))
    rintro j inAfter (output' | private_)
    · have different : i ≠ j := fun same => notAfter (same ▸ inAfter)
      exact team.outputs_apart i j different a output output'
    · exact team.scratch_private i b a output private_

end

theorem RaceFree.embed {Addr' : Type} {Val : Addr' → Type} {e : Addr → Addr'}
    (injective : Function.Injective e) {t : Task (fun a => Val (e a)) Event}
    (free : t.RaceFree) : (t.embed e).RaceFree := by
  induction t with
  | done => trivial
  | read a next ih => exact fun v => ih v (free v)
  | write a v next ih => exact ih free
  | atomic x next ih => exact ih free
  | seq first next ihFirst ihNext => exact ⟨ihFirst free.1, ihNext free.2⟩
  | par n child ih =>
      obtain ⟨members, reads, writes, within, separated⟩ := free
      refine ⟨fun i => ih i (members i), fun i => e '' reads i, fun i => e '' writes i,
        fun i => (within i).embed, ?_⟩
      rintro i j different _ ⟨a, member, rfl⟩
      obtain ⟨notRead, notWritten⟩ := separated i j different a member
      rw [injective.mem_set_image, injective.mem_set_image]
      exact ⟨notRead, notWritten⟩

end Task

end Par

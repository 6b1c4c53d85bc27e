import Stoquant.Par.Phases
import Stoquant.Par.Trace
import Mathlib.Algebra.BigOperators.Group.Finset.Basic

/-!
# Counting accesses

How often a task performs an access, when this does not depend on the memory.  The
counts of concurrent parts add up, and a team that shares out indices performs the
accesses of each index once.
-/

namespace Par


variable {Addr : Type} {Val : Addr → Type} {Event : Type} [DecidableEq Addr]

namespace Task

/-- A task that performs an access a number of times, whatever the memory holds. -/
def Performs (t : Task Val Event) (x : Access Addr) (n : ℕ) : Prop :=
  ∀ m, (t.trace m).count x = n

variable {x : Access Addr}

theorem performs_done : (.done : Task Val Event).Performs x 0 := fun _ => rfl

theorem Performs.read {a : Addr} {next : Val a → Task Val Event} {n : ℕ}
    (tail : ∀ v, (next v).Performs x n) :
    (Task.read a next).Performs x (n + if .load a = x then 1 else 0) := by
  intro m
  rw [trace, List.count_cons, tail]
  simp

theorem Performs.write {a : Addr} {v : Val a} {next : Task Val Event} {n : ℕ}
    (tail : next.Performs x n) :
    (Task.write a v next).Performs x (n + if .store a = x then 1 else 0) := by
  intro m
  rw [trace, List.count_cons, tail]
  simp

theorem Performs.read_store {a b : Addr} {next : Val b → Task Val Event} {n : ℕ}
    (tail : ∀ v, (next v).Performs (.store a) n) : (Task.read b next).Performs (.store a) n := by
  have whole := Performs.read tail
  rwa [if_neg (by simp)] at whole

theorem Performs.read_load {a b : Addr} {next : Val b → Task Val Event} {n : ℕ}
    (tail : ∀ v, (next v).Performs (.load a) n) :
    (Task.read b next).Performs (.load a) (n + if b = a then 1 else 0) := by
  have whole := Performs.read tail
  simpa using whole

theorem performs_write_load {a b : Addr} {v : Val b} :
    (Task.write b v (.done : Task Val Event)).Performs (.load a) 0 := by
  intro m
  rw [trace, trace, List.count_cons, List.count_nil]
  simp

/-- The last store. -/
theorem performs_write {a b : Addr} {v : Val b} :
    (Task.write b v (.done : Task Val Event)).Performs (.store a) (if b = a then 1 else 0) := by
  intro m
  rw [trace, trace, List.count_cons, List.count_nil]
  simp

theorem Performs.seq {first next : Task Val Event} {n k : ℕ} (head : first.Performs x n)
    (tail : next.Performs x k) : (Task.seq first next).Performs x (n + k) := by
  intro m
  rw [trace, List.count_append, head, tail]

theorem Performs.seq_left {first next : Task Val Event} {n : ℕ} (head : first.Performs x n)
    (tail : next.Performs x 0) : (Task.seq first next).Performs x n :=
  head.seq tail

theorem Performs.seq_right {first next : Task Val Event} {n : ℕ} (head : first.Performs x 0)
    (tail : next.Performs x n) : (Task.seq first next).Performs x n := by
  have whole := head.seq tail
  rwa [Nat.zero_add] at whole

theorem performs_forEach {ι : Type} {items : List ι} {body : ι → Task Val Event} {n : ι → ℕ}
    (bodies : ∀ i ∈ items, (body i).Performs x (n i)) :
    (forEach items body).Performs x (items.map n).sum := by
  induction items with
  | nil => exact performs_done
  | cons i items ih =>
      rw [List.map_cons, List.sum_cons]
      apply Performs.seq
      · exact bodies i List.mem_cons_self
      · exact ih fun j member => bodies j (List.mem_cons_of_mem i member)

theorem count_foldl_trace {n : ℕ} {child : Fin n → Task Val Event} {c : Fin n → ℕ}
    (bodies : ∀ i, (child i).Performs x (c i)) (members : List (Fin n))
    (before : List (Access Addr)) (m : Mem Val Event) :
    ((members.foldl (fun (so, m) i => (so ++ (child i).trace m, (child i).eval m))
      (before, m)).1).count x = before.count x + (members.map c).sum := by
  induction members generalizing before m with
  | nil => simp
  | cons i members ih =>
      rw [List.foldl_cons, ih, List.count_append, bodies i m, List.map_cons, List.sum_cons,
        Nat.add_assoc]

theorem performs_threads {n : ℕ} {thread : ℕ → Task Val Event} {c : ℕ → ℕ}
    (bodies : ∀ i < n, (thread i).Performs x (c i)) :
    (threads n thread).Performs x (∑ i ∈ Finset.range n, c i) := by
  intro m
  have counted := count_foldl_trace (fun i : Fin n => bodies i i.isLt) (List.finRange n) [] m
  have values : ((List.finRange n).map fun i : Fin n => c i).sum = ∑ i ∈ Finset.range n, c i := by
    rw [Finset.sum_range, ← List.sum_ofFn, List.ofFn_eq_map]
  rw [values, List.count_nil, Nat.zero_add] at counted
  exact counted

theorem performs_of_within {t : Task Val Event} {reads writes : Set Addr}
    (within : t.Within reads writes) (notLoad : ∀ a, a ∈ reads ∨ a ∈ writes → .load a ≠ x)
    (notStore : ∀ a ∈ writes, .store a ≠ x) : t.Performs x 0 := by
  induction t with
  | done => exact performs_done
  | read b next ih =>
      have tail := Performs.read fun v => ih v (within.2 v)
      rwa [if_neg (notLoad b within.1)] at tail
  | write b v next ih =>
      have tail := Performs.write (v := v) (ih within.2)
      rwa [if_neg (notStore b within.1)] at tail
  | atomic y next ih => exact fun m => ih within (m.absorb y)
  | seq first next ihFirst ihNext => exact (ihFirst within.1).seq (ihNext within.2)
  | par n child ih =>
      intro m
      rw [trace, count_foldl_trace fun i => ih i (within i)]
      simp

theorem performs_load_of_within {t : Task Val Event} {reads writes : Set Addr}
    (within : t.Within reads writes) {a : Addr} (notRead : a ∉ reads) (notWritten : a ∉ writes) :
    t.Performs (.load a) 0 := by
  apply performs_of_within within
  · rintro _ touched ⟨⟩
    exact touched.elim notRead notWritten
  · rintro _ _ ⟨⟩

theorem performs_store_of_within {t : Task Val Event} {reads writes : Set Addr}
    (within : t.Within reads writes) {a : Addr} (notWritten : a ∉ writes) :
    t.Performs (.store a) 0 := by
  apply performs_of_within within
  · rintro _ _ ⟨⟩
  · rintro _ written ⟨⟩
    exact notWritten written

/-- The threads among which indices are shared hold each index once. -/
theorem shares_count {n bound : ℕ} {items : ℕ → List ℕ} (shares : Shares n items bound)
    (i : ℕ) : ∑ t ∈ Finset.range n, (items t).count i = if i < bound then 1 else 0 := by
  split_ifs with inside
  · obtain ⟨t, below, member⟩ := (shares.cover i).mp inside
    rw [Finset.sum_eq_single_of_mem t (Finset.mem_range.mpr below)]
    · exact List.count_eq_one_of_mem (shares.nodup t below) member
    · intro u uBelow different
      apply List.count_eq_zero_of_not_mem
      exact shares.disjoint t below u (Finset.mem_range.mp uBelow) different.symm i member
  · apply Finset.sum_eq_zero
    intro t below
    apply List.count_eq_zero_of_not_mem
    intro member
    exact inside ((shares.cover i).mpr ⟨t, Finset.mem_range.mp below, member⟩)

theorem sum_map_owner (items : List ℕ) (owner c : ℕ) :
    (items.map fun i => if i = owner then c else 0).sum = items.count owner * c := by
  induction items with
  | nil => simp
  | cons i items ih =>
      rw [List.map_cons, List.sum_cons, ih, List.count_cons]
      by_cases same : i = owner
      · simp [same]
        ring
      · simp [same]

/-- A team performs an access as often as the index that owns it does. -/
theorem performs_team {n bound : ℕ} {items : ℕ → List ℕ} (shares : Shares n items bound)
    {body : ℕ → ℕ → Task Val Event} {owner c : ℕ}
    (bodies : ∀ t < n, ∀ i ∈ items t, (body t i).Performs x (if i = owner then c else 0)) :
    (team n items body).Performs x (if owner < bound then c else 0) := by
  have members := performs_threads fun t below => performs_forEach (bodies t below)
  have total : ∑ t ∈ Finset.range n, ((items t).map fun i => if i = owner then c else 0).sum =
      if owner < bound then c else 0 := by
    calc
      ∑ t ∈ Finset.range n, ((items t).map fun i => if i = owner then c else 0).sum =
          ∑ t ∈ Finset.range n, (items t).count owner * c :=
        Finset.sum_congr rfl fun t _ => sum_map_owner (items t) owner c
      _ = (if owner < bound then 1 else 0) * c := by
        rw [← Finset.sum_mul, shares_count shares]
      _ = if owner < bound then c else 0 := by
        split_ifs <;> simp
  rwa [total] at members

section

variable {α : Type} {op : α → α → α} {cell : Bool → ℕ → Addr} {a : Addr}

theorem performs_phases (apart : ∀ side k, a ≠ cell side k) (n : ℕ) (list : List Phase)
    (source : Bool) {next : Bool → Task (fun _ : Addr => α) Event} {c : ℕ}
    (tail : ∀ side, (next side).Performs (.store a) c) :
    (phases op cell n list source next).Performs (.store a) c := by
  induction list generalizing source with
  | nil => exact tail source
  | cons phase rest ih =>
      let level : Task (fun _ : Addr => α) Event :=
        team n phase.items fun _ => combine op cell source phase.left phase.right
      have footprint : level.Within ∅ { b | ∃ side k, b = cell side k } := by
        apply within_team
        intro _ k
        exact ⟨.inr ⟨_, _, rfl⟩, fun _ => ⟨.inr ⟨_, _, rfl⟩, fun _ => ⟨⟨_, _, rfl⟩, trivial⟩⟩⟩
      have own : level.Performs (.store a) 0 := by
        apply performs_store_of_within footprint
        rintro ⟨side, k, same⟩
        exact apart side k same
      exact own.seq_right (ih (!source))

/-- The result of a reduction is stored once. -/
theorem performs_reduceInto (apart : ∀ side k, a ≠ cell side k) (n : ℕ)
    {load : Task (fun _ : Addr => α) Event} (loads : load.Performs (.store a) 0)
    (list : List Phase) (out : Addr) :
    (reduceInto op cell n load list out).Performs (.store a) (if out = a then 1 else 0) := by
  let result : Bool → Task (fun _ : Addr => α) Event := fun final =>
    .read (cell final 0) fun value => .write out value .done
  have stored : ∀ side, (result side).Performs (.store a) (if out = a then 1 else 0) :=
    fun _ => Performs.read_store fun _ => performs_write
  exact loads.seq_right (performs_phases apart n list false stored)

end

end Task

/-- A sum over rows is a sum over all cells. -/
theorem sum_range_rows (f : ℕ → ℕ) (rows columns : ℕ) :
    ∑ i ∈ Finset.range rows, ∑ j ∈ Finset.range columns, f (i * columns + j) =
      ∑ t ∈ Finset.range (rows * columns), f t := by
  induction rows with
  | zero => simp
  | succ rows ih => rw [Finset.sum_range_succ, ih, Nat.succ_mul, Finset.sum_range_add]

end Par

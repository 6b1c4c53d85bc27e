import Stoquant.Par.Task

/-!
# Rules for groups of tasks

Groups whose members write separate cells are evaluated cell by cell: a cell
holds what its one writer leaves there when run alone.  The rules below say so
for sequences, parallel groups, grid-stride loops over work items, and blocks
that reuse private scratch cells from one work item to the next.
-/

namespace Par

variable {Addr : Type} {Val : Addr → Type} {Event : Type}

namespace Task

/-- One thread performing the bodies of its items in order. -/
def forEach {ι : Type} (items : List ι) (body : ι → Task Val Event) :
    Task Val Event :=
  items.foldr (fun i rest => .seq (body i) rest) .done

/-- A group of `n` threads indexed by natural numbers. -/
def threads (n : ℕ) (thread : ℕ → Task Val Event) : Task Val Event :=
  .par n fun i => thread i

/-- The cells of all items of a set. -/
def gather {ι : Type} (items : Set ι) (cells : ι → Set Addr) : Set Addr :=
  { a | ∃ i ∈ items, a ∈ cells i }

theorem within_forEach {ι : Type} {items : List ι} {body : ι → Task Val Event}
    {reads writes : Set Addr}
    (within : ∀ i ∈ items, (body i).Within reads writes) :
    (forEach items body).Within reads writes := by
  induction items with
  | nil => trivial
  | cons i items ih =>
      exact ⟨within i List.mem_cons_self,
        ih fun j member => within j (List.mem_cons_of_mem i member)⟩

variable [DecidableEq Addr]

omit [DecidableEq Addr] in
theorem raceFree_forEach {ι : Type} {items : List ι}
    {body : ι → Task Val Event} (free : ∀ i ∈ items, (body i).RaceFree) :
    (forEach items body).RaceFree := by
  induction items with
  | nil => trivial
  | cons i items ih =>
      exact ⟨free i List.mem_cons_self,
        ih fun j member => free j (List.mem_cons_of_mem i member)⟩

omit [DecidableEq Addr] in
theorem raceFree_threads {n : ℕ} {thread : ℕ → Task Val Event}
    (reads writes : ℕ → Set Addr)
    (within : ∀ i < n, (thread i).Within (reads i) (writes i))
    (separated : Separated reads writes)
    (free : ∀ i < n, (thread i).RaceFree) : (threads n thread).RaceFree := by
  refine ⟨fun i => free i i.isLt, fun i => reads i, fun i => writes i,
    fun i => within i i.isLt, ?_⟩
  intro i j different
  exact separated i j fun same => different (Fin.ext same)

theorem eval_forEach {ι : Type} (items : List ι) (body : ι → Task Val Event)
    (m : Mem Val Event) :
    (forEach items body).eval m =
      items.foldl (fun m i => (body i).eval m) m := by
  induction items generalizing m with
  | nil => rfl
  | cons i items ih => exact ih _

theorem eval_threads (n : ℕ) (thread : ℕ → Task Val Event)
    (m : Mem Val Event) :
    (threads n thread).eval m =
      (List.range n).foldl (fun m i => (thread i).eval m) m := by
  have : List.range n = (List.finRange n).map Fin.val := by
    simp
  rw [this, List.foldl_map]
  rfl

section

variable {ι : Type} {body : ι → Task Val Event} {items : List ι}
  {reads writes : ι → Set Addr}

/-- A cell that no item writes is unchanged. -/
theorem foldl_frame (within : ∀ i ∈ items, (body i).Within (reads i) (writes i))
    {a : Addr} (outside : ∀ i ∈ items, a ∉ writes i) (m : Mem Val Event) :
    (items.foldl (fun m i => (body i).eval m) m).cell a = m.cell a := by
  induction items generalizing m with
  | nil => rfl
  | cons i items ih =>
      rw [List.foldl_cons, ih
        (fun j member => within j (List.mem_cons_of_mem i member))
        (fun j member => outside j (List.mem_cons_of_mem i member)),
        eval_frame (within i List.mem_cons_self) (outside i List.mem_cons_self)]

theorem foldl_agree (within : ∀ i ∈ items, (body i).Within (reads i) (writes i))
    (separated : Separated reads writes) {i : ι} (absent : i ∉ items)
    (m : Mem Val Event) :
    ∀ a ∈ reads i ∪ writes i,
      (items.foldl (fun m i => (body i).eval m) m).cell a = m.cell a := by
  intro a member
  refine foldl_frame within ?_ m
  intro j jMember written
  have different : j ≠ i := fun same => absent (same ▸ jMember)
  exact member.elim (separated j i different a written).1
    (separated j i different a written).2

/-- A cell holds what its one writer leaves there when run alone. -/
theorem foldl_cell (within : ∀ i ∈ items, (body i).Within (reads i) (writes i))
    (separated : Separated reads writes) (nodup : items.Nodup)
    {i : ι} (member : i ∈ items) {a : Addr} (written : a ∈ writes i)
    (m : Mem Val Event) :
    (items.foldl (fun m i => (body i).eval m) m).cell a =
      ((body i).eval m).cell a := by
  obtain ⟨before, after, rfl⟩ := List.append_of_mem member
  rw [List.nodup_append] at nodup
  obtain ⟨-, nodupAfter, apart⟩ := nodup
  have notBefore : i ∉ before := fun inBefore =>
    apart i inBefore i List.mem_cons_self rfl
  have notAfter : i ∉ after := (List.nodup_cons.mp nodupAfter).1
  rw [List.foldl_append, List.foldl_cons,
    foldl_agree (fun j inAfter => within j (by simp [inAfter])) separated
      notAfter _ a (.inr written)]
  have agree := foldl_agree
    (fun (j : ι) (inBefore : j ∈ before) => within j (by simp [inBefore]))
    separated notBefore m
  exact (eval_congr (within i (by simp)) agree).1 a (.inr written)

/-- The operands a task absorbs when run from a memory. -/
def events (t : Task Val Event) (m : Mem Val Event) : Multiset Event :=
  (t.eval { m with log := 0 }).log

theorem eval_log (t : Task Val Event) (m : Mem Val Event) :
    (t.eval m).log = t.events m + m.log := by
  have whole : t.Within Set.univ Set.univ := by
    induction t with
    | done => trivial
    | read a next ih => exact ⟨.inl trivial, ih⟩
    | write a v next ih => exact ⟨trivial, ih⟩
    | atomic x next ih => exact ih
    | seq first next ihFirst ihNext => exact ⟨ihFirst, ihNext⟩
    | par n child ih => exact ih
  obtain ⟨-, absorbed, left, right⟩ :=
    eval_congr whole (m := m) (k := { m with log := 0 }) (fun _ _ => rfl)
  rw [events, left, right]
  simp

theorem events_congr {t : Task Val Event} {reads writes : Set Addr}
    (within : t.Within reads writes) {m k : Mem Val Event}
    (agree : ∀ a ∈ reads ∪ writes, m.cell a = k.cell a) :
    t.events m = t.events k := by
  obtain ⟨-, absorbed, left, right⟩ :=
    eval_congr within (m := { m with log := 0 }) (k := { k with log := 0 }) agree
  rw [events, events, left, right]

/-- The operands a group absorbs are those its members absorb alone. -/
theorem foldl_log (within : ∀ i ∈ items, (body i).Within (reads i) (writes i))
    (separated : Separated reads writes) (nodup : items.Nodup)
    (m : Mem Val Event) :
    (items.foldl (fun m i => (body i).eval m) m).log =
      (items.map fun i => (body i).events m).sum + m.log := by
  induction items generalizing m with
  | nil => simp
  | cons i items ih =>
      obtain ⟨absent, nodupRest⟩ := List.nodup_cons.mp nodup
      have withinRest : ∀ j ∈ items, (body j).Within (reads j) (writes j) :=
        fun j member => within j (List.mem_cons_of_mem i member)
      have unchanged : items.map (fun j => (body j).events ((body i).eval m)) =
          items.map fun j => (body j).events m := by
        apply List.map_congr_left
        intro j member
        have different : i ≠ j := fun same => absent (same ▸ member)
        refine events_congr (withinRest j member) ?_
        intro a touched
        refine eval_frame (within i List.mem_cons_self) ?_ m
        intro written
        exact touched.elim (separated i j different a written).1
          (separated i j different a written).2
      rw [List.foldl_cons, ih withinRest nodupRest, unchanged, eval_log,
        List.map_cons, List.sum_cons]
      abel

end

section

variable {n : ℕ} {thread : ℕ → Task Val Event} {reads writes : ℕ → Set Addr}

theorem threads_cell
    (within : ∀ i < n, (thread i).Within (reads i) (writes i))
    (separated : Separated reads writes) {i : ℕ} (bound : i < n) {a : Addr}
    (written : a ∈ writes i) (m : Mem Val Event) :
    ((threads n thread).eval m).cell a = ((thread i).eval m).cell a := by
  rw [eval_threads]
  exact foldl_cell (fun j member => within j (List.mem_range.mp member))
    separated List.nodup_range (List.mem_range.mpr bound) written m

theorem threads_frame
    (within : ∀ i < n, (thread i).Within (reads i) (writes i)) {a : Addr}
    (outside : ∀ i < n, a ∉ writes i) (m : Mem Val Event) :
    ((threads n thread).eval m).cell a = m.cell a := by
  rw [eval_threads]
  exact foldl_frame (fun j member => within j (List.mem_range.mp member))
    (fun j member => outside j (List.mem_range.mp member)) m

theorem threads_log
    (within : ∀ i < n, (thread i).Within (reads i) (writes i))
    (separated : Separated reads writes) (m : Mem Val Event) :
    ((threads n thread).eval m).log =
      ((List.range n).map fun i => (thread i).events m).sum + m.log := by
  rw [eval_threads]
  exact foldl_log (fun j member => within j (List.mem_range.mp member))
    separated List.nodup_range m

omit [DecidableEq Addr] in
theorem within_threads {reads writes : Set Addr}
    (within : ∀ i < n, (thread i).Within reads writes) :
    (threads n thread).Within reads writes := fun i => within i i.isLt

end

end Task

/-- The indices `first, first + stride, ...` below a bound. -/
def strided (first stride bound : ℕ) : List ℕ :=
  if first < bound ∧ 0 < stride then
    first :: strided (first + stride) stride bound
  else []
termination_by bound - first

theorem mem_strided {first stride bound i : ℕ} (pos : 0 < stride) :
    i ∈ strided first stride bound ↔
      i < bound ∧ ∃ k, i = first + k * stride := by
  fun_induction strided first stride bound with
  | case1 first more ih =>
      rw [List.mem_cons, ih]
      constructor
      · rintro (rfl | ⟨below, k, rfl⟩)
        · exact ⟨more.1, 0, by simp⟩
        · exact ⟨below, k + 1, by ring⟩
      · rintro ⟨below, k, rfl⟩
        cases k with
        | zero => exact .inl (by simp)
        | succ k => exact .inr ⟨below, k, by ring⟩
  | case2 first stop =>
      simp only [List.not_mem_nil, false_iff]
      rintro ⟨below, k, rfl⟩
      exact stop ⟨by omega, pos⟩

theorem strided_nodup (first stride bound : ℕ) :
    (strided first stride bound).Nodup := by
  fun_induction strided first stride bound with
  | case1 first more ih =>
      refine List.nodup_cons.mpr ⟨?_, ih⟩
      rw [mem_strided more.2]
      rintro ⟨-, k, same⟩
      have := more.2
      omega
  | case2 => exact List.nodup_nil

/-- Every index below the bound belongs to exactly one first index. -/
theorem mem_strided_iff {first stride bound i : ℕ} (firstLt : first < stride) :
    i ∈ strided first stride bound ↔ i < bound ∧ i % stride = first := by
  have pos : 0 < stride := by omega
  rw [mem_strided pos]
  refine and_congr_right fun _ => ?_
  constructor
  · rintro ⟨k, rfl⟩
    rw [Nat.add_mul_mod_self_right, Nat.mod_eq_of_lt firstLt]
  · intro residue
    refine ⟨i / stride, ?_⟩
    rw [← residue, Nat.mul_comm]
    exact (Nat.mod_add_div i stride).symm

end Par

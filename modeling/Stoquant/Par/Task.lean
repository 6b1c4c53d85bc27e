import Mathlib.Data.Multiset.AddSub
import Mathlib.Data.Set.Lattice
import Mathlib.Data.List.FinRange
import Mathlib.Logic.Function.Basic
import Mathlib.Tactic

/-!
# Parallel tasks

A task is a tree of memory actions, barriers and parallel groups.  One step
performs one action of one running thread, so an execution is an arbitrary
interleaving; a barrier holds back its continuation until every thread of the
group before it has finished.  A task whose concurrent parts do not touch each
other's written cells has one outcome, that of running its parts in order.
-/

namespace Par

variable {Addr : Type} {Val : Addr → Type} {Event : Type}

/-- Typed cells, and the operands absorbed so far by atomic updates.  Atomic
updates of one word commute, so the word is a fold of this multiset. -/
@[ext] structure Mem (Val : Addr → Type) (Event : Type) where
  cell : (a : Addr) → Val a
  log : Multiset Event

namespace Mem

/-- Store a value in one cell. -/
def set [DecidableEq Addr] (m : Mem Val Event) (a : Addr) (v : Val a) :
    Mem Val Event :=
  { m with cell := Function.update m.cell a v }

/-- Absorb one operand of an atomic update. -/
def absorb (m : Mem Val Event) (x : Event) : Mem Val Event :=
  { m with log := x ::ₘ m.log }

end Mem

/-- Programs of threads, barriers and groups of concurrent programs. -/
inductive Task (Val : Addr → Type) (Event : Type) : Type where
  | done
  | read (a : Addr) (next : Val a → Task Val Event)
  | write (a : Addr) (v : Val a) (next : Task Val Event)
  | atomic (x : Event) (next : Task Val Event)
  /-- A barrier: the second task starts when the first has finished. -/
  | seq (first next : Task Val Event)
  | par (n : ℕ) (child : Fin n → Task Val Event)

namespace Task

variable [DecidableEq Addr]

/-- One action of one thread. -/
inductive Step :
    Task Val Event → Mem Val Event → Task Val Event → Mem Val Event → Prop where
  | read {a : Addr} {next : Val a → Task Val Event} {m : Mem Val Event} :
      Step (.read a next) m (next (m.cell a)) m
  | write {a : Addr} {v : Val a} {next : Task Val Event} {m : Mem Val Event} :
      Step (.write a v next) m next (m.set a v)
  | atomic {x : Event} {next : Task Val Event} {m : Mem Val Event} :
      Step (.atomic x next) m next (m.absorb x)
  | first {t t' next : Task Val Event} {m m' : Mem Val Event} :
      Step t m t' m' → Step (.seq t next) m (.seq t' next) m'
  | barrier {next : Task Val Event} {m : Mem Val Event} :
      Step (.seq .done next) m next m
  | child {n : ℕ} {child : Fin n → Task Val Event} (i : Fin n)
      {t' : Task Val Event} {m m' : Mem Val Event} :
      Step (child i) m t' m' →
      Step (.par n child) m (.par n (Function.update child i t')) m'
  | join {n : ℕ} {child : Fin n → Task Val Event} {m : Mem Val Event} :
      (∀ i, child i = .done) → Step (.par n child) m .done m

/-- Finitely many steps, in any interleaving. -/
inductive Steps :
    Task Val Event → Mem Val Event → Task Val Event → Mem Val Event → Prop where
  | refl {t : Task Val Event} {m : Mem Val Event} : Steps t m t m
  | head {t u v : Task Val Event} {m k l : Mem Val Event} :
      Step t m u k → Steps u k v l → Steps t m v l

/-- The outcome of running concurrent parts one after the other. -/
def eval : Task Val Event → Mem Val Event → Mem Val Event
  | .done, m => m
  | .read a next, m => (next (m.cell a)).eval m
  | .write a v next, m => next.eval (m.set a v)
  | .atomic x next, m => next.eval (m.absorb x)
  | .seq first next, m => next.eval (first.eval m)
  | .par n child, m => (List.finRange n).foldl (fun m i => (child i).eval m) m

/-- The cells a task may read and the cells it may write, on every run. -/
def Within (reads writes : Set Addr) : Task Val Event → Prop
  | .done => True
  | .read a next =>
      (a ∈ reads ∨ a ∈ writes) ∧ ∀ v, (next v).Within reads writes
  | .write a _ next => a ∈ writes ∧ next.Within reads writes
  | .atomic _ next => next.Within reads writes
  | .seq first next => first.Within reads writes ∧ next.Within reads writes
  | .par _ child => ∀ i, (child i).Within reads writes

/-- No cell written by one member is touched by another. -/
def Separated {ι : Type} (reads writes : ι → Set Addr) : Prop :=
  ∀ i j, i ≠ j → ∀ a ∈ writes i, a ∉ reads j ∧ a ∉ writes j

/-- Concurrent parts never touch a cell that another of them writes. -/
def RaceFree : Task Val Event → Prop
  | .done => True
  | .read _ next => ∀ v, (next v).RaceFree
  | .write _ _ next => next.RaceFree
  | .atomic _ next => next.RaceFree
  | .seq first next => first.RaceFree ∧ next.RaceFree
  | .par n child =>
      (∀ i, (child i).RaceFree) ∧
        ∃ reads writes : Fin n → Set Addr,
          (∀ i, (child i).Within (reads i) (writes i)) ∧
            Separated reads writes

omit [DecidableEq Addr] in
theorem Within.mono {t : Task Val Event} {reads writes reads' writes' : Set Addr}
    (within : t.Within reads writes) (readsLe : reads ⊆ reads')
    (writesLe : writes ⊆ writes') : t.Within reads' writes' := by
  induction t with
  | done => trivial
  | read a next ih =>
      exact ⟨within.1.imp (@readsLe a) (@writesLe a), fun v => ih v (within.2 v)⟩
  | write a v next ih => exact ⟨writesLe within.1, ih within.2⟩
  | atomic x next ih => exact ih within
  | seq first next ihFirst ihNext =>
      exact ⟨ihFirst within.1, ihNext within.2⟩
  | par n child ih => exact fun i => ih i (within i)

theorem Within.step {t t' : Task Val Event} {m m' : Mem Val Event}
    {reads writes : Set Addr} (step : Step t m t' m')
    (within : t.Within reads writes) : t'.Within reads writes := by
  induction step with
  | read => exact within.2 _
  | write => exact within.2
  | atomic => exact within
  | first _ ih => exact ⟨ih within.1, within.2⟩
  | barrier => exact within.2
  | child i _ ih =>
      intro j
      by_cases same : j = i
      · subst same
        rw [Function.update_self]
        exact ih (within j)
      · rw [Function.update_of_ne same]
        exact within j
  | join => trivial

theorem RaceFree.step {t t' : Task Val Event} {m m' : Mem Val Event}
    (step : Step t m t' m') (free : t.RaceFree) : t'.RaceFree := by
  induction step with
  | read => exact free _
  | write => exact free
  | atomic => exact free
  | first _ ih => exact ⟨ih free.1, free.2⟩
  | barrier => exact free.2
  | child i step ih =>
      obtain ⟨members, reads, writes, within, separated⟩ := free
      refine ⟨?_, reads, writes, ?_, separated⟩
      · intro j
        by_cases same : j = i
        · subst same
          rw [Function.update_self]
          exact ih (members j)
        · rw [Function.update_of_ne same]
          exact members j
      · intro j
        by_cases same : j = i
        · subst same
          rw [Function.update_self]
          exact (within j).step step
        · rw [Function.update_of_ne same]
          exact within j
  | join => trivial

/-- A task changes only the cells it may write. -/
theorem eval_frame {t : Task Val Event} {reads writes : Set Addr}
    (within : t.Within reads writes) {a : Addr} (outside : a ∉ writes)
    (m : Mem Val Event) : (t.eval m).cell a = m.cell a := by
  induction t generalizing m with
  | done => rfl
  | read b next ih => exact ih _ (within.2 _) m
  | write b v next ih =>
      rw [eval, ih within.2]
      have different : a ≠ b := fun same => outside (same ▸ within.1)
      simp [Mem.set, Function.update_of_ne different]
  | atomic x next ih => exact ih within (m.absorb x)
  | seq first next ihFirst ihNext =>
      rw [eval, ihNext within.2, ihFirst within.1]
  | par n child ih =>
      rw [eval]
      generalize List.finRange n = members
      induction members generalizing m with
      | nil => rfl
      | cons i members rest =>
          rw [List.foldl_cons, rest, ih i (within i)]

/-- Running twice from memories that agree on the cells a task may touch gives
the same values there and absorbs the same operands. -/
theorem eval_congr {t : Task Val Event} {reads writes : Set Addr}
    (within : t.Within reads writes) {m k : Mem Val Event}
    (agree : ∀ a ∈ reads ∪ writes, m.cell a = k.cell a) :
    (∀ a ∈ reads ∪ writes, (t.eval m).cell a = (t.eval k).cell a) ∧
      ∃ events, (t.eval m).log = events + m.log ∧
        (t.eval k).log = events + k.log := by
  induction t generalizing m k with
  | done => exact ⟨agree, 0, by simp [eval], by simp [eval]⟩
  | read a next ih =>
      have same := agree a within.1
      simp only [eval, same]
      exact ih _ (within.2 _) agree
  | write b v next ih =>
      refine ih within.2 ?_
      intro a member
      by_cases same : a = b
      · subst same
        simp [Mem.set]
      · simp [Mem.set, Function.update_of_ne same, agree a member]
  | atomic x next ih =>
      obtain ⟨cells, events, left, right⟩ :=
        ih within (m := m.absorb x) (k := k.absorb x) agree
      refine ⟨cells, x ::ₘ events, ?_, ?_⟩
      · rw [eval, left, Mem.absorb, Multiset.cons_add, Multiset.add_cons]
      · rw [eval, right, Mem.absorb, Multiset.cons_add, Multiset.add_cons]
  | seq first next ihFirst ihNext =>
      obtain ⟨cells, events, left, right⟩ := ihFirst within.1 agree
      obtain ⟨cells', events', left', right'⟩ := ihNext within.2 cells
      refine ⟨cells', events' + events, ?_, ?_⟩
      · rw [eval, left', left, add_assoc]
      · rw [eval, right', right, add_assoc]
  | par n child ih =>
      simp only [eval]
      generalize List.finRange n = members
      induction members generalizing m k with
      | nil => exact ⟨agree, 0, by simp, by simp⟩
      | cons i members rest =>
          obtain ⟨cells, events, left, right⟩ := ih i (within i) agree
          obtain ⟨cells', events', left', right'⟩ := rest cells
          refine ⟨cells', events' + events, ?_, ?_⟩
          · rw [List.foldl_cons, left', left, add_assoc]
          · rw [List.foldl_cons, right', right, add_assoc]

/-- A change of memory that leaves a task's cells alone and commutes with the
task's own actions. -/
structure Foreign (change : Mem Val Event → Mem Val Event)
    (reads writes : Set Addr) : Prop where
  read : ∀ m, ∀ a ∈ reads ∪ writes, (change m).cell a = m.cell a
  write : ∀ m, ∀ a ∈ writes, ∀ v, change (m.set a v) = (change m).set a v
  absorb : ∀ m x, change (m.absorb x) = (change m).absorb x

theorem Foreign.id {reads writes : Set Addr} :
    Foreign (fun m : Mem Val Event => m) reads writes :=
  ⟨fun _ _ _ => rfl, fun _ _ _ _ => rfl, fun _ _ => rfl⟩

theorem Foreign.comp {f g : Mem Val Event → Mem Val Event}
    {reads writes : Set Addr} (outer : Foreign f reads writes)
    (inner : Foreign g reads writes) :
    Foreign (fun m => f (g m)) reads writes := by
  constructor
  · intro m a member
    rw [outer.read _ a member, inner.read _ a member]
  · intro m a member v
    rw [inner.write _ a member, outer.write _ a member]
  · intro m x
    rw [inner.absorb, outer.absorb]

theorem set_comm {m : Mem Val Event} {a b : Addr} (different : a ≠ b)
    (v : Val a) (w : Val b) : (m.set a v).set b w = (m.set b w).set a v := by
  simp [Mem.set, Function.update_comm different]

theorem foreign_eval {t : Task Val Event} {reads writes reads' writes' : Set Addr}
    (within : t.Within reads' writes')
    (apart : ∀ a ∈ writes', a ∉ reads ∧ a ∉ writes)
    (apart' : ∀ a ∈ writes, a ∉ reads' ∧ a ∉ writes') :
    Foreign t.eval reads writes := by
  constructor
  · intro m a member
    refine eval_frame within ?_ m
    intro written
    rcases member with inReads | inWrites
    · exact (apart a written).1 inReads
    · exact (apart a written).2 inWrites
  · intro m a member v
    obtain ⟨notRead, notWritten⟩ := apart' a member
    induction t generalizing m with
    | done => rfl
    | read b next ih =>
        have different : b ≠ a := by
          rintro rfl
          exact within.1.elim notRead notWritten
        simp only [eval]
        have same : (m.set a v).cell b = m.cell b := by
          simp [Mem.set, Function.update_of_ne different]
        rw [same]
        exact ih _ (within.2 _) m
    | write b w next ih =>
        have different : a ≠ b := by
          rintro rfl
          exact notWritten within.1
        rw [eval, set_comm different, ih within.2, ← eval]
    | atomic x next ih => exact ih within (m.absorb x)
    | seq first next ihFirst ihNext =>
        rw [eval, ihFirst within.1, ihNext within.2, ← eval]
    | par n child ih =>
        rw [eval, eval]
        generalize List.finRange n = members
        induction members generalizing m with
        | nil => rfl
        | cons i members rest =>
            rw [List.foldl_cons, ih i (within i), rest, List.foldl_cons]
  · intro m x
    clear apart apart'
    induction t generalizing m with
    | done => rfl
    | read b next ih => exact ih _ (within.2 _) m
    | write b w next ih => exact ih within.2 (m.set b w)
    | atomic y next ih =>
        have swap : (m.absorb x).absorb y = (m.absorb y).absorb x := by
          simp [Mem.absorb, Multiset.cons_swap]
        rw [eval, swap, ih within, ← eval]
    | seq first next ihFirst ihNext =>
        rw [eval, ihFirst within.1, ihNext within.2, ← eval]
    | par n child ih =>
        rw [eval, eval]
        generalize List.finRange n = members
        induction members generalizing m with
        | nil => rfl
        | cons i members rest =>
            rw [List.foldl_cons, ih i (within i), rest, List.foldl_cons]

theorem foreign_foldl {ι : Type} {child : ι → Task Val Event}
    {members : List ι} {reads writes : Set Addr}
    (foreign : ∀ i ∈ members, Foreign (child i).eval reads writes) :
    Foreign (fun m => members.foldl (fun m i => (child i).eval m) m)
      reads writes := by
  induction members with
  | nil => exact .id
  | cons i members ih =>
      have tail := ih fun j member => foreign j (List.mem_cons_of_mem i member)
      exact tail.comp (foreign i List.mem_cons_self)

theorem Step.foreign {t t' : Task Val Event} {m m' : Mem Val Event}
    {change : Mem Val Event → Mem Val Event} {reads writes : Set Addr}
    (step : Step t m t' m') (within : t.Within reads writes)
    (foreign : Foreign change reads writes) :
    Step t (change m) t' (change m') := by
  induction step with
  | @read a next m =>
      have same := foreign.read m a within.1
      rw [← same]
      exact .read
  | write =>
      rw [foreign.write _ _ within.1]
      exact .write
  | atomic =>
      rw [foreign.absorb]
      exact .atomic
  | first _ ih => exact .first (ih within.1)
  | barrier => exact .barrier
  | child i _ ih => exact .child i (ih (within i))
  | join finished => exact .join finished

/-- No step of a race-free task changes its outcome. -/
theorem Step.eval_eq {t t' : Task Val Event} {m m' : Mem Val Event}
    (step : Step t m t' m') (free : t.RaceFree) : t'.eval m' = t.eval m := by
  induction t generalizing t' m m' with
  | done => cases step
  | read a next ih =>
      cases step
      rfl
  | write a v next ih =>
      cases step
      rfl
  | atomic x next ih =>
      cases step
      rfl
  | seq first next ihFirst ihNext =>
      cases step with
      | first inner => rw [eval, eval, ihFirst inner free.1]
      | barrier => rfl
  | par n child ih =>
      cases step with
      | join finished =>
          rw [eval, eval]
          generalize List.finRange n = members
          induction members with
          | nil => rfl
          | cons i members rest =>
              rw [List.foldl_cons, finished i, eval]
              exact rest
      | @child _ _ i t' _ _ inner =>
          obtain ⟨members, reads, writes, within, separated⟩ := free
          obtain ⟨before, after, split⟩ :=
            List.append_of_mem (List.mem_finRange i)
          have nodup := List.nodup_finRange n
          rw [split, List.nodup_append] at nodup
          obtain ⟨-, nodupAfter, apart⟩ := nodup
          have notBefore : i ∉ before := fun member =>
            apart i member i List.mem_cons_self rfl
          have notAfter : i ∉ after := (List.nodup_cons.mp nodupAfter).1
          have unchanged : ∀ (part : List (Fin n)), i ∉ part →
              ∀ m : Mem Val Event,
                part.foldl (fun m j => (Function.update child i t' j).eval m) m =
                  part.foldl (fun m j => (child j).eval m) m := by
            intro part outside m
            apply List.foldl_ext
            intro m j member
            have different : j ≠ i := fun same => outside (same ▸ member)
            rw [Function.update_of_ne different]
          have foreign : Foreign
              (fun m => before.foldl (fun m j => (child j).eval m) m)
              (reads i) (writes i) := by
            apply foreign_foldl
            intro j member
            have different : j ≠ i := fun same => notBefore (same ▸ member)
            exact foreign_eval (within j)
              (fun a written => separated j i different a written)
              (fun a written => separated i j different.symm a written)
          rw [eval, eval, split, List.foldl_append, List.foldl_append,
            List.foldl_cons, List.foldl_cons, unchanged before notBefore,
            unchanged after notAfter, Function.update_self]
          have advanced := ih i (inner.foreign (within i) foreign) (members i)
          rw [advanced]

theorem Steps.trans {t u v : Task Val Event} {m k l : Mem Val Event}
    (first : Steps t m u k) (second : Steps u k v l) : Steps t m v l := by
  induction first with
  | refl => exact second
  | head step _ ih => exact .head step (ih second)

/-- Every interleaving of a race-free task that finishes has its outcome. -/
theorem Steps.eval_eq {t t' : Task Val Event} {m m' : Mem Val Event}
    (steps : Steps t m t' m') (free : t.RaceFree) : t'.eval m' = t.eval m := by
  induction steps with
  | refl => rfl
  | head step _ ih => rw [ih (free.step step), step.eval_eq free]

theorem Steps.first {t t' next : Task Val Event} {m m' : Mem Val Event}
    (steps : Steps t m t' m') : Steps (.seq t next) m (.seq t' next) m' := by
  induction steps with
  | refl => exact .refl
  | head step _ ih => exact .head (.first step) ih

theorem Steps.child {n : ℕ} (child : Fin n → Task Val Event) (i : Fin n)
    {t t' : Task Val Event} {m m' : Mem Val Event} (steps : Steps t m t' m') :
    Steps (.par n (Function.update child i t)) m
      (.par n (Function.update child i t')) m' := by
  induction steps with
  | refl => exact .refl
  | @head t u v m k l step _ ih =>
      refine .head ?_ ih
      have own : Step (Function.update child i t i) m u k := by
        rwa [Function.update_self]
      have inner := Step.child i own
      rwa [Function.update_idem] at inner

/-- Running concurrent parts in order is one of the interleavings. -/
theorem steps_eval (t : Task Val Event) (m : Mem Val Event) :
    Steps t m .done (t.eval m) := by
  induction t generalizing m with
  | done => exact .refl
  | read a next ih => exact .head .read (ih _ m)
  | write a v next ih => exact .head .write (ih _)
  | atomic x next ih => exact .head .atomic (ih _)
  | seq first next ihFirst ihNext =>
      exact (ihFirst m).first.trans (.head .barrier (ihNext _))
  | par n child ih =>
      have run : ∀ (members : List (Fin n)) (current : Fin n → Task Val Event),
          members.Nodup → (∀ i ∈ members, current i = child i) →
          (∀ i, i ∉ members → current i = .done) → ∀ m,
          Steps (.par n current) m .done
            (members.foldl (fun m i => (child i).eval m) m) := by
        intro members
        induction members with
        | nil =>
            intro current _ _ finished m
            exact .head (.join fun i => finished i (by simp)) .refl
        | cons i members rest =>
            intro current nodup waiting finished m
            obtain ⟨notMember, nodupRest⟩ := List.nodup_cons.mp nodup
            have runChild := Steps.child current i (ih i m)
            rw [← waiting i List.mem_cons_self, Function.update_eq_self] at runChild
            rw [List.foldl_cons, ← waiting i List.mem_cons_self]
            refine runChild.trans (rest _ nodupRest ?_ ?_ _)
            · intro j member
              have different : j ≠ i := fun same => notMember (same ▸ member)
              rw [Function.update_of_ne different]
              exact waiting j (List.mem_cons_of_mem i member)
            · intro j notRest
              by_cases same : j = i
              · subst same
                exact Function.update_self ..
              · rw [Function.update_of_ne same]
                exact finished j (by simp [same, notRest])
      exact run (List.finRange n) child (List.nodup_finRange n)
        (fun _ _ => rfl) (fun i absent => absurd (List.mem_finRange i) absent) m

end Task

/-- A choice of one complete interleaving for every task and memory. -/
structure Scheduler where
  run : {Addr : Type} → [DecidableEq Addr] → {Val : Addr → Type} →
    {Event : Type} → Task Val Event → Mem Val Event → Mem Val Event
  complete : ∀ {Addr : Type} [DecidableEq Addr] {Val : Addr → Type}
    {Event : Type} (t : Task Val Event) (m : Mem Val Event),
    Task.Steps t m .done (run t m)

namespace Scheduler

/-- The scheduler that runs concurrent parts one after the other. -/
def inOrder : Scheduler := ⟨Task.eval, Task.steps_eval⟩

variable [DecidableEq Addr]

/-- Schedulers do not matter to race-free tasks. -/
theorem run_eq (scheduler : Scheduler) {t : Task Val Event}
    (free : t.RaceFree) (m : Mem Val Event) : scheduler.run t m = t.eval m :=
  (scheduler.complete t m).eval_eq free

end Scheduler

end Par

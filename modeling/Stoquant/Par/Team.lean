import Stoquant.Par.Group

/-!
# Work shared by a team

The members of a team take disjoint lists of items.  Every item writes output
cells of its own, a member may reuse private scratch cells from one item to the
next, and nobody writes the input cells.  Then an output cell holds what its
item computes from the inputs, whatever the order of the members.
-/

namespace Par

namespace Task

variable {Addr : Type} {Val : Addr → Type} {Event ι : Type}

/-- A team of `n` members, each performing its items in order. -/
def team (n : ℕ) (items : ℕ → List ι) (body : ℕ → ι → Task Val Event) :
    Task Val Event :=
  threads n fun b => forEach (items b) (body b)

/-- The sharing discipline of a team. -/
structure Team (n : ℕ) (items : ℕ → List ι) (body : ℕ → ι → Task Val Event)
    (inputs : Set Addr) (outputs : ι → Set Addr) (scratch : ℕ → Set Addr) :
    Prop where
  nodup : ∀ b < n, (items b).Nodup
  disjoint : ∀ b < n, ∀ c < n, b ≠ c → ∀ i ∈ items b, i ∉ items c
  within : ∀ b < n, ∀ i ∈ items b,
    (body b i).Within inputs (outputs i ∪ scratch b)
  free : ∀ b < n, ∀ i ∈ items b, (body b i).RaceFree
  inputs_kept : ∀ a ∈ inputs, (∀ i, a ∉ outputs i) ∧ ∀ b, a ∉ scratch b
  outputs_apart : ∀ i j, i ≠ j → ∀ a ∈ outputs i, a ∉ outputs j
  scratch_apart : ∀ b c, b ≠ c → ∀ a ∈ scratch b, a ∉ scratch c
  scratch_private : ∀ i b, ∀ a ∈ outputs i, a ∉ scratch b

namespace Team

variable {n : ℕ} {items : ℕ → List ι} {body : ℕ → ι → Task Val Event}
  {inputs : Set Addr} {outputs : ι → Set Addr} {scratch : ℕ → Set Addr}

/-- The cells a member writes: its scratch and the outputs of its items. -/
def writes (n : ℕ) (items : ℕ → List ι) (outputs : ι → Set Addr)
    (scratch : ℕ → Set Addr) (b : ℕ) : Set Addr :=
  gather { i | b < n ∧ i ∈ items b } outputs ∪ scratch b

theorem within_member (team : Team n items body inputs outputs scratch) {b : ℕ}
    (bound : b < n) :
    (forEach (items b) (body b)).Within inputs
      (writes n items outputs scratch b) := by
  refine within_forEach fun i member => ?_
  refine (team.within b bound i member).mono (Set.Subset.refl _) ?_
  rintro a (output | private_)
  · exact .inl ⟨i, ⟨bound, member⟩, output⟩
  · exact .inr private_

theorem separated (team : Team n items body inputs outputs scratch) :
    Separated (fun _ => inputs) (writes n items outputs scratch) := by
  rintro b c different a (⟨i, ⟨bBound, member⟩, output⟩ | private_)
  · constructor
    · exact fun input => (team.inputs_kept a input).1 i output
    · rintro (⟨j, ⟨cBound, member'⟩, output'⟩ | private')
      · have : i ≠ j := by
          rintro rfl
          exact team.disjoint b bBound c cBound different i member member'
        exact team.outputs_apart i j this a output output'
      · exact team.scratch_private i c a output private'
  · constructor
    · exact fun input => (team.inputs_kept a input).2 b private_
    · rintro (⟨j, -, output'⟩ | private')
      · exact team.scratch_private j b a output' private_
      · exact team.scratch_apart b c different a private_ private'

/-- A team that keeps the discipline has no races. -/
theorem raceFree (team : Team n items body inputs outputs scratch) :
    (Task.team n items body).RaceFree :=
  raceFree_threads _ _ (fun _ bound => team.within_member bound) team.separated
    fun b bound => raceFree_forEach (team.free b bound)

variable [DecidableEq Addr]

theorem frame (team : Team n items body inputs outputs scratch) {a : Addr}
    (notOutput : ∀ b < n, ∀ i ∈ items b, a ∉ outputs i)
    (notScratch : ∀ b < n, a ∉ scratch b) (m : Mem Val Event) :
    ((Task.team n items body).eval m).cell a = m.cell a := by
  refine threads_frame (fun b bound => team.within_member bound) ?_ m
  rintro b bound (⟨i, ⟨-, member⟩, output⟩ | private_)
  · exact notOutput b bound i member output
  · exact notScratch b bound private_

/-- Items before a given one leave the inputs as they were. -/
theorem foldl_inputs (team : Team n items body inputs outputs scratch) {b : ℕ}
    (bound : b < n) {part : List ι} (subset : ∀ i ∈ part, i ∈ items b)
    {a : Addr} (input : a ∈ inputs) (m : Mem Val Event) :
    (part.foldl (fun m i => (body b i).eval m) m).cell a = m.cell a := by
  refine foldl_frame (fun i member => team.within b bound i (subset i member))
    ?_ m
  rintro i - (output | private_)
  · exact (team.inputs_kept a input).1 i output
  · exact (team.inputs_kept a input).2 b private_

theorem cell (team : Team n items body inputs outputs scratch) {b : ℕ}
    (bound : b < n) {i : ι} (member : i ∈ items b) {a : Addr}
    (output : a ∈ outputs i) {v : Val a} (m : Mem Val Event)
    (computes : ∀ k : Mem Val Event, (∀ a ∈ inputs, k.cell a = m.cell a) →
      ((body b i).eval k).cell a = v) :
    ((Task.team n items body).eval m).cell a = v := by
  have written : a ∈ writes n items outputs scratch b :=
    .inl ⟨i, ⟨bound, member⟩, output⟩
  rw [Task.team, threads_cell (fun c bound => team.within_member bound)
    team.separated bound written, eval_forEach]
  obtain ⟨before, after, split⟩ := List.append_of_mem member
  have nodup := team.nodup b bound
  have subset : ∀ j, j ∈ before ∨ j = i ∨ j ∈ after → j ∈ items b := by
    intro j part
    rw [split]
    simpa using part
  rw [split, List.nodup_append] at nodup
  have notAfter : i ∉ after := (List.nodup_cons.mp nodup.2.1).1
  rw [split, List.foldl_append, List.foldl_cons,
    foldl_frame (fun j inAfter => team.within b bound j (subset j (.inr (.inr inAfter))))]
  · exact computes _ fun a input =>
      team.foldl_inputs bound (fun j inBefore => subset j (.inl inBefore)) input m
  · rintro j inAfter (output' | private_)
    · have : i ≠ j := fun same => notAfter (same ▸ inAfter)
      exact team.outputs_apart i j this a output output'
    · exact team.scratch_private i b a output private_

omit [DecidableEq Addr] in
theorem mem_sum {κ : Type} {x : Event} {parts : List κ}
    {events : κ → Multiset Event} :
    x ∈ (parts.map events).sum ↔ ∃ k ∈ parts, x ∈ events k := by
  induction parts with
  | nil => simp
  | cons k parts ih => simp [ih]

theorem mem_log_member (team : Team n items body inputs outputs scratch)
    {m : Mem Val Event} {ev : ℕ → ι → Multiset Event} {b : ℕ} (bound : b < n)
    (absorbs : ∀ i ∈ items b, ∀ k : Mem Val Event,
      (∀ a ∈ inputs, k.cell a = m.cell a) → (body b i).events k = ev b i)
    {x : Event} :
    x ∈ (forEach (items b) (body b)).events m ↔ ∃ i ∈ items b, x ∈ ev b i := by
  have run : ∀ part : List ι, (∀ i ∈ part, i ∈ items b) →
      ∀ k : Mem Val Event, (∀ a ∈ inputs, k.cell a = m.cell a) →
      (x ∈ (part.foldl (fun m i => (body b i).eval m) k).log ↔
        (∃ i ∈ part, x ∈ ev b i) ∨ x ∈ k.log) := by
    intro part
    induction part with
    | nil => simp
    | cons i part ih =>
        intro subset k agree
        have head := subset i List.mem_cons_self
        have next : ∀ a ∈ inputs, ((body b i).eval k).cell a = m.cell a := by
          intro a input
          rw [← agree a input]
          refine eval_frame (team.within b bound i head) ?_ k
          rintro (output | private_)
          · exact (team.inputs_kept a input).1 i output
          · exact (team.inputs_kept a input).2 b private_
        rw [List.foldl_cons,
          ih (fun j member => subset j (List.mem_cons_of_mem i member)) _ next,
          eval_log, absorbs i head k agree, Multiset.mem_add]
        simp only [List.mem_cons, exists_eq_or_imp]
        rw [or_assoc, or_left_comm]
  have whole := run (items b) (fun _ member => member) { m with log := 0 }
    fun _ _ => rfl
  rw [events, eval_forEach, whole]
  simp

theorem mem_log (team : Team n items body inputs outputs scratch)
    {m : Mem Val Event} {ev : ℕ → ι → Multiset Event}
    (absorbs : ∀ b < n, ∀ i ∈ items b, ∀ k : Mem Val Event,
      (∀ a ∈ inputs, k.cell a = m.cell a) → (body b i).events k = ev b i)
    {x : Event} :
    x ∈ ((Task.team n items body).eval m).log ↔
      (∃ b < n, ∃ i ∈ items b, x ∈ ev b i) ∨ x ∈ m.log := by
  rw [Task.team, threads_log (fun b bound => team.within_member bound)
    team.separated, Multiset.mem_add, mem_sum]
  refine or_congr_left ?_
  constructor
  · rintro ⟨b, inRange, absorbed⟩
    have bound := List.mem_range.mp inRange
    exact ⟨b, bound, (team.mem_log_member bound (absorbs b bound)).mp absorbed⟩
  · rintro ⟨b, bound, absorbed⟩
    exact ⟨b, List.mem_range.mpr bound,
      (team.mem_log_member bound (absorbs b bound)).mpr absorbed⟩

end Team

end Task

end Par

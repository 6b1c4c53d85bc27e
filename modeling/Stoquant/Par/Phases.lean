import Stoquant.Par.Team
import Stoquant.Tree.Pairs

/-!
# Phases between barriers

Between two barriers the threads of a team combine cells of one buffer into
cells of the other one.  Whatever the order of the threads, adjacent pairs over
halving widths, and neighbours over doubling offsets, leave the tree of adjacent
pairs in the first cell.
-/

namespace Par

open Loop

/-- Every index below a bound is an item of exactly one member of a team, once. -/
structure Shares (n : ℕ) (items : ℕ → List ℕ) (bound : ℕ) : Prop where
  nodup : ∀ t < n, (items t).Nodup
  disjoint : ∀ t < n, ∀ u < n, t ≠ u → ∀ i ∈ items t, i ∉ items u
  cover : ∀ i, i < bound ↔ ∃ t < n, i ∈ items t

/-- Strides of the size of the team share the indices. -/
theorem shares_strided {n : ℕ} (pos : 0 < n) (bound : ℕ) :
    Shares n (fun t => strided t n bound) bound := by
  constructor
  · intro t _
    exact strided_nodup t n bound
  · intro t below u below' different i member member'
    rw [mem_strided_iff below] at member
    rw [mem_strided_iff below'] at member'
    exact different (member.2.symm.trans member'.2)
  · intro i
    constructor
    · intro inside
      exact ⟨i % n, Nat.mod_lt i pos, (mem_strided_iff (Nat.mod_lt i pos)).mpr ⟨inside, rfl⟩⟩
    · rintro ⟨t, below, member⟩
      exact ((mem_strided_iff below).mp member).1

/-- The first threads of a large enough team take one index each. -/
theorem shares_single {n width : ℕ} (enough : width ≤ n) :
    Shares n (fun t => if t < width then [t] else []) width := by
  have member : ∀ {t i : ℕ}, i ∈ (if t < width then [t] else []) ↔ i = t ∧ t < width := by
    intro t i
    split <;> simp [*]
  constructor
  · intro t _
    split <;> simp
  · intro t _ u _ different i inT inU
    exact different ((member.mp inT).1.symm.trans (member.mp inU).1)
  · intro i
    constructor
    · intro inside
      exact ⟨i, inside.trans_le enough, member.mpr ⟨rfl, inside⟩⟩
    · rintro ⟨t, -, inT⟩
      obtain ⟨rfl, inside⟩ := member.mp inT
      exact inside

/-- A team whose members share out the indices below a bound, each performing the body of
its own indices. -/
def SharedOut {Addr : Type} {Val : Addr → Type} {Event : Type} (task : Task Val Event)
    (bound : ℕ) (body : ℕ → ℕ → Task Val Event) : Prop :=
  ∃ n items, task = .team n items body ∧ Shares n items bound

/-- The offsets `first, 2 * first, ...` below a limit. -/
def doublings (first limit : ℕ) : List ℕ :=
  if first < limit ∧ 0 < first then first :: doublings (first * 2) limit else []
termination_by limit - first

theorem doublings_pow_self (k : ℕ) : doublings (2 ^ k) (2 ^ k) = [] := by
  rw [doublings, if_neg (by simp)]

theorem doublings_pow_lt {j k : ℕ} (below : j < k) :
    doublings (2 ^ j) (2 ^ k) = 2 ^ j :: doublings (2 ^ (j + 1)) (2 ^ k) := by
  rw [doublings, if_pos ⟨Nat.pow_lt_pow_right (by norm_num) below, Nat.two_pow_pos j⟩, pow_succ]

namespace Task

variable {Addr : Type} {α : Type} {Event : Type}

/-- Combine two cells of one buffer into a cell of the other one. -/
def combine (op : α → α → α) (cell : Bool → ℕ → Addr) (source : Bool) (left right : ℕ → ℕ)
    (k : ℕ) : Task (fun _ : Addr => α) Event :=
  .read (cell source (left k)) fun x =>
    .read (cell source (right k)) fun y => .write (cell (!source) k) (op x y) .done

/-- The cells that the threads compute before a barrier, and from which two cells. -/
structure Phase where
  items : ℕ → List ℕ
  left : ℕ → ℕ
  right : ℕ → ℕ

/-- One phase after the other, the buffers changing places, and what follows. -/
def phases (op : α → α → α) (cell : Bool → ℕ → Addr) (n : ℕ) :
    List Phase → Bool → (Bool → Task (fun _ : Addr => α) Event) →
      Task (fun _ : Addr => α) Event
  | [], source, next => next source
  | phase :: rest, source, next =>
      .seq (team n phase.items fun _ => combine op cell source phase.left phase.right)
        (phases op cell n rest (!source) next)

/-- Load a buffer, combine it in phases and store the first cell of the last buffer. -/
def reduceInto (op : α → α → α) (cell : Bool → ℕ → Addr) (n : ℕ)
    (load : Task (fun _ : Addr => α) Event) (list : List Phase) (out : Addr) :
    Task (fun _ : Addr => α) Event :=
  .seq load
    (phases op cell n list false fun final =>
      .read (cell final 0) fun value => .write out value .done)

/-- Adjacent pairs, shared in some way. -/
def Phase.pairs (share : ℕ → ℕ → List ℕ) (width : ℕ) : Phase :=
  ⟨share width, fun k => 2 * k, fun k => 2 * k + 1⟩

/-- Every thread and the thread at an offset behind it, itself where there is none. -/
def Phase.shuffle (n offset : ℕ) : Phase :=
  ⟨fun t => if t < n then [t] else [], fun k => k,
    fun k => if k + offset < n then k + offset else k⟩

section

variable {Val : Addr → Type} {n : ℕ} {items : ℕ → List ℕ} {width : ℕ}
  {body : ℕ → Task Val Event} {inputs : Set Addr} {out : ℕ → Addr}

theorem ownTeam (shares : Shares n items width) (injective : Function.Injective out)
    (apart : ∀ k, out k ∉ inputs) (within : ∀ k, (body k).Within inputs {out k})
    (free : ∀ k, (body k).RaceFree) :
    Team n items (fun _ => body) inputs (fun k => {out k}) fun _ => ∅ where
  nodup := shares.nodup
  disjoint := shares.disjoint
  within := fun _ _ k _ => (within k).mono (Set.Subset.refl _) Set.subset_union_left
  free := fun _ _ k _ => free k
  inputs_kept := by
    intro a input
    refine ⟨fun k same => ?_, fun _ => id⟩
    obtain rfl : a = out k := same
    exact apart k input
  outputs_apart := by
    rintro i j different _ rfl same
    exact different (injective same)
  scratch_apart := fun _ _ _ _ none => none.elim
  scratch_private := fun _ _ _ _ none => none

theorem eval_ownTeam [DecidableEq Addr] (shares : Shares n items width)
    (injective : Function.Injective out) (apart : ∀ k, out k ∉ inputs)
    (within : ∀ k, (body k).Within inputs {out k}) (free : ∀ k, (body k).RaceFree)
    {value : (k : ℕ) → Val (out k)} {m : Mem Val Event}
    (computes : ∀ k < width, ∀ later : Mem Val Event,
      (∀ a ∈ inputs, later.cell a = m.cell a) →
      ((body k).eval later).cell (out k) = value k) :
    (∀ k < width, ((team n items fun _ => body).eval m).cell (out k) = value k) ∧
    ∀ a, (∀ k, a ≠ out k) → ((team n items fun _ => body).eval m).cell a = m.cell a := by
  have discipline := ownTeam shares injective apart within free
  constructor
  · intro k below
    obtain ⟨t, tBelow, member⟩ := (shares.cover k).mp below
    exact discipline.cell tBelow member rfl m (computes k below)
  · intro a other
    exact discipline.frame (fun _ _ k _ same => other k same) (fun _ _ => id) m

/-- Such a team has no races, and its cells hold what the items compute. -/
theorem ownTeam_spec [DecidableEq Addr] (shares : Shares n items width)
    (injective : Function.Injective out) (apart : ∀ k, out k ∉ inputs)
    (within : ∀ k, (body k).Within inputs {out k}) (free : ∀ k, (body k).RaceFree)
    {value : (k : ℕ) → Val (out k)} {m : Mem Val Event}
    (computes : ∀ k < width, ∀ later : Mem Val Event,
      (∀ a ∈ inputs, later.cell a = m.cell a) →
      ((body k).eval later).cell (out k) = value k) :
    (team n items fun _ => body).RaceFree ∧
    ∀ k < width, ((team n items fun _ => body).eval m).cell (out k) = value k :=
  ⟨(ownTeam shares injective apart within free).raceFree,
    (eval_ownTeam shares injective apart within free computes).1⟩

/-- A team that stores one value for every item. -/
theorem storeTeam_spec [DecidableEq Addr] (shares : Shares n items width)
    (injective : Function.Injective out) (value : (k : ℕ) → Val (out k)) :
    (team n items fun _ k => (.write (out k) (value k) .done : Task Val Event)).RaceFree ∧
    ∀ m : Mem Val Event, ∀ k < width,
      ((team n items fun _ k => .write (out k) (value k) .done).eval m).cell (out k) =
        value k := by
  have within : ∀ k, (Task.write (out k) (value k) .done : Task Val Event).Within ∅ {out k} :=
    fun _ => ⟨rfl, trivial⟩
  refine ⟨(ownTeam shares injective (fun _ => id) within fun _ => trivial).raceFree, ?_⟩
  intro m
  refine (eval_ownTeam shares injective (fun _ => id) within (fun _ => trivial) ?_).1
  intro k _ later _
  exact Function.update_self ..

/-- A team that copies one cell for every item. -/
theorem copyTeam_spec [DecidableEq Addr] (shares : Shares n items width)
    (injective : Function.Injective out) {source : ℕ → Addr}
    (apart : ∀ k i, source i ≠ out k) :
    (team n items fun _ k => (.read (source k) fun value => .write (out k) value .done :
      Task (fun _ : Addr => α) Event)).RaceFree ∧
    ∀ m : Mem (fun _ : Addr => α) Event, ∀ k < width,
      ((team n items fun _ k => .read (source k) fun value =>
        .write (out k) value .done).eval m).cell (out k) = m.cell (source k) := by
  have outside : ∀ k, out k ∉ Set.range source := by
    rintro k ⟨i, same⟩
    exact apart k i same
  have within : ∀ k, (Task.read (source k) fun value => .write (out k) value .done :
      Task (fun _ : Addr => α) Event).Within (Set.range source) {out k} :=
    fun _ => ⟨.inl ⟨_, rfl⟩, fun _ => ⟨rfl, trivial⟩⟩
  refine ⟨(ownTeam shares injective outside within fun _ _ => trivial).raceFree, ?_⟩
  intro m
  refine (eval_ownTeam shares injective outside within (fun _ _ => trivial) ?_).1
  intro k _ later agree
  rw [← agree (source k) ⟨k, rfl⟩]
  exact Function.update_self ..

/-- A team stays within what its bodies stay within. -/
theorem within_team {ι : Type} {items : ℕ → List ι} {body : ℕ → ι → Task Val Event}
    {reads writes : Set Addr} (within : ∀ t i, (body t i).Within reads writes) :
    (team n items body).Within reads writes :=
  fun t => within_forEach fun i _ => within t i

end

section

variable (op : α → α → α) {cell : Bool → ℕ → Addr} (injective : Function.Injective2 cell)
  {n : ℕ}

include injective

theorem combine_apart (source : Bool) (k : ℕ) : cell (!source) k ∉ Set.range (cell source) := by
  rintro ⟨i, same⟩
  exact (Bool.eq_not_self source).mp (injective same).1

theorem combineTeam {items : ℕ → List ℕ} {width : ℕ} (shares : Shares n items width)
    (source : Bool) (left right : ℕ → ℕ) :
    Team n items
      (fun _ => (combine op cell source left right : ℕ → Task (fun _ : Addr => α) Event))
      (Set.range (cell source)) (fun k => {cell (!source) k}) fun _ => ∅ :=
  ownTeam shares (fun _ _ same => (injective same).2) (combine_apart injective source)
    (fun _ => ⟨.inl ⟨_, rfl⟩, fun _ => ⟨.inl ⟨_, rfl⟩, fun _ => ⟨rfl, trivial⟩⟩⟩)
    fun _ _ _ => trivial

theorem raceFree_phases {list : List Phase}
    (shares : ∀ phase ∈ list, ∃ width, Shares n phase.items width) {source : Bool}
    {next : Bool → Task (fun _ : Addr => α) Event} (free : ∀ final, (next final).RaceFree) :
    (phases op cell n list source next).RaceFree := by
  induction list generalizing source with
  | nil => exact free source
  | cons phase rest ih =>
      obtain ⟨width, share⟩ := shares phase List.mem_cons_self
      constructor
      · exact (combineTeam op injective share source phase.left phase.right).raceFree
      · exact ih fun later member => shares later (List.mem_cons_of_mem phase member)

omit injective in
theorem within_phases {list : List Phase} {reads writes : Set Addr}
    (cells : ∀ side i, cell side i ∈ writes) {source : Bool}
    {next : Bool → Task (fun _ : Addr => α) Event}
    (within : ∀ final, (next final).Within reads writes) :
    (phases op cell n list source next).Within reads writes := by
  induction list generalizing source with
  | nil => exact within source
  | cons phase rest ih =>
      constructor
      · apply within_team
        exact fun _ _ => ⟨.inr (cells _ _), fun _ => ⟨.inr (cells _ _), fun _ =>
          ⟨cells _ _, trivial⟩⟩⟩
      · exact ih

variable [DecidableEq Addr]

/-- After a phase the other buffer holds the combinations, and nothing else has changed. -/
theorem eval_combineTeam {items : ℕ → List ℕ} {width : ℕ} (shares : Shares n items width)
    (source : Bool) (left right : ℕ → ℕ) (m : Mem (fun _ : Addr => α) Event) :
    (∀ k < width,
      ((team n items fun _ => combine op cell source left right).eval m).cell
          (cell (!source) k) =
        op (m.cell (cell source (left k))) (m.cell (cell source (right k)))) ∧
    ∀ a, (∀ k, a ≠ cell (!source) k) →
      ((team n items fun _ => combine op cell source left right).eval m).cell a =
        m.cell a := by
  apply eval_ownTeam shares (fun _ _ same => (injective same).2)
    (combine_apart injective source)
  · exact fun _ => ⟨.inl ⟨_, rfl⟩, fun _ => ⟨.inl ⟨_, rfl⟩, fun _ => ⟨rfl, trivial⟩⟩⟩
  · exact fun _ _ _ => trivial
  · intro k _ later agree
    rw [← agree (cell source (left k)) ⟨_, rfl⟩, ← agree (cell source (right k)) ⟨_, rfl⟩]
    exact Function.update_self ..

/-- Adjacent pairs over halving widths leave the tree over the buffer in the first cell of
the last one. -/
theorem eval_pairPhases {share : ℕ → ℕ → List ℕ} {k : ℕ}
    (shares : ∀ j < k, Shares n (share (2 ^ j)) (2 ^ j)) (source : Bool)
    (next : Bool → Task (fun _ : Addr => α) Event) (m : Mem (fun _ : Addr => α) Event) :
    ∃ final later,
      (phases op cell n ((halvings (2 ^ k / 2)).map (.pairs share)) source next).eval m =
        (next final).eval later ∧
      later.cell (cell final 0) = Tree.tree op k (fun i => m.cell (cell source i)) ∧
      ∀ a, (∀ side i, a ≠ cell side i) → later.cell a = m.cell a := by
  induction k generalizing source m with
  | zero =>
      rw [halvings_half_one]
      exact ⟨source, m, rfl, rfl, fun _ _ => rfl⟩
  | succ k ih =>
      have share := shares k (Nat.lt_succ_self k)
      obtain ⟨level, frame⟩ :=
        eval_combineTeam op injective share source (fun i => 2 * i) (fun i => 2 * i + 1) m
      obtain ⟨final, later, ran, root, rest⟩ :=
        ih (fun j below => shares j (Nat.lt_succ_of_lt below)) (!source) _
      refine ⟨final, later, ?_, ?_, ?_⟩
      · rw [halvings_half_pow_succ, List.map_cons, phases, eval]
        exact ran
      · rw [root, Tree.tree]
        exact Tree.tree_congr level
      · intro a outside
        rw [rest a outside]
        exact frame a fun i => outside _ i

/-- After the offsets below `2 ^ j` a thread whose index is a multiple of `2 ^ j` holds the
tree over the `2 ^ j` threads from it on. -/
theorem eval_shufflePhases {j k : ℕ} (le : j ≤ k) {leaf : ℕ → α} (source : Bool)
    (next : Bool → Task (fun _ : Addr => α) Event) (m : Mem (fun _ : Addr => α) Event)
    (holds : ∀ q < 2 ^ (k - j), m.cell (cell source (q * 2 ^ j)) =
      Tree.tree op j fun r => leaf (q * 2 ^ j + r)) :
    ∃ final later,
      (phases op cell (2 ^ k)
          ((doublings (2 ^ j) (2 ^ k)).map (.shuffle (2 ^ k))) source next).eval m =
        (next final).eval later ∧
      later.cell (cell final 0) = Tree.tree op k leaf ∧
      ∀ a, (∀ side i, a ≠ cell side i) → later.cell a = m.cell a := by
  induction left : k - j generalizing j source m with
  | zero =>
      obtain rfl : j = k := by omega
      rw [doublings_pow_self]
      refine ⟨source, m, rfl, ?_, fun _ _ => rfl⟩
      have root := holds 0 (by simp)
      simpa using root
  | succ left ih =>
      have below : j < k := by omega
      let shuffle := Phase.shuffle (2 ^ k) (2 ^ j)
      let between := (team (2 ^ k) shuffle.items fun _ =>
        combine op cell source shuffle.left shuffle.right).eval m
      obtain ⟨level, frame⟩ : (∀ i < 2 ^ k, between.cell (cell (!source) i) = _) ∧ _ :=
        eval_combineTeam op injective (shares_single le_rfl) source shuffle.left shuffle.right m
      have halves : 2 ^ (k - j) = 2 ^ (k - (j + 1)) * 2 := by
        rw [← pow_succ]
        congr 1
        omega
      have whole : 2 ^ k = 2 ^ (k - (j + 1)) * 2 ^ (j + 1) := by
        rw [← pow_add]
        congr 1
        omega
      have pairs : ∀ q < 2 ^ (k - (j + 1)), between.cell (cell (!source) (q * 2 ^ (j + 1))) =
          Tree.tree op (j + 1) fun r => leaf (q * 2 ^ (j + 1) + r) := by
        intro q inside
        have first : q * 2 ^ (j + 1) = 2 * q * 2 ^ j := by
          rw [pow_succ]
          ring
        have second : 2 * q * 2 ^ j + 2 ^ j = (2 * q + 1) * 2 ^ j := by ring
        have last : (q + 1) * 2 ^ (j + 1) = (2 * q + 1) * 2 ^ j + 2 ^ j := by
          rw [pow_succ]
          ring
        have run : (2 * q + 1) * 2 ^ j + 2 ^ j ≤ 2 ^ k := by
          rw [← last, whole]
          exact Nat.mul_le_mul_right _ inside
        have positive := Nat.two_pow_pos j
        have beside : shuffle.right (q * 2 ^ (j + 1)) = (2 * q + 1) * 2 ^ j := by
          show (if q * 2 ^ (j + 1) + 2 ^ j < 2 ^ k then q * 2 ^ (j + 1) + 2 ^ j
            else q * 2 ^ (j + 1)) = _
          rw [first, second, if_pos (by omega)]
        have own : shuffle.left (q * 2 ^ (j + 1)) = 2 * q * 2 ^ j := first
        have small : q * 2 ^ (j + 1) < 2 ^ k := by
          rw [first]
          omega
        rw [level _ small, own, beside, holds _ (by omega), holds _ (by omega),
          Tree.tree_succ, first]
        congr 2
        funext r
        rw [← Nat.add_assoc, second]
      obtain ⟨final, later, ran, root, rest⟩ := ih below (!source) between pairs (by omega)
      refine ⟨final, later, ?_, root, ?_⟩
      · rw [doublings_pow_lt below, List.map_cons, phases, eval]
        exact ran
      · intro a outside
        rw [rest a outside]
        exact frame a fun i => outside _ i

section

variable {load : Task (fun _ : Addr => α) Event} {out : Addr}

omit injective [DecidableEq Addr] in
theorem within_reduceInto {list : List Phase} {reads writes : Set Addr}
    (loadWithin : load.Within reads writes) (cells : ∀ side i, cell side i ∈ writes)
    (stored : out ∈ writes) : (reduceInto op cell n load list out).Within reads writes :=
  ⟨loadWithin, within_phases op cells fun _ => ⟨.inr (cells _ _), fun _ => ⟨stored, trivial⟩⟩⟩

omit [DecidableEq Addr] in
theorem raceFree_reduceInto {list : List Phase} (loadFree : load.RaceFree)
    (shares : ∀ phase ∈ list, ∃ width, Shares n phase.items width) :
    (reduceInto op cell n load list out).RaceFree :=
  ⟨loadFree, raceFree_phases op injective shares fun _ _ => trivial⟩

/-- Pairs over halving widths store the tree over what was loaded. -/
theorem eval_reduceInto_pairs {share : ℕ → ℕ → List ℕ} {k : ℕ}
    (shares : ∀ j < k, Shares n (share (2 ^ j)) (2 ^ j)) {leaf : ℕ → α}
    {m : Mem (fun _ : Addr => α) Event}
    (loaded : ∀ i < 2 ^ k, (load.eval m).cell (cell false i) = leaf i) :
    ((reduceInto op cell n load ((halvings (2 ^ k / 2)).map (.pairs share)) out).eval m).cell
        out = Tree.tree op k leaf := by
  obtain ⟨final, later, ran, root, -⟩ := eval_pairPhases op injective shares false
    (fun final => .read (cell final 0) fun value => .write out value .done) (load.eval m)
  rw [reduceInto, eval, ran, ← Tree.tree_congr loaded, ← root]
  exact Function.update_self ..

/-- Shuffles over doubling offsets store the tree over what was loaded. -/
theorem eval_reduceInto_shuffles {k : ℕ} {leaf : ℕ → α} {m : Mem (fun _ : Addr => α) Event}
    (loaded : ∀ i < 2 ^ k, (load.eval m).cell (cell false i) = leaf i) :
    ((reduceInto op cell (2 ^ k) load
        ((doublings (2 ^ 0) (2 ^ k)).map (.shuffle (2 ^ k))) out).eval m).cell out =
      Tree.tree op k leaf := by
  have start : ∀ q < 2 ^ (k - 0), (load.eval m).cell (cell false (q * 2 ^ 0)) =
      Tree.tree op 0 fun r => leaf (q * 2 ^ 0 + r) := by
    simpa [Tree.tree] using loaded
  obtain ⟨final, later, ran, root, -⟩ := eval_shufflePhases op injective (Nat.zero_le k) false
    (fun final => .read (cell final 0) fun value => .write out value .done) (load.eval m) start
  rw [reduceInto, eval, ran, ← root]
  exact Function.update_self ..

end

end

end Task

end Par

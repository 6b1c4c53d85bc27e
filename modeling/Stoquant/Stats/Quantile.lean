import Mathlib.Data.List.Sort
import Mathlib.Algebra.Order.Floor.Ring
import Mathlib.Tactic

/-!
# Order statistics

The sorted values of a sample, its median (the mean of the two middle values
when the size is even) and its quantiles by linear interpolation.  Counting the
values below a threshold decides on which side of it an order statistic lies,
and that is all the bounds below use.
-/

namespace Quantile

section Counts

variable {K : Type} [LinearOrder K]

/-- The sample in increasing order. -/
def sorted (sample : List K) : List K :=
  sample.insertionSort (· ≤ ·)

/-- The number of values of the sample strictly below a threshold. -/
def below (threshold : K) (sample : List K) : Nat :=
  sample.countP (· < threshold)

/-- The number of values of the sample at or below a threshold. -/
def upTo (threshold : K) (sample : List K) : Nat :=
  sample.countP (· ≤ threshold)

@[simp] theorem length_sorted (sample : List K) :
    (sorted sample).length = sample.length :=
  List.length_insertionSort _ sample

theorem sorted_perm (sample : List K) : (sorted sample).Perm sample :=
  List.perm_insertionSort _ sample

theorem sorted_pairwise (sample : List K) : (sorted sample).Pairwise (· ≤ ·) :=
  List.pairwise_insertionSort _ sample

/-- In a sorted list the entries that a downward closed test accepts come
first, so the count of accepted entries says which ranks they occupy. -/
theorem accepted_iff_lt_countP {entries : List K} (test : K → Bool)
    (closed : ∀ small large, small ≤ large → test large = true → test small = true)
    (increasing : entries.Pairwise (· ≤ ·)) :
    ∀ rank, (inside : rank < entries.length) →
      (test entries[rank] = true ↔ rank < entries.countP test) := by
  induction entries with
  | nil =>
      intro rank inside
      exact absurd inside (Nat.not_lt_zero rank)
  | cons head tail induction =>
      intro rank inside
      obtain ⟨headLeast, tailIncreasing⟩ := List.pairwise_cons.mp increasing
      by_cases accepted : test head = true
      · rw [List.countP_cons_of_pos accepted]
        cases rank with
        | zero => simp [accepted]
        | succ rank =>
            have inTail : rank < tail.length := by simpa using inside
            simpa using induction tailIncreasing rank inTail
      · have noneAccepted : tail.countP test = 0 := by
          apply List.countP_eq_zero.mpr
          intro entry member entryAccepted
          exact accepted (closed head entry (headLeast entry member) entryAccepted)
        rw [List.countP_cons_of_neg accepted, noneAccepted]
        constructor
        · intro rankAccepted
          have headLe : head ≤ (head :: tail)[rank] := by
            cases rank with
            | zero => exact le_refl _
            | succ rank => exact headLeast _ (List.getElem_mem _)
          exact absurd (closed _ _ headLe rankAccepted) accepted
        · intro impossible
          exact absurd impossible (Nat.not_lt_zero rank)

theorem upTo_mono {low high : K} (order : low ≤ high) (sample : List K) :
    upTo low sample ≤ upTo high sample := by
  apply List.countP_mono_left
  intro value _ accepted
  exact decide_eq_true ((of_decide_eq_true accepted).trans order)

theorem below_flatten_le {threshold : K} {bound : Nat} {samples : List (List K)}
    (each : ∀ sample ∈ samples, below threshold sample ≤ bound) :
    below threshold samples.flatten ≤ samples.length * bound := by
  induction samples with
  | nil => simp [below]
  | cons sample samples induction =>
      have head := each sample List.mem_cons_self
      have tail := induction fun other member => each other (List.mem_cons_of_mem _ member)
      have split : below threshold (sample :: samples).flatten =
          below threshold sample + below threshold samples.flatten := by
        simp [below, List.countP_append]
      rw [split, List.length_cons, Nat.succ_mul]
      omega

theorem upTo_flatten_le {threshold : K} {bound : Nat} {samples : List (List K)}
    (each : ∀ sample ∈ samples, upTo threshold sample ≤ bound) :
    upTo threshold samples.flatten ≤ samples.length * bound := by
  induction samples with
  | nil => simp [upTo]
  | cons sample samples induction =>
      have head := each sample List.mem_cons_self
      have tail := induction fun other member => each other (List.mem_cons_of_mem _ member)
      have split : upTo threshold (sample :: samples).flatten =
          upTo threshold sample + upTo threshold samples.flatten := by
        simp [upTo, List.countP_append]
      rw [split, List.length_cons, Nat.succ_mul]
      omega

/-- A family whose counts stay at the bound reaches the total only when every
member does. -/
theorem upTo_flatten_lt {threshold : K} {bound : Nat} {samples : List (List K)}
    (each : ∀ sample ∈ samples, upTo threshold sample ≤ bound)
    {short : List K} (member : short ∈ samples)
    (missing : upTo threshold short < bound) :
    upTo threshold samples.flatten < samples.length * bound := by
  induction samples with
  | nil => cases member
  | cons sample samples induction =>
      have eachTail : ∀ other ∈ samples, upTo threshold other ≤ bound :=
        fun other inTail => each other (List.mem_cons_of_mem _ inTail)
      have split : upTo threshold (sample :: samples).flatten =
          upTo threshold sample + upTo threshold samples.flatten := by
        simp [upTo, List.countP_append]
      rw [split, List.length_cons, Nat.succ_mul]
      cases member with
      | head =>
          have tail := upTo_flatten_le eachTail
          omega
      | tail _ inTail =>
          have head := each sample List.mem_cons_self
          have tail := induction eachTail inTail
          omega

end Counts

theorem length_flatten_of_size {A : Type} {size : Nat} {samples : List (List A)}
    (sizes : ∀ sample ∈ samples, sample.length = size) :
    samples.flatten.length = samples.length * size := by
  induction samples with
  | nil => simp
  | cons sample samples induction =>
      have tail := induction fun other member => sizes other (List.mem_cons_of_mem _ member)
      have head := sizes sample List.mem_cons_self
      rw [List.flatten_cons, List.length_append, head, tail, List.length_cons, Nat.succ_mul]
      omega

section Ranks

variable {K : Type} [LinearOrder K] [Zero K]

/-- The value at a rank of the sorted sample; ranks start at zero. -/
def ranked (sample : List K) (rank : Nat) : K :=
  (sorted sample).getD rank 0

theorem ranked_eq_getElem {sample : List K} {rank : Nat} (inside : rank < sample.length) :
    ranked sample rank = (sorted sample).get ⟨rank, by simpa using inside⟩ := by
  simp [ranked, inside]

theorem ranked_mem {sample : List K} {rank : Nat} (inside : rank < sample.length) :
    ranked sample rank ∈ sample := by
  rw [ranked_eq_getElem inside]
  exact (sorted_perm sample).mem_iff.mp (List.getElem_mem _)

theorem ranked_mono {sample : List K} {rank later : Nat} (order : rank ≤ later)
    (inside : later < sample.length) :
    ranked sample rank ≤ ranked sample later := by
  rw [ranked_eq_getElem (by omega), ranked_eq_getElem inside]
  rcases Nat.eq_or_lt_of_le order with same | strict
  · subst same
    exact le_refl _
  · exact List.pairwise_iff_getElem.mp (sorted_pairwise sample) _ _ _ _ strict

theorem ranked_lt_iff {sample : List K} {rank : Nat} (inside : rank < sample.length)
    (threshold : K) :
    ranked sample rank < threshold ↔ rank < below threshold sample := by
  have test := accepted_iff_lt_countP (fun value => decide (value < threshold))
    (by
      intro small large order accepted
      exact decide_eq_true (order.trans_lt (of_decide_eq_true accepted)))
    (sorted_pairwise sample) rank (by simpa using inside)
  rw [ranked_eq_getElem inside, below, ← (sorted_perm sample).countP_eq]
  simpa using test

theorem ranked_le_iff {sample : List K} {rank : Nat} (inside : rank < sample.length)
    (threshold : K) :
    ranked sample rank ≤ threshold ↔ rank < upTo threshold sample := by
  have test := accepted_iff_lt_countP (fun value => decide (value ≤ threshold))
    (by
      intro small large order accepted
      exact decide_eq_true (order.trans (of_decide_eq_true accepted)))
    (sorted_pairwise sample) rank (by simpa using inside)
  rw [ranked_eq_getElem inside, upTo, ← (sorted_perm sample).countP_eq]
  simpa using test

theorem le_ranked_iff {sample : List K} {rank : Nat} (inside : rank < sample.length)
    (threshold : K) :
    threshold ≤ ranked sample rank ↔ below threshold sample ≤ rank := by
  rw [← not_lt, ranked_lt_iff inside, not_lt]

theorem lt_ranked_iff {sample : List K} {rank : Nat} (inside : rank < sample.length)
    (threshold : K) :
    threshold < ranked sample rank ↔ upTo threshold sample ≤ rank := by
  rw [← not_le, ranked_le_iff inside, not_lt]

end Ranks

section Median

variable {K : Type} [Field K] [LinearOrder K]

/-- The median of a nonempty sample. -/
def median (sample : List K) : K :=
  if sample.length % 2 = 1 then ranked sample (sample.length / 2)
  else (ranked sample (sample.length / 2 - 1) + ranked sample (sample.length / 2)) / (2 : ℕ)

theorem median_of_odd {sample : List K} {half : Nat} (size : sample.length = 2 * half + 1) :
    median sample = ranked sample half := by
  have odd : sample.length % 2 = 1 := by omega
  have middle : sample.length / 2 = half := by omega
  simp [median, odd, middle]

theorem median_of_even {sample : List K} {half : Nat}
    (size : sample.length = 2 * (half + 1)) :
    median sample = (ranked sample half + ranked sample (half + 1)) / 2 := by
  have even : ¬ sample.length % 2 = 1 := by omega
  simp [median, size]

variable [IsStrictOrderedRing K]

/-- The median lies between any bounds of the two middle ranks. -/
theorem le_median {sample : List K} (nonempty : sample ≠ []) {low : K}
    (middles : ∀ rank, (sample.length - 1) / 2 ≤ rank → rank ≤ sample.length / 2 →
      low ≤ ranked sample rank) :
    low ≤ median sample := by
  have positive := List.length_pos_of_ne_nil nonempty
  have upper : low ≤ ranked sample (sample.length / 2) := middles _ (by omega) (le_refl _)
  by_cases odd : sample.length % 2 = 1
  · simpa [median, odd] using upper
  · have lower : low ≤ ranked sample (sample.length / 2 - 1) :=
      middles _ (by omega) (by omega)
    rw [median, if_neg odd]
    linarith

theorem median_le {sample : List K} (nonempty : sample ≠ []) {high : K}
    (middles : ∀ rank, (sample.length - 1) / 2 ≤ rank → rank ≤ sample.length / 2 →
      ranked sample rank ≤ high) :
    median sample ≤ high := by
  have positive := List.length_pos_of_ne_nil nonempty
  have upper : ranked sample (sample.length / 2) ≤ high := middles _ (by omega) (le_refl _)
  by_cases odd : sample.length % 2 = 1
  · simpa [median, odd] using upper
  · have lower : ranked sample (sample.length / 2 - 1) ≤ high :=
      middles _ (by omega) (by omega)
    rw [median, if_neg odd]
    linarith

theorem le_median_of_forall {sample : List K} (nonempty : sample ≠ []) {low : K}
    (bound : ∀ value ∈ sample, low ≤ value) : low ≤ median sample := by
  have positive := List.length_pos_of_ne_nil nonempty
  apply le_median nonempty
  intro rank _ inside
  exact bound _ (ranked_mem (by omega))

theorem median_le_of_forall {sample : List K} (nonempty : sample ≠ []) {high : K}
    (bound : ∀ value ∈ sample, value ≤ high) : median sample ≤ high := by
  have positive := List.length_pos_of_ne_nil nonempty
  apply median_le nonempty
  intro rank _ inside
  exact bound _ (ranked_mem (by omega))

theorem sorted_neg (sample : List K) :
    sorted (sample.map Neg.neg) = ((sorted sample).map Neg.neg).reverse := by
  have reversed : (((sorted sample).map Neg.neg).reverse).Pairwise (· ≤ ·) := by
    rw [List.pairwise_reverse, List.pairwise_map]
    exact (sorted_pairwise sample).imp fun order => neg_le_neg order
  have perm : (sorted (sample.map Neg.neg)).Perm ((sorted sample).map Neg.neg).reverse :=
    (sorted_perm _).trans
      (((sorted_perm sample).map Neg.neg).symm.trans (List.reverse_perm _).symm)
  exact perm.eq_of_pairwise' (sorted_pairwise _) reversed

theorem ranked_neg {sample : List K} {rank : Nat} (inside : rank < sample.length) :
    ranked (sample.map Neg.neg) rank = - ranked sample (sample.length - 1 - rank) := by
  rw [ranked_eq_getElem (by simpa using inside), ranked_eq_getElem (by omega)]
  simp [sorted_neg]

theorem median_neg {sample : List K} (nonempty : sample ≠ []) :
    median (sample.map Neg.neg) = - median sample := by
  have positive := List.length_pos_of_ne_nil nonempty
  by_cases odd : sample.length % 2 = 1
  · have middle : sample.length - 1 - sample.length / 2 = sample.length / 2 := by omega
    have inside : sample.length / 2 < sample.length := by omega
    simp [median, odd, ranked_neg inside, middle]
  · have lower : sample.length - 1 - (sample.length / 2 - 1) = sample.length / 2 := by omega
    have upper : sample.length - 1 - sample.length / 2 = sample.length / 2 - 1 := by omega
    have lowerInside : sample.length / 2 - 1 < sample.length := by omega
    have upperInside : sample.length / 2 < sample.length := by omega
    simp only [median, List.length_map, if_neg odd, ranked_neg lowerInside,
      ranked_neg upperInside, lower, upper]
    ring

end Median

end Quantile

import Stoquant.Stats.Quantile

/-!
# Pooled medians

The median of the union of equally large samples lies between the smallest and
the largest of their own medians.
-/

namespace Quantile

variable {K : Type} [Field K] [LinearOrder K] [IsStrictOrderedRing K]

/-- Odd sizes: the middle value of each sample bounds how many of its values lie
below the threshold, and the pooled middle ranks are at least their total. -/
theorem le_median_flatten_odd {half : Nat} {samples : List (List K)} {low : K}
    (nonempty : samples ≠ []) (sizes : ∀ sample ∈ samples, sample.length = 2 * half + 1)
    (bound : ∀ sample ∈ samples, low ≤ median sample) :
    low ≤ median samples.flatten := by
  have family := List.length_pos_of_ne_nil nonempty
  have total : samples.flatten.length = 2 * (samples.length * half) + samples.length := by
    have pooled := length_flatten_of_size sizes
    rw [Nat.mul_add, Nat.mul_one, Nat.mul_left_comm] at pooled
    exact pooled
  have few : below low samples.flatten ≤ samples.length * half := by
    apply below_flatten_le
    intro sample member
    have middle := bound sample member
    rw [median_of_odd (sizes sample member)] at middle
    exact (le_ranked_iff (by rw [sizes sample member]; omega) low).mp middle
  have pooledNonempty : samples.flatten ≠ [] := by
    apply List.ne_nil_of_length_pos
    omega
  apply le_median pooledNonempty
  intro rank above inside
  apply (le_ranked_iff (by omega) low).mpr
  omega

/-- Even sizes.  Were the mean of the two pooled middle values `p ≤ q` below the
threshold, each sample would keep its lower middle above `p` or its upper middle
above `q`; both leave too few values at or below `p`, or at or below `q`. -/
theorem le_median_flatten_even {half : Nat} {samples : List (List K)} {low : K}
    (nonempty : samples ≠ []) (sizes : ∀ sample ∈ samples, sample.length = 2 * (half + 1))
    (bound : ∀ sample ∈ samples, low ≤ median sample) :
    low ≤ median samples.flatten := by
  have family := List.length_pos_of_ne_nil nonempty
  have total : samples.flatten.length = 2 * (samples.length * (half + 1)) := by
    have pooled := length_flatten_of_size sizes
    rw [Nat.mul_left_comm] at pooled
    exact pooled
  obtain ⟨rest, restEq⟩ : ∃ rest, samples.length * (half + 1) = rest + 1 := by
    apply Nat.exists_eq_succ_of_ne_zero
    exact Nat.mul_ne_zero (by omega) (by omega)
  rw [restEq] at total
  rw [median_of_even total]
  by_contra short
  have sumShort : ranked samples.flatten rest + ranked samples.flatten (rest + 1) < 2 * low := by
    linarith [not_le.mp short]
  have lowerInside : rest < samples.flatten.length := by omega
  have upperInside : rest + 1 < samples.flatten.length := by omega
  have manyLower : rest < upTo (ranked samples.flatten rest) samples.flatten :=
    (ranked_le_iff lowerInside _).mp (le_refl _)
  have manyUpper : rest + 1 < upTo (ranked samples.flatten (rest + 1)) samples.flatten :=
    (ranked_le_iff upperInside _).mp (le_refl _)
  have pooledOrder : ranked samples.flatten rest ≤ ranked samples.flatten (rest + 1) :=
    ranked_mono (Nat.le_succ rest) upperInside
  generalize ranked samples.flatten rest = p at *
  generalize ranked samples.flatten (rest + 1) = q at *
  have above : ∀ sample ∈ samples, p < ranked sample half ∨ q < ranked sample (half + 1) := by
    intro sample member
    have middle := bound sample member
    rw [median_of_even (sizes sample member)] at middle
    by_contra neither
    obtain ⟨lowerSmall, upperSmall⟩ := not_or.mp neither
    linarith [not_lt.mp lowerSmall, not_lt.mp upperSmall]
  have lowerCount : ∀ sample ∈ samples, p < ranked sample half → upTo p sample ≤ half :=
    fun sample member => (lt_ranked_iff (by rw [sizes sample member]; omega) p).mp
  have upperCount : ∀ sample ∈ samples, q < ranked sample (half + 1) →
      upTo q sample ≤ half + 1 :=
    fun sample member => (lt_ranked_iff (by rw [sizes sample member]; omega) q).mp
  have each : ∀ sample ∈ samples, upTo p sample ≤ half + 1 := by
    intro sample member
    rcases above sample member with lower | upper
    · exact (lowerCount sample member lower).trans (Nat.le_succ half)
    · exact (upTo_mono pooledOrder sample).trans (upperCount sample member upper)
  by_cases someLower : ∃ sample ∈ samples, p < ranked sample half
  · -- One sample is already short of values at or below `p`.
    obtain ⟨sample, member, lower⟩ := someLower
    have missing : upTo p sample < half + 1 := Nat.lt_succ_of_le (lowerCount sample member lower)
    have tooFew := upTo_flatten_lt each member missing
    omega
  · -- Every sample is short of values at or below `q`.
    have eachUpper : ∀ sample ∈ samples, upTo q sample ≤ half + 1 := by
      intro sample member
      rcases above sample member with lower | upper
      · exact absurd ⟨sample, member, lower⟩ someLower
      · exact upperCount sample member upper
    have tooFew := upTo_flatten_le eachUpper
    omega

/-- A lower bound of the medians of equally large samples bounds their pooled
median. -/
theorem le_median_flatten {size : Nat} {samples : List (List K)} {low : K}
    (nonempty : samples ≠ []) (positive : 0 < size)
    (sizes : ∀ sample ∈ samples, sample.length = size)
    (bound : ∀ sample ∈ samples, low ≤ median sample) :
    low ≤ median samples.flatten := by
  rcases Nat.even_or_odd' size with ⟨half, even | odd⟩
  · obtain ⟨lower, rfl⟩ : ∃ lower, half = lower + 1 :=
      Nat.exists_eq_succ_of_ne_zero (by omega)
    subst even
    exact le_median_flatten_even nonempty sizes bound
  · subst odd
    exact le_median_flatten_odd nonempty sizes bound

/-- An upper bound, by negating every value. -/
theorem median_flatten_le {size : Nat} {samples : List (List K)} {high : K}
    (nonempty : samples ≠ []) (positive : 0 < size)
    (sizes : ∀ sample ∈ samples, sample.length = size)
    (bound : ∀ sample ∈ samples, median sample ≤ high) :
    median samples.flatten ≤ high := by
  have sampleNonempty : ∀ sample ∈ samples, sample ≠ [] := by
    intro sample member
    apply List.ne_nil_of_length_pos
    rw [sizes sample member]
    exact positive
  have negated : -high ≤ median (samples.map (List.map Neg.neg)).flatten := by
    apply le_median_flatten (by simpa using nonempty) positive
    · intro sample member
      obtain ⟨original, inside, rfl⟩ := List.mem_map.mp member
      simpa using sizes original inside
    · intro sample member
      obtain ⟨original, inside, rfl⟩ := List.mem_map.mp member
      rw [median_neg (sampleNonempty original inside)]
      exact neg_le_neg (bound original inside)
  have pooledNonempty : samples.flatten ≠ [] := by
    apply List.ne_nil_of_length_pos
    rw [length_flatten_of_size sizes]
    exact Nat.mul_pos (List.length_pos_of_ne_nil nonempty) positive
  rw [← List.map_flatten, median_neg pooledNonempty] at negated
  exact neg_le_neg_iff.mp negated

end Quantile

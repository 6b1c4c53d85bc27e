import Stoquant.Rng.Philox

/-!
# Philox is a permutation

A round can be undone: its multipliers are odd, so the low half of a product gives
the factor back, and the other words come out of the `xor`.  Streams with different
identifiers or groups have different counters, so no two draws of a seed share a block.
-/

namespace Stoquant

/-! ## One round -/

/-- The inverse of `philoxM4x32_0` modulo `2 ^ 32`. -/
def philoxM4x32_0Inverse : Word := 0x991A7CDB#32

/-- The inverse of `philoxM4x32_1` modulo `2 ^ 32`. -/
def philoxM4x32_1Inverse : Word := 0x6D7CAE67#32

/-- The counter before a round. -/
def philox4x32unround (out : Philox4x32Ctr) (key : Philox4x32Key) : Philox4x32Ctr :=
  let v0 := philoxM4x32_0Inverse * out.v3
  let v2 := philoxM4x32_1Inverse * out.v1
  ⟨v0, (mulhilo32 philoxM4x32_1 v2).1 ^^^ (out.v0 ^^^ key.v0), v2,
    (mulhilo32 philoxM4x32_0 v0).1 ^^^ (out.v2 ^^^ key.v1)⟩

theorem mulhilo32_low (a b : Word) : (mulhilo32 a b).2 = a * b := by
  unfold mulhilo32
  dsimp only
  rw [BitVec.setWidth_mul _ _ (by norm_num)]
  simp

theorem inverse_mul_0 (a : Word) : philoxM4x32_0Inverse * (philoxM4x32_0 * a) = a := by
  have one : philoxM4x32_0Inverse * philoxM4x32_0 = 1#32 := by decide
  rw [← BitVec.mul_assoc, one, BitVec.one_mul]

theorem inverse_mul_1 (a : Word) : philoxM4x32_1Inverse * (philoxM4x32_1 * a) = a := by
  have one : philoxM4x32_1Inverse * philoxM4x32_1 = 1#32 := by decide
  rw [← BitVec.mul_assoc, one, BitVec.one_mul]

theorem mul_inverse_0 (a : Word) : philoxM4x32_0 * (philoxM4x32_0Inverse * a) = a := by
  have one : philoxM4x32_0 * philoxM4x32_0Inverse = 1#32 := by decide
  rw [← BitVec.mul_assoc, one, BitVec.one_mul]

theorem mul_inverse_1 (a : Word) : philoxM4x32_1 * (philoxM4x32_1Inverse * a) = a := by
  have one : philoxM4x32_1 * philoxM4x32_1Inverse = 1#32 := by decide
  rw [← BitVec.mul_assoc, one, BitVec.one_mul]

theorem philox4x32round_eq (ctr : Philox4x32Ctr) (key : Philox4x32Key) :
    philox4x32round ctr key =
      ⟨(mulhilo32 philoxM4x32_1 ctr.v2).1 ^^^ ctr.v1 ^^^ key.v0, philoxM4x32_1 * ctr.v2,
        (mulhilo32 philoxM4x32_0 ctr.v0).1 ^^^ ctr.v3 ^^^ key.v1, philoxM4x32_0 * ctr.v0⟩ := by
  rw [← mulhilo32_low, ← mulhilo32_low]
  rfl

/-- What was mixed in with `xor` comes out again. -/
theorem xor_cancel (high word key : Word) : high ^^^ (high ^^^ word ^^^ key ^^^ key) = word := by
  rw [BitVec.xor_assoc, BitVec.xor_self, BitVec.xor_zero, ← BitVec.xor_assoc, BitVec.xor_self,
    BitVec.zero_xor]

theorem xor_restore (high word key : Word) : high ^^^ (high ^^^ (word ^^^ key)) ^^^ key = word := by
  rw [← BitVec.xor_assoc, BitVec.xor_self, BitVec.zero_xor, BitVec.xor_assoc, BitVec.xor_self,
    BitVec.xor_zero]

theorem philox4x32unround_round (ctr : Philox4x32Ctr) (key : Philox4x32Key) :
    philox4x32unround (philox4x32round ctr key) key = ctr := by
  rw [philox4x32round_eq, philox4x32unround]
  dsimp only
  rw [inverse_mul_0, inverse_mul_1, xor_cancel, xor_cancel]

theorem philox4x32round_unround (out : Philox4x32Ctr) (key : Philox4x32Key) :
    philox4x32round (philox4x32unround out key) key = out := by
  rw [philox4x32round_eq, philox4x32unround]
  dsimp only
  rw [mul_inverse_0, mul_inverse_1, xor_restore, xor_restore]

theorem philox4x32round_bijective (key : Philox4x32Key) :
    Function.Bijective (philox4x32round · key) :=
  Function.bijective_iff_has_inverse.mpr
    ⟨(philox4x32unround · key), fun ctr => philox4x32unround_round ctr key,
      fun out => philox4x32round_unround out key⟩

/-! ## All rounds -/

theorem bumpedRounds_bijective (rest : ℕ) (key : Philox4x32Key) :
    Function.Bijective fun ctr => (philox4x32bumpedRound^[rest] (ctr, key)).1 := by
  induction rest generalizing key with
  | zero => exact Function.bijective_id
  | succ rest ih =>
      have first := philox4x32round_bijective (philox4x32bumpkey key)
      exact (ih (philox4x32bumpkey key)).comp first

/-- For every key the rounds permute the counters. -/
theorem philox4x32R_bijective (rounds : ℕ) (key : Philox4x32Key) :
    Function.Bijective (philox4x32R rounds · key) := by
  cases rounds with
  | zero => exact Function.bijective_id
  | succ rest => exact (bumpedRounds_bijective rest key).comp (philox4x32round_bijective key)

/-! ## Streams -/

theorem halves_injective {x y : BitVec 64} (low : x.setWidth 32 = y.setWidth 32)
    (high : (x >>> 32).setWidth 32 = (y >>> 32).setWidth 32) : x = y := by
  apply BitVec.eq_of_toNat_eq
  have lowNat := congrArg BitVec.toNat low
  have highNat := congrArg BitVec.toNat high
  have xLt := x.isLt
  have yLt := y.isLt
  rw [BitVec.toNat_setWidth, BitVec.toNat_setWidth] at lowNat
  rw [BitVec.toNat_setWidth, BitVec.toNat_setWidth, BitVec.toNat_ushiftRight,
    BitVec.toNat_ushiftRight, Nat.shiftRight_eq_div_pow, Nat.shiftRight_eq_div_pow] at highNat
  omega

theorem sqPhiloxKey_injective {s s' : SqRngStream} (same : sqPhiloxKey s = sqPhiloxKey s') :
    s.seed = s'.seed := by
  obtain ⟨low, high⟩ := Philox4x32Key.mk.inj same
  exact halves_injective low high

theorem sqPhiloxCtr_injective {s s' : SqRngStream} {group group' : BitVec 64}
    (same : sqPhiloxCtr s group = sqPhiloxCtr s' group') :
    group = group' ∧ s.tensorId = s'.tensorId ∧ s.invocationId = s'.invocationId := by
  obtain ⟨low, high, tensorId, invocationId⟩ := Philox4x32Ctr.mk.inj same
  exact ⟨halves_injective low high, tensorId, invocationId⟩

/-- Identifiers are accepted where they fit in 32 bits, and then kept. -/
theorem sqRngStreamInit_eq_some {seed tensorId invocationId : BitVec 64} {s : SqRngStream}
    (accepted : sqRngStreamInit seed tensorId invocationId = some s) :
    s.seed = seed ∧ s.tensorId.setWidth 64 = tensorId ∧
      s.invocationId.setWidth 64 = invocationId := by
  have whole : ∀ id : BitVec 64, ¬ id.toNat > uint32Max →
      (id.setWidth 32).setWidth 64 = id := by
    intro id small
    apply BitVec.eq_of_toNat_eq
    unfold uint32Max at small
    rw [BitVec.toNat_setWidth, BitVec.toNat_setWidth]
    omega
  unfold sqRngStreamInit at accepted
  split at accepted
  · cases accepted
  · rename_i fits
    obtain ⟨tensorFits, invocationFits⟩ := not_or.mp fits
    obtain rfl := Option.some.inj accepted
    exact ⟨rfl, whole tensorId tensorFits, whole invocationId invocationFits⟩

theorem sqRngStreamInit_eq_none_iff {seed tensorId invocationId : BitVec 64} :
    sqRngStreamInit seed tensorId invocationId = none ↔
      tensorId.toNat > uint32Max ∨ invocationId.toNat > uint32Max := by
  unfold sqRngStreamInit
  split <;> simp [*]

theorem philoxBlock_toNat (s : SqRngStream) (group : BitVec 64) :
    philoxBlock s group.toNat =
      philox4x32R sqPhiloxRounds (sqPhiloxCtr s group) (sqPhiloxKey s) := by
  rw [philoxBlock, BitVec.ofNat_toNat, BitVec.setWidth_eq]

/-- For one seed different groups and identifiers give different blocks. -/
theorem philoxBlock_injective {seed tensorId invocationId tensorId' invocationId' : BitVec 64}
    {s s' : SqRngStream} {group group' : BitVec 64}
    (accepted : sqRngStreamInit seed tensorId invocationId = some s)
    (accepted' : sqRngStreamInit seed tensorId' invocationId' = some s')
    (same : philoxBlock s group.toNat = philoxBlock s' group'.toNat) :
    group = group' ∧ tensorId = tensorId' ∧ invocationId = invocationId' := by
  obtain ⟨seedEq, tensorEq, invocationEq⟩ := sqRngStreamInit_eq_some accepted
  obtain ⟨seedEq', tensorEq', invocationEq'⟩ := sqRngStreamInit_eq_some accepted'
  have key : sqPhiloxKey s = sqPhiloxKey s' := by
    unfold sqPhiloxKey
    rw [seedEq, seedEq']
  rw [philoxBlock_toNat, philoxBlock_toNat, key] at same
  have counters := (philox4x32R_bijective sqPhiloxRounds (sqPhiloxKey s')).injective same
  obtain ⟨groups, tensors, invocations⟩ := sqPhiloxCtr_injective counters
  refine ⟨groups, ?_, ?_⟩
  · rw [← tensorEq, ← tensorEq', tensors]
  · rw [← invocationEq, ← invocationEq', invocations]

end Stoquant

import SprdHal.Lib.Words

/-!
# Words as sets of slots

Bit `i` of a 32-bit word says whether slot `i` is taken. `Bitmask.Has` reads a word as the set of
its taken slots; setting a bit inserts into the set, clearing it removes from the set, and a
comparison with `2^n - 1` finds out whether the first `n` slots are all taken.
-/

namespace SprdHal.Lib.Bitmask

/-- The word with the bit of slot `i`. -/
def bit (i : Nat) : UInt32 := 1 <<< UInt32.ofNat i

/-- Slot `i` is taken. -/
def Has (m : UInt32) (i : Nat) : Prop := m.toNat.testBit i = true

instance (m : UInt32) (i : Nat) : Decidable (Has m i) :=
  inferInstanceAs (Decidable (m.toNat.testBit i = true))

variable {m : UInt32} {i j n : Nat}

theorem toNat_bit (hi : i < 32) : (bit i).toNat = 2 ^ i := by
  have hlt : i < UInt32.size := Nat.lt_trans hi (by decide)
  have hpow : 2 ^ i < 2 ^ 32 := Nat.pow_lt_pow_right (by decide) hi
  rw [bit, UInt32.toNat_shiftLeft, UInt32.toNat_ofNat_of_lt' hlt, Nat.mod_eq_of_lt hi,
    UInt32.toNat_one, Nat.one_shiftLeft, Nat.mod_eq_of_lt hpow]

theorem Has.lt (h : Has m i) : i < 32 := by
  by_contra hi
  have hbound : m.toNat < 2 ^ i :=
    Nat.lt_of_lt_of_le m.toNat_lt (Nat.pow_le_pow_right (by decide) (Nat.le_of_not_lt hi))
  exact Bool.false_ne_true ((Nat.testBit_lt_two_pow hbound).symm.trans h)

@[simp] theorem not_has_zero : ¬Has 0 i := by
  simp [Has]

/-- The test of a bit. -/
theorem and_bit_eq_zero (hi : i < 32) : m &&& bit i = 0 ↔ ¬Has m i := by
  rw [← UInt32.toNat_inj, UInt32.toNat_and, toNat_bit hi, Nat.and_two_pow]
  have hpos := Nat.two_pow_pos i
  cases htest : m.toNat.testBit i
  · simp [Has, htest]
  · simp [Has, htest]

/-- Setting a bit. -/
theorem has_or_bit (hi : i < 32) : Has (m ||| bit i) j ↔ j = i ∨ Has m j := by
  rw [Has, UInt32.toNat_or, toNat_bit hi, Nat.testBit_or, Nat.testBit_two_pow, Bool.or_eq_true,
    decide_eq_true_eq, or_comm, eq_comm]
  exact Iff.rfl

/-- Clearing a bit. -/
theorem has_and_not_bit (hi : i < 32) : Has (m &&& ~~~bit i) j ↔ j ≠ i ∧ Has m j := by
  by_cases hj : j < 32
  · have hnot : (~~~bit i).toNat.testBit j = !decide (i = j) := by
      rw [← UInt32.toNat_toBitVec, BitVec.testBit_toNat, UInt32.toBitVec_not, BitVec.getLsbD_not,
        ← BitVec.testBit_toNat, UInt32.toNat_toBitVec, toNat_bit hi, Nat.testBit_two_pow]
      simp [hj]
    rw [Has, UInt32.toNat_and, Nat.testBit_and, hnot, Bool.and_eq_true, Bool.not_eq_true',
      decide_eq_false_iff_not, and_comm, eq_comm (a := i)]
    exact Iff.rfl
  · constructor
    · intro h
      exact absurd h.lt hj
    · intro h
      exact absurd h.2.lt hj

/-- Where only the first `n` slots are ever taken, the mask reaches `2^n - 1` exactly if they all
are. -/
theorem le_iff_full (hn : n < 32) (hm : ∀ i, Has m i → i < n) :
    bit n - 1 ≤ m ↔ ∀ i < n, Has m i := by
  have hone : (1 : UInt32) ≤ bit n := by
    rw [UInt32.le_iff_toNat_le, toNat_bit hn]
    exact Nat.one_le_two_pow
  have hsub : (bit n - 1).toNat = 2 ^ n - 1 := by
    rw [UInt32.toNat_sub_of_le _ _ hone, toNat_bit hn]
    rfl
  have hlt : m.toNat < 2 ^ n := by
    apply Nat.lt_pow_two_of_testBit
    intro i hi
    exact Bool.eq_false_iff.mpr fun h => Nat.not_lt.mpr hi (hm i h)
  rw [UInt32.le_iff_toNat_le, hsub]
  constructor
  · intro hle i hi
    have heq : m.toNat = 2 ^ n - 1 := by omega
    rw [Has, heq, Nat.testBit_two_pow_sub_one]
    exact decide_eq_true hi
  · intro hall
    have heq : m.toNat = 2 ^ n - 1 := by
      apply Nat.eq_of_testBit_eq
      intro i
      rw [Nat.testBit_two_pow_sub_one]
      by_cases hi : i < n
      · exact (hall i hi).trans (decide_eq_true hi).symm
      · rw [decide_eq_false hi]
        exact Bool.eq_false_iff.mpr fun h => hi (hm i h)
    exact Nat.le_of_eq heq.symm

end SprdHal.Lib.Bitmask

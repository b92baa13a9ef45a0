import Mathlib.Data.Nat.Bitwise
import Mathlib.Tactic.Common

/-!
# Rounding of 32-bit words

Masking the low bits of a word, as C code does it with `x & ~(2^k - 1)`, rounds it down to a multiple
of `2^k`; a sum and a product of words are those of the numbers where these fit.
-/

namespace SprdHal.Lib

/-- **Masking the low bits** of a word rounds it down. -/
theorem toNat_and_not {m : UInt32} {k : Nat} (hm : m.toNat = 2 ^ k - 1) (hk : k ≤ 32) (x : UInt32) :
    (x &&& ~~~m).toNat = x.toNat / 2 ^ k * 2 ^ k := by
  have hsize : UInt32.size - 1 - (2 ^ k - 1) = 2 ^ k * (2 ^ (32 - k) - 1) := by
    rw [Nat.mul_sub, ← pow_add, Nat.add_sub_cancel' hk]
    have hpos := Nat.one_le_two_pow (n := k)
    unfold UInt32.size
    omega
  rw [UInt32.toNat_and, UInt32.toNat_not, hm, hsize]
  apply Nat.eq_of_testBit_eq
  intro i
  rw [Nat.testBit_and, Nat.testBit_two_pow_mul, Nat.testBit_two_pow_sub_one, Nat.mul_comm,
    Nat.testBit_two_pow_mul, Nat.testBit_div_two_pow]
  by_cases hki : k ≤ i
  · rw [Nat.sub_add_cancel hki]
    by_cases hi : i < 32
    · simp [hki, show i - k < 32 - k by omega]
    · have hbound : x.toNat < 2 ^ i :=
        Nat.lt_of_lt_of_le x.toNat_lt (Nat.pow_le_pow_right (by decide) (Nat.le_of_not_lt hi))
      simp [hki, Nat.testBit_lt_two_pow hbound]
  · simp [hki]

theorem toNat_add_of_lt {x y : UInt32} (h : x.toNat + y.toNat < 2 ^ 32) :
    (x + y).toNat = x.toNat + y.toNat := by
  rw [UInt32.toNat_add, Nat.mod_eq_of_lt h]

theorem toNat_mul_of_lt {x y : UInt32} (h : x.toNat * y.toNat < 2 ^ 32) :
    (x * y).toNat = x.toNat * y.toNat := by
  rw [UInt32.toNat_mul, Nat.mod_eq_of_lt h]

theorem toNat_half (x : UInt32) : (x >>> 1).toNat = x.toNat / 2 := by
  rw [UInt32.toNat_shiftRight, Nat.shiftRight_eq_div_pow]
  rfl

theorem toNat_double {x : UInt32} (h : x.toNat * 2 < 2 ^ 32) : (x <<< 1).toNat = x.toNat * 2 := by
  rw [UInt32.toNat_shiftLeft, Nat.shiftLeft_eq]
  exact Nat.mod_eq_of_lt h

/-- A field above another one. -/
theorem toNat_shiftLeft_or {x y k : UInt32} (hk : k.toNat < 32) (hx : x.toNat < 2 ^ (32 - k.toNat))
    (hy : y.toNat < 2 ^ k.toNat) : (x <<< k ||| y).toNat = x.toNat * 2 ^ k.toNat + y.toNat := by
  have hfit : x.toNat * 2 ^ k.toNat < 2 ^ 32 := by
    calc x.toNat * 2 ^ k.toNat < 2 ^ (32 - k.toNat) * 2 ^ k.toNat :=
          Nat.mul_lt_mul_of_pos_right hx (Nat.two_pow_pos _)
      _ = 2 ^ 32 := by rw [← Nat.pow_add, Nat.sub_add_cancel (Nat.le_of_lt hk)]
  rw [UInt32.toNat_or, UInt32.toNat_shiftLeft, Nat.shiftLeft_eq, Nat.mod_eq_of_lt hk,
    Nat.mod_eq_of_lt hfit, Nat.mul_comm]
  exact (Nat.two_pow_add_eq_or_of_lt hy _).symm

end SprdHal.Lib

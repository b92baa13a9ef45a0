import Mathlib.Algebra.Ring.Nat
import Mathlib.Data.Nat.Basic
import Mathlib.Tactic.Common

/-!
# Rounding to a number of significant bits

A natural number in a floating-point format of `p` bits is rounded to the nearest number with `p`
significant bits, and to the even one of two that are equally near.
-/

namespace SprdHal

/-- `n` in a format with `p` bits of significand, where it does not overflow. -/
def roundBits (p n : Nat) : Nat :=
  let unit := 2 ^ (n.log2 + 1 - p)
  let q := n / unit
  let r := n % unit
  if 2 * r > unit ∨ 2 * r = unit ∧ q % 2 = 1 then (q + 1) * unit else q * unit

theorem roundBits_le_add (p n : Nat) : roundBits p n ≤ n + 2 ^ (n.log2 + 1 - p) / 2 := by
  unfold roundBits
  generalize 2 ^ (n.log2 + 1 - p) = unit
  have hdiv : n / unit * unit + n % unit = n := by
    rw [Nat.mul_comm]
    exact Nat.div_add_mod n unit
  simp only
  split
  · rename_i hup
    rw [Nat.add_mul, Nat.one_mul]
    omega
  · omega

/-- A number with at most `p` bits is kept. -/
theorem roundBits_of_lt {p n : Nat} (h : n.log2 < p) : roundBits p n = n := by
  unfold roundBits
  rw [Nat.sub_eq_zero_of_le h]
  simp [Nat.mod_one]

/-- What is added is small: at most one in `2 ^ p`. -/
theorem roundBits_le {p : Nat} (hp : 0 < p) (n : Nat) :
    2 ^ p * roundBits p n ≤ (2 ^ p + 1) * n := by
  rcases Nat.lt_or_ge n.log2 p with hlt | hge
  · rw [roundBits_of_lt hlt]
    exact Nat.mul_le_mul_right n (Nat.le_succ _)
  · have hn : n ≠ 0 := by
      rintro rfl
      rw [Nat.log2_zero] at hge
      omega
    have hhalf : 2 ^ (n.log2 + 1 - p) / 2 = 2 ^ (n.log2 - p) := by
      rw [Nat.sub_add_comm hge, Nat.pow_succ, Nat.mul_div_cancel _ (by decide)]
    calc 2 ^ p * roundBits p n ≤ 2 ^ p * (n + 2 ^ (n.log2 - p)) :=
          Nat.mul_le_mul_left _ (hhalf ▸ roundBits_le_add p n)
      _ = 2 ^ p * n + 2 ^ n.log2 := by
          rw [Nat.mul_add, ← Nat.pow_add, Nat.add_sub_cancel' hge]
      _ ≤ 2 ^ p * n + n := Nat.add_le_add_left (Nat.log2_self_le hn) _
      _ = (2 ^ p + 1) * n := by rw [Nat.add_mul, Nat.one_mul]

end SprdHal

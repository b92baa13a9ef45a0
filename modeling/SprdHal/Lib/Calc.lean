import Mathlib.Algebra.Order.Ring.Int
import Mathlib.Algebra.Ring.Nat
import Mathlib.Tactic.Common

/-!
# Calculations that note what goes wrong

Fixed-point code looks values up in tables, divides and stores words of a fixed width. A
`Calc` goes on with the value that the machine goes on with and notes each fault; an index outside
its table and a division by zero leave it without a value. `Calc.Ends` says which faults a
calculation may have and what its value is, and is put together by `Ends.bind`.
-/

namespace SprdHal.Lib

/-- What can go wrong in a calculation. -/
inductive Fault
  | index
  | divisor
  | overflow
  /-- A value that a narrower variable does not hold. -/
  | narrowed
  /-- A result that the place it is stored in does not hold. -/
  | stored
deriving DecidableEq

/-- The value of a calculation, unless it has none, and its faults. -/
structure Calc (α : Type) where
  val : Option α
  faults : List Fault
deriving DecidableEq

namespace Calc

variable {α β : Type}

instance : Monad Calc where
  pure a := ⟨some a, []⟩
  bind t f := match t.val with
    | none => ⟨none, t.faults⟩
    | some a => ⟨(f a).val, t.faults ++ (f a).faults⟩

theorem pure_eq (a : α) : (pure a : Calc α) = ⟨some a, []⟩ := rfl

@[simp] theorem val_pure (a : α) : (pure a : Calc α).val = some a := rfl

@[simp] theorem faults_pure (a : α) : (pure a : Calc α).faults = [] := rfl

theorem bind_of_val {t : Calc α} {a : α} (h : t.val = some a) (f : α → Calc β) :
    t >>= f = ⟨(f a).val, t.faults ++ (f a).faults⟩ := by
  obtain ⟨_, _⟩ := t
  cases h
  rfl

instance : LawfulMonad Calc := by
  refine LawfulMonad.mk' Calc (fun t => ?_) (fun _ _ => rfl) (fun t f g => ?_)
  · obtain ⟨v, l⟩ := t
    cases v with
    | none => rfl
    | some a => exact congrArg (Calc.mk _) (List.append_nil l)
  · obtain ⟨v, l⟩ := t
    cases v with
    | none => rfl
    | some a =>
      cases hfa : (f a).val with
      | none =>
        rw [bind_of_val (a := a) rfl, bind_of_val (a := a) rfl]
        simp only [bind, hfa]
      | some b =>
        rw [bind_of_val (a := a) rfl f, bind_of_val (t := ⟨_, l ++ _⟩) (a := b) hfa g,
          bind_of_val (a := a) rfl, bind_of_val hfa, List.append_assoc]

/-! ## The operations -/

/-- No value: the operation cannot be carried out. -/
def stuck (k : Fault) : Calc α := ⟨none, [k]⟩

/-- The entry of a table. -/
def look (table : List Nat) (i : Int) : Calc Int :=
  if 0 ≤ i ∧ i < table.length then pure (table.getD i.toNat 0) else stuck .index

/-- A value kept in a signed word with `m` values that are not negative. -/
def word (k : Fault) (m : Nat) (x : Int) : Calc Int :=
  ⟨some (x.bmod (2 * m)), if -m ≤ x ∧ x < m then [] else [k]⟩

/-- The value of a 32-bit expression. -/
def int32 (x : Int) : Calc Int := word .overflow 2147483648 x

/-- The value of a 64-bit expression. -/
def int64 (x : Int) : Calc Int := word .overflow 9223372036854775808 x

/-- A 16-bit variable. -/
def int16 (x : Int) : Calc Int := word .narrowed 32768 x

/-- A 16-bit result. -/
def store16 (x : Int) : Calc Int := word .stored 32768 x

/-- The quotient of two 32-bit values, rounded towards zero. -/
def quot (x y : Int) : Calc Int := if y = 0 then stuck .divisor else int32 (x.tdiv y)

/-- The quotient of two 64-bit values, rounded towards zero. -/
def quot64 (x y : Int) : Calc Int := if y = 0 then stuck .divisor else int64 (x.tdiv y)

/-- The arithmetic right shift, which rounds down. -/
def asr (x : Int) (n : Nat) : Int := x / (2 : Int) ^ n

theorem word_eq_pure {k : Fault} {m : Nat} {x : Int} (h : -m ≤ x ∧ x < m) :
    word k m x = pure x := by
  rw [word, if_pos h, Int.bmod_eq_of_le (by omega) (by omega)]
  rfl

theorem faults_word {k : Fault} {m : Nat} {x : Int} (h : ¬(-m ≤ x ∧ x < m)) :
    (word k m x).faults = [k] := if_neg h

theorem int32_eq_pure {x : Int} (h : -2147483648 ≤ x ∧ x < 2147483648) : int32 x = pure x :=
  word_eq_pure h

theorem int64_eq_pure {x : Int} (h : -9223372036854775808 ≤ x ∧ x < 9223372036854775808) :
    int64 x = pure x := word_eq_pure h

theorem int16_eq_pure {x : Int} (h : -32768 ≤ x ∧ x < 32768) : int16 x = pure x :=
  word_eq_pure h

theorem store16_eq_pure {x : Int} (h : -32768 ≤ x ∧ x < 32768) : store16 x = pure x :=
  word_eq_pure h

theorem look_eq_pure {table : List Nat} {i : Nat} (h : i < table.length) :
    look table i = pure (table.getD i 0 : Int) := by
  rw [look, if_pos (by omega), Int.toNat_natCast]

theorem look_eq_stuck {table : List Nat} {i : Int} (h : ¬(0 ≤ i ∧ i < table.length)) :
    look table i = stuck .index := if_neg h

theorem quot_eq_pure {x y : Int} (hy : y ≠ 0)
    (h : -2147483648 ≤ x.tdiv y ∧ x.tdiv y < 2147483648) : quot x y = pure (x.tdiv y) := by
  rw [quot, if_neg hy, int32_eq_pure h]

theorem quot64_eq_pure {x y : Int} (hy : y ≠ 0)
    (h : -9223372036854775808 ≤ x.tdiv y ∧ x.tdiv y < 9223372036854775808) :
    quot64 x y = pure (x.tdiv y) := by
  rw [quot64, if_neg hy, int64_eq_pure h]

/-! ## Values that are not negative -/

theorem int32_natCast {n : Nat} (h : n < 2147483648) : int32 (n : Int) = pure (n : Int) :=
  int32_eq_pure (by omega)

theorem int64_natCast {n : Nat} (h : n < 9223372036854775808) : int64 (n : Int) = pure (n : Int) :=
  int64_eq_pure (by omega)

theorem int32_neg_natCast {n : Nat} (h : n ≤ 2147483648) : int32 (-(n : Int)) = pure (-(n : Int)) :=
  int32_eq_pure (by omega)

theorem int16_natCast {n : Nat} (h : n < 32768) : int16 (n : Int) = pure (n : Int) :=
  int16_eq_pure (by omega)

theorem quot_natCast {m n : Nat} (hn : n ≠ 0) (hm : m < 2147483648) :
    quot (m : Int) n = pure ((m / n : Nat) : Int) := by
  have hle := Nat.div_le_self m n
  rw [quot, if_neg (by omega), ← Int.ofNat_tdiv, int32_natCast (by omega)]

theorem quot_neg_natCast {m n : Nat} (hn : n ≠ 0) (hm : m ≤ 2147483648) :
    quot (-(m : Int)) n = pure (-((m / n : Nat) : Int)) := by
  have hle := Nat.div_le_self m n
  rw [quot, if_neg (by omega), Int.neg_tdiv, ← Int.ofNat_tdiv, int32_neg_natCast (by omega)]

theorem asr_natCast (m n : Nat) : asr (m : Int) n = ((m / 2 ^ n : Nat) : Int) := by
  rw [asr, Int.natCast_ediv, Int.natCast_pow, Nat.cast_ofNat]

/-! ## Values within bounds -/

/-- The half of a value, rounded towards zero. -/
theorem tdiv_two (x : Int) : (0 ≤ x → x.tdiv 2 = x / 2) ∧ (x ≤ 0 → x.tdiv 2 = -(-x / 2)) := by
  refine ⟨Int.tdiv_eq_ediv_of_nonneg, fun h => ?_⟩
  rw [← Int.tdiv_eq_ediv_of_nonneg (a := -x) (by omega), Int.neg_tdiv, Int.neg_neg]

theorem tdiv_mem {x y m : Int} (hy : 0 < y) (h : -(m * y) ≤ x ∧ x ≤ m * y) :
    -m ≤ x.tdiv y ∧ x.tdiv y ≤ m := by
  have hlo := Int.tdiv_le_tdiv hy h.1
  have hhi := Int.tdiv_le_tdiv hy h.2
  rw [Int.neg_tdiv, Int.mul_tdiv_cancel m hy.ne'] at hlo
  rw [Int.mul_tdiv_cancel m hy.ne'] at hhi
  exact ⟨hlo, hhi⟩

theorem quot_of_bounded {x y m : Int} (hy : 0 < y) (hm : m < 2147483648)
    (h : -(m * y) ≤ x ∧ x ≤ m * y) : quot x y = pure (x.tdiv y) := by
  have := tdiv_mem hy h
  exact quot_eq_pure (by omega) (by omega)

theorem quot64_of_bounded {x y m : Int} (hy : 0 < y) (hm : m < 9223372036854775808)
    (h : -(m * y) ≤ x ∧ x ≤ m * y) : quot64 x y = pure (x.tdiv y) := by
  have := tdiv_mem hy h
  exact quot64_eq_pure (by omega) (by omega)

theorem mul_mem {x y m n : Int} (hx : -m ≤ x ∧ x ≤ m) (hy : 0 ≤ y ∧ y ≤ n) :
    -(m * n) ≤ x * y ∧ x * y ≤ m * n := by
  have hm : 0 ≤ m := by omega
  have hmn : m * y ≤ m * n := Int.mul_le_mul_of_nonneg_left hy.2 hm
  have hhi : x * y ≤ m * y := Int.mul_le_mul_of_nonneg_right hx.2 hy.1
  have hlo : -m * y ≤ x * y := Int.mul_le_mul_of_nonneg_right hx.1 hy.1
  rw [Int.neg_mul] at hlo
  omega

/-! ## Faults of a sequence -/

theorem mem_faults_bind_left {t : Calc α} {k : Fault} (h : k ∈ t.faults) (f : α → Calc β) :
    k ∈ (t >>= f).faults := by
  obtain ⟨v, l⟩ := t
  cases v with
  | none => exact h
  | some a => exact List.mem_append_left _ h

theorem val_bind_of_none {t : Calc α} (h : t.val = none) (f : α → Calc β) :
    (t >>= f).val = none := by
  obtain ⟨v, l⟩ := t
  cases h
  rfl

theorem mem_faults_bind_right {t : Calc α} {a : α} {k : Fault} {f : α → Calc β}
    (ht : t.val = some a) (h : k ∈ (f a).faults) : k ∈ (t >>= f).faults := by
  rw [bind_of_val ht]
  exact List.mem_append_right _ h

end Calc

end SprdHal.Lib

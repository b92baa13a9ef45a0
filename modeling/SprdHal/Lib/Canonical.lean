import Mathlib.Algebra.Ring.Nat
import Mathlib.Data.Nat.Basic
import Mathlib.Tactic.Common

/-!
# Canonical prefix codes

A canonical code is given by the number `c l` of its words of every length `l`. The words are numbers
with that many bits, and the symbols are counted in the order of their words: the words of a length
are consecutive, and the first of them is twice what follows the last word that is one bit shorter.

A decoder reads bit after bit until what it has read is not larger than the last word of that length
(`decode`). It finds every symbol from its word, whatever comes behind it (`decode_codeword`), so that
no word is the beginning of another one (`codeword_isPrefix`). The sum of Kraft tells whether the
words fit into their lengths (`firstCode_add_lt`).
-/

namespace SprdHal.Canonical

/-! ## The words -/

section words

variable (c : Nat → Nat)

/-- The first word of a length. -/
def firstCode : Nat → Nat
  | 0 => 0
  | l + 1 => 2 * (firstCode l + c l)

/-- The first symbol with a word of a length. -/
def firstIndex : Nat → Nat
  | 0 => 0
  | l + 1 => firstIndex l + c l

/-- The sum of Kraft over the lengths below `l`, in words of `n` bits. -/
def kraftSum (n : Nat) : Nat → Nat
  | 0 => 0
  | l + 1 => kraftSum n l + c l * 2 ^ (n - l)

variable {c}

/-- A longer word comes behind all shorter ones. -/
theorem firstCode_add_mul_le {j : Nat} : ∀ {l : Nat}, j < l →
    (firstCode c j + c j) * 2 ^ (l - j) ≤ firstCode c l := by
  intro l hjl
  induction l with
  | zero => exact absurd hjl (Nat.not_lt_zero j)
  | succ l ih =>
    rcases Nat.lt_succ_iff_lt_or_eq.1 hjl with hlt | rfl
    · calc (firstCode c j + c j) * 2 ^ (l + 1 - j)
          = 2 * ((firstCode c j + c j) * 2 ^ (l - j)) := by
            rw [Nat.succ_sub (Nat.le_of_lt hlt), Nat.pow_succ]
            ac_rfl
        _ ≤ 2 * (firstCode c l + c l) :=
            Nat.mul_le_mul_left 2 (Nat.le_trans (ih hlt) (Nat.le_add_right _ _))
    · rw [Nat.add_sub_cancel_left, Nat.pow_one, Nat.mul_comm]
      exact Nat.le_refl _

theorem kraftSum_succ (n : Nat) : ∀ {l : Nat}, l ≤ n →
    (firstCode c l + c l) * 2 ^ (n - l) = kraftSum c n (l + 1) := by
  intro l hl
  induction l with
  | zero => simp [firstCode, kraftSum]
  | succ l ih =>
    have hpow : 2 ^ (n - l) = 2 * 2 ^ (n - (l + 1)) := by
      rw [← Nat.pow_succ', show n - l = (n - (l + 1)).succ by omega]
    rw [kraftSum, ← ih (Nat.le_of_succ_le hl), hpow, firstCode, Nat.add_mul]
    ac_rfl

theorem kraftSum_mono {n l m : Nat} (h : l ≤ m) : kraftSum c n l ≤ kraftSum c n m := by
  induction h with
  | refl => exact Nat.le_refl _
  | step _ ih => exact Nat.le_trans ih (Nat.le_add_right _ _)

/-- If the sum leaves a word of `n` bits over, every length has a word left over. -/
theorem firstCode_add_lt {n l : Nat} (h : kraftSum c n (n + 1) < 2 ^ n) (hl : l ≤ n) :
    firstCode c l + c l < 2 ^ l := by
  have hsum : (firstCode c l + c l) * 2 ^ (n - l) < 2 ^ l * 2 ^ (n - l) := by
    rw [kraftSum_succ n hl, ← Nat.pow_add, Nat.add_sub_cancel' hl]
    exact Nat.lt_of_le_of_lt (kraftSum_mono (Nat.succ_le_succ hl)) h
  exact Nat.lt_of_mul_lt_mul_right hsum

theorem firstIndex_mono {l m : Nat} (h : l ≤ m) : firstIndex c l ≤ firstIndex c m := by
  induction h with
  | refl => exact Nat.le_refl _
  | step _ ih => exact Nat.le_trans ih (Nat.le_add_right _ _)

/-- Every symbol has its length. -/
theorem exists_of_lt_firstIndex {k : Nat} : ∀ {n : Nat}, k < firstIndex c n →
    ∃ l < n, ∃ i < c l, k = firstIndex c l + i := by
  intro n hk
  induction n with
  | zero => exact absurd hk (Nat.not_lt_zero k)
  | succ n ih =>
    rcases Nat.lt_or_ge k (firstIndex c n) with hlt | hge
    · obtain ⟨l, hl, i, hi, hkl⟩ := ih hlt
      exact ⟨l, Nat.lt_succ_of_lt hl, i, hi, hkl⟩
    · rw [firstIndex] at hk
      exact ⟨n, Nat.lt_succ_self n, k - firstIndex c n, by omega, by omega⟩

/-- Without shorter words the first word is zero. -/
theorem firstCode_eq_zero : ∀ {l : Nat}, firstIndex c l = 0 → firstCode c l = 0 := by
  intro l h
  induction l with
  | zero => rfl
  | succ l ih =>
    obtain ⟨hl, hc⟩ := Nat.add_eq_zero_iff.1 h
    rw [firstCode, ih hl, hc]

end words

/-! ## Bits -/

/-- The lowest `l` bits of a number, the highest one first. -/
def codeBits : Nat → Nat → List Bool
  | 0, _ => []
  | l + 1, v => codeBits l (v / 2) ++ [decide (v % 2 = 1)]

/-! ## Decoding -/

section decoding

variable (active : Nat → Bool) (maxCode base first : Nat → Nat)

/-- Read bits behind the `l` bits of `p`, until there is a word: the symbol and what follows. -/
def decode : Nat → Nat → List Bool → Option (Nat × List Bool)
  | _, _, [] => none
  | l, p, b :: bs =>
    let p := 2 * p + b.toNat
    if active (l + 1) ∧ p ≤ maxCode (l + 1) then
      some (base (l + 1) + (p - first (l + 1)), bs)
    else decode (l + 1) p bs

variable {active maxCode base first}

theorem two_mul_add_bit (v : Nat) : 2 * (v / 2) + (decide (v % 2 = 1)).toNat = v := by
  rcases Nat.mod_two_eq_zero_or_one v with h | h
  · simp [h]
    omega
  · simp [h]
    omega

/-- As long as no word ends, the bits are collected. -/
theorem decode_skip {m : Nat} : ∀ {v : Nat} (rest : List Bool), v < 2 ^ m →
    (∀ j, 0 < j → j ≤ m → active j → maxCode j < v / 2 ^ (m - j)) →
    decode active maxCode base first 0 0 (codeBits m v ++ rest) =
      decode active maxCode base first m v rest := by
  induction m with
  | zero =>
    intro v rest hv _
    rw [Nat.lt_one_iff.1 hv]
    rfl
  | succ m ih =>
    intro v rest hv hskip
    have hhalf : ∀ j, 0 < j → j ≤ m → active j → maxCode j < v / 2 / 2 ^ (m - j) := by
      intro j hpos hj hactive
      have h := hskip j hpos (Nat.le_succ_of_le hj) hactive
      rwa [Nat.succ_sub hj, Nat.pow_succ', ← Nat.div_div_eq_div_mul] at h
    rw [codeBits, List.append_assoc, ih _ (by omega) hhalf, List.singleton_append, decode,
      two_mul_add_bit, if_neg]
    rintro ⟨hactive, hle⟩
    have h := hskip (m + 1) m.succ_pos (Nat.le_refl _) hactive
    rw [Nat.sub_self, Nat.pow_zero, Nat.div_one] at h
    omega

variable {c : Nat → Nat}

/-- What a decoder has to know of the code: the lengths with words, their last words, and the first
symbols and words. -/
structure Decodes (c : Nat → Nat) (active : Nat → Bool) (maxCode base first : Nat → Nat) : Prop where
  active_iff : ∀ l, active l = true ↔ 0 < c l
  maxCode_eq : ∀ l, 0 < c l → maxCode l + 1 = firstCode c l + c l
  base_eq : ∀ l, 0 < c l → base l = firstIndex c l
  first_eq : ∀ l, 0 < c l → first l = firstCode c l

variable {l i : Nat}

/-- The word of a symbol is decoded to the symbol. -/
theorem Decodes.decode_codeword (h : Decodes c active maxCode base first) (hl : 0 < l)
    (hi : i < c l) (hfit : firstCode c l + c l ≤ 2 ^ l) (rest : List Bool) :
    decode active maxCode base first 0 0 (codeBits l (firstCode c l + i) ++ rest) =
      some (firstIndex c l + i, rest) := by
  obtain ⟨m, rfl⟩ : ∃ m, l = m + 1 := Nat.exists_eq_succ_of_ne_zero (Nat.ne_of_gt hl)
  have hpos : 0 < c (m + 1) := Nat.zero_lt_of_lt hi
  have hv : firstCode c (m + 1) + i < 2 * 2 ^ m := by
    rw [← Nat.pow_succ']
    omega
  -- shorter words are smaller than the beginning of this one
  have hskip : ∀ j, 0 < j → j ≤ m → active j →
      maxCode j < (firstCode c (m + 1) + i) / 2 / 2 ^ (m - j) := by
    intro j _ hj hactive
    have hmax := h.maxCode_eq j ((h.active_iff j).1 hactive)
    rw [Nat.lt_iff_add_one_le, hmax, Nat.div_div_eq_div_mul, ← Nat.pow_succ',
      Nat.le_div_iff_mul_le (Nat.two_pow_pos _), ← Nat.succ_sub hj]
    exact Nat.le_trans (firstCode_add_mul_le (Nat.lt_succ_of_le hj)) (Nat.le_add_right _ _)
  rw [codeBits, List.append_assoc, decode_skip _ (by omega) hskip, List.singleton_append, decode,
    two_mul_add_bit, if_pos, h.base_eq _ hpos, h.first_eq _ hpos, Nat.add_sub_cancel_left]
  have hmax := h.maxCode_eq _ hpos
  exact ⟨(h.active_iff _).2 hpos, by omega⟩

/-- A word that another word begins with is the same symbol's. -/
theorem Decodes.codeword_isPrefix (h : Decodes c active maxCode base first) {l' i' : Nat}
    (hl : 0 < l) (hi : i < c l) (hfit : firstCode c l + c l ≤ 2 ^ l) (hl' : 0 < l') (hi' : i' < c l')
    (hfit' : firstCode c l' + c l' ≤ 2 ^ l')
    (hbegin : codeBits l (firstCode c l + i) <+: codeBits l' (firstCode c l' + i')) :
    firstIndex c l + i = firstIndex c l' + i' := by
  obtain ⟨t, ht⟩ := hbegin
  have hdecode := h.decode_codeword hl hi hfit t
  have hdecode' := h.decode_codeword hl' hi' hfit' []
  rw [List.append_nil, ← ht, hdecode, Option.some.injEq, Prod.mk.injEq] at hdecode'
  exact hdecode'.1

end decoding

end SprdHal.Canonical

import Mathlib.Data.List.Basic
import Mathlib.Tactic.Common

/-!
# Reflected cyclic redundancy checks

A reflected CRC keeps the remainder with the coefficient of its highest power in the lowest bit, and
divides bit by bit: `shift` is one step of the division, and `feed` takes the bits of a message in
the order in which they are sent, the least significant bit of a byte first.

Everything rests on two facts about a step. It is linear in exclusive or, so that errors can be
looked at without the message they fall on (`feed_xor`), and it loses nothing, since the polynomial
has a constant term (`shift_eq_zero`). Up to `w` bits may be added to the remainder all at once
before the shifts (`feed_eq_shifts`), which is why tables work, why a message followed by its
remainder leaves 0, and why an error of at most `w` bits in a row never does (`feed_burst_ne_zero`).
-/

namespace SprdHal.Lib

/-- A polynomial of degree `w` without its highest power, reflected; its constant term, here the
highest bit, is 1. -/
structure Crc (w : Nat) where
  poly : BitVec w
  msb_poly : poly.msb = true

namespace Crc

variable {w : Nat} (g : Crc w)

/-- One step of the division. -/
def shift (c : BitVec w) : BitVec w :=
  if c.getLsbD 0 then (c >>> 1) ^^^ g.poly else c >>> 1

def shifts : Nat → BitVec w → BitVec w
  | 0, c => c
  | n + 1, c => shifts n (g.shift c)

/-! ## A step is linear and loses nothing -/

/-- The polynomial cancels where both sides subtract it. -/
theorem xor_cancel_right (a b p : BitVec w) : (a ^^^ p) ^^^ (b ^^^ p) = a ^^^ b := by
  apply BitVec.eq_of_getLsbD_eq
  intro i _
  simp only [BitVec.getLsbD_xor]
  cases a.getLsbD i <;> cases b.getLsbD i <;> cases p.getLsbD i <;> rfl

theorem shift_xor (a b : BitVec w) : g.shift (a ^^^ b) = g.shift a ^^^ g.shift b := by
  unfold shift
  rw [BitVec.getLsbD_xor, BitVec.ushiftRight_xor_distrib]
  cases a.getLsbD 0 <;> cases b.getLsbD 0
  · rfl
  · exact BitVec.xor_assoc _ _ _
  · show a >>> 1 ^^^ b >>> 1 ^^^ g.poly = (a >>> 1 ^^^ g.poly) ^^^ b >>> 1
    rw [BitVec.xor_assoc, BitVec.xor_comm (b >>> 1), BitVec.xor_assoc]
  · exact (xor_cancel_right _ _ _).symm

theorem shift_zero : g.shift 0 = 0 := by
  rw [shift, if_neg (by simp)]
  simp

/-- The highest bit of the result tells whether the polynomial was subtracted. -/
theorem shift_eq_zero {c : BitVec w} (h : g.shift c = 0) : c = 0 := by
  have hw : 0 < w := by
    by_contra hw
    obtain rfl : w = 0 := by omega
    have := g.msb_poly
    simp [BitVec.of_length_zero] at this
  have hpoly : g.poly.getLsbD (w - 1) = true := by rw [← BitVec.msb_eq_getLsbD_last, g.msb_poly]
  have hlow : c.getLsbD 0 = false := by
    cases hc : c.getLsbD 0 with
    | false => rfl
    | true =>
      rw [shift, if_pos hc] at h
      have hbit := congrArg (·.getLsbD (w - 1)) h
      have hout : c.getLsbD (1 + (w - 1)) = false := BitVec.getLsbD_of_ge c _ (by omega)
      simp [hpoly, hout] at hbit
  rw [shift, if_neg (by simp [hlow])] at h
  apply BitVec.eq_of_getLsbD_eq
  intro i _
  cases i with
  | zero => simpa using hlow
  | succ i =>
    have hbit := congrArg (·.getLsbD i) h
    simpa [Nat.add_comm] using hbit

theorem shifts_xor (n : Nat) (a b : BitVec w) : g.shifts n (a ^^^ b) = g.shifts n a ^^^ g.shifts n b := by
  induction n generalizing a b with
  | zero => rfl
  | succ n ih => rw [shifts, shift_xor, ih, shifts, shifts]

theorem shifts_eq_zero {n : Nat} {c : BitVec w} (h : g.shifts n c = 0) : c = 0 := by
  induction n generalizing c with
  | zero => exact h
  | succ n ih => exact g.shift_eq_zero (ih h)

/-- While the lowest bit is clear, nothing is subtracted. -/
theorem shifts_eq_ushiftRight {n : Nat} {c : BitVec w} (h : ∀ i, i < n → c.getLsbD i = false) :
    g.shifts n c = c >>> n := by
  induction n generalizing c with
  | zero => exact (BitVec.ushiftRight_zero c).symm
  | succ n ih =>
    have hstep : g.shift c = c >>> 1 := by rw [shift, if_neg (by simp [h 0 (Nat.succ_pos n)])]
    rw [shifts, hstep, ih, ← BitVec.shiftRight_add, Nat.add_comm]
    intro i hi
    rw [BitVec.getLsbD_ushiftRight]
    exact h _ (by omega)

/-- Only the low bits of a remainder need a table. -/
theorem shifts_split (n : Nat) (lo : BitVec w) {hi : BitVec w}
    (h : ∀ i, i < n → hi.getLsbD i = false) : g.shifts n (lo ^^^ hi) = g.shifts n lo ^^^ (hi >>> n) := by
  rw [shifts_xor, shifts_eq_ushiftRight g h]

/-! ## Bits one at a time -/

/-- Bits as a remainder, the first one lowest. -/
def word (bits : List Bool) : BitVec w := (BitVec.ofBoolListLE bits).setWidth w

theorem getLsbD_word (bits : List Bool) (i : Nat) :
    (word bits : BitVec w).getLsbD i = (decide (i < w) && bits.getD i false) := by
  rw [word, BitVec.getLsbD_setWidth, BitVec.getLsbD_ofBoolListLE]

/-- The division of a message, from the remainder `c`. -/
def feed (c : BitVec w) (bits : List Bool) : BitVec w :=
  bits.foldl (fun c b => g.shift (c ^^^ word [b])) c

@[simp] theorem feed_nil (c : BitVec w) : g.feed c [] = c := rfl

theorem feed_cons (c : BitVec w) (b : Bool) (bits : List Bool) :
    g.feed c (b :: bits) = g.feed (g.shift (c ^^^ word [b])) bits := rfl

theorem feed_append (c : BitVec w) (as bs : List Bool) :
    g.feed c (as ++ bs) = g.feed (g.feed c as) bs := List.foldl_append

theorem word_cons (b : Bool) (bits : List Bool) :
    (word (b :: bits) : BitVec w) = word [b] ^^^ (word bits <<< 1) := by
  apply BitVec.eq_of_getLsbD_eq
  intro i hi
  rw [BitVec.getLsbD_xor, BitVec.getLsbD_shiftLeft, getLsbD_word, getLsbD_word, getLsbD_word]
  cases i with
  | zero => simp [hi]
  | succ i => simp [hi, show i < w by omega]

theorem shift_word {bits : List Bool} (h : bits.length < w) :
    g.shift (word bits <<< 1) = word bits := by
  have hlow : (word bits <<< 1 : BitVec w).getLsbD 0 = false := by
    rw [BitVec.getLsbD_shiftLeft]
    simp
  rw [shift, if_neg (by simp [hlow])]
  apply BitVec.eq_of_getLsbD_eq
  intro i hi
  rw [BitVec.getLsbD_ushiftRight, BitVec.getLsbD_shiftLeft]
  have hidx : 1 + i - 1 = i := by omega
  by_cases hlast : 1 + i < w
  · rw [hidx, decide_eq_true hlast, decide_eq_false (by omega : ¬ 1 + i < 1)]
    rfl
  · have hout : bits.getD i false = false := by
      rw [List.getD_eq_getElem?_getD, List.getElem?_eq_none (by omega)]
      rfl
    rw [hidx, getLsbD_word, hout, Bool.and_false, Bool.and_false]

/-- **Up to `w` bits may be added to the remainder at once.** -/
theorem feed_eq_shifts (c : BitVec w) {bits : List Bool} (h : bits.length ≤ w) :
    g.feed c bits = g.shifts bits.length (c ^^^ word bits) := by
  induction bits generalizing c with
  | nil =>
    have hzero : (word [] : BitVec w) = 0 := by
      apply BitVec.eq_of_getLsbD_eq
      intro i _
      rw [getLsbD_word]
      simp
    rw [hzero]
    exact (BitVec.xor_zero).symm
  | cons b bits ih =>
    have hlt : bits.length < w := h
    rw [feed_cons, ih _ (Nat.le_of_lt hlt), List.length_cons, shifts, word_cons b bits,
      ← BitVec.xor_assoc, shift_xor g _ (word bits <<< 1), shift_word g hlt]

/-- The remainder of a sum of messages. -/
theorem feed_xor (c c' : BitVec w) {as bs : List Bool} (h : as.length = bs.length) :
    g.feed (c ^^^ c') (List.zipWith xor as bs) = g.feed c as ^^^ g.feed c' bs := by
  induction as generalizing c c' bs with
  | nil =>
    obtain rfl := List.length_eq_zero_iff.mp h.symm
    rfl
  | cons a as ih =>
    cases bs with
    | nil => cases h
    | cons b bs =>
      have hbit : (word [a ^^ b] : BitVec w) = word [a] ^^^ word [b] := by
        apply BitVec.eq_of_getLsbD_eq
        intro i hi
        rw [BitVec.getLsbD_xor, getLsbD_word, getLsbD_word, getLsbD_word]
        cases i <;> simp [hi]
      have hswap : (c ^^^ c') ^^^ (word [a] ^^^ word [b]) = (c ^^^ word [a]) ^^^ (c' ^^^ word [b]) := by
        ac_rfl
      rw [List.zipWith_cons_cons, feed_cons, hbit, hswap, shift_xor, ih _ _ (Nat.succ.inj h),
        feed_cons, feed_cons]

/-! ## Errors -/

theorem feed_of_all_false (c : BitVec w) {bits : List Bool} (h : true ∉ bits) :
    g.feed c bits = g.shifts bits.length c := by
  induction bits generalizing c with
  | nil => rfl
  | cons b bits ih =>
    rw [List.mem_cons, not_or] at h
    obtain rfl : b = false := by cases b <;> simp_all
    have hbit : (word [false] : BitVec w) = 0 := by
      apply BitVec.eq_of_getLsbD_eq
      intro i hi
      rw [getLsbD_word]
      cases i <;> simp
    have hzero : c ^^^ 0 = c := BitVec.xor_zero
    rw [feed_cons, hbit, hzero, ih _ h.2, List.length_cons, shifts]

theorem shifts_zero (n : Nat) : g.shifts n 0 = 0 := by
  induction n with
  | zero => rfl
  | succ n ih => rw [shifts, shift_zero, ih]

/-- **An error of at most `w` bits in a row leaves a remainder.** -/
theorem feed_burst_ne_zero {e : List Bool} {k : Nat} (hne : true ∈ e)
    (hspan : ∀ i : Nat, e[i]? = some true → k ≤ i ∧ i < k + w) : g.feed 0 e ≠ 0 := by
  intro h
  have hcut : e = e.take k ++ ((e.drop k).take w ++ e.drop (k + w)) := by
    rw [← List.drop_drop, List.take_append_drop, List.take_append_drop]
  have hpre : true ∉ e.take k := fun hmem => by
    obtain ⟨i, hi⟩ := List.mem_iff_getElem?.mp hmem
    have hlt : i < k := by
      have := (List.getElem?_eq_some_iff.mp hi).1
      rw [List.length_take] at this
      omega
    rw [List.getElem?_take_of_lt hlt] at hi
    have := hspan i hi
    omega
  have hpost : true ∉ e.drop (k + w) := fun hmem => by
    obtain ⟨i, hi⟩ := List.mem_iff_getElem?.mp hmem
    rw [List.getElem?_drop] at hi
    have := hspan _ hi
    omega
  -- the zeros in front leave the remainder 0, those behind cannot make it 0 again
  rw [hcut, feed_append, feed_append, feed_of_all_false g _ hpre, shifts_zero,
    feed_of_all_false g _ hpost] at h
  have hmid := g.shifts_eq_zero h
  rw [feed_eq_shifts g _ (List.length_take_le _ _)] at hmid
  have hword := g.shifts_eq_zero hmid
  have hzero : (0 : BitVec w) ^^^ word ((e.drop k).take w) = word ((e.drop k).take w) :=
    BitVec.zero_xor
  rw [hzero] at hword
  rw [hcut, List.mem_append, List.mem_append] at hne
  have hin := (hne.resolve_left hpre).resolve_right hpost
  obtain ⟨i, hi⟩ := List.mem_iff_getElem?.mp hin
  have hlt : i < w := by
    have := (List.getElem?_eq_some_iff.mp hi).1
    rw [List.length_take] at this
    omega
  have hbit := congrArg (·.getLsbD i) hword
  simp only [getLsbD_word, List.getD_eq_getElem?_getD, hi] at hbit
  simp [hlt] at hbit

end Crc

end SprdHal.Lib

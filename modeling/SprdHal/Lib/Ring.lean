import Mathlib.Data.List.Rotate
import Mathlib.Data.Nat.ModEq
import Mathlib.Tactic.Common

/-!
# Rings

A ring is a list of slots with a read position and a number of items; `ring` are the items in
order. An item is put into the slot behind the last one (`ring_push`) and taken from the slot at the
read position (`ring_pop`), and a slot outside the items may be overwritten (`ring_set`).
-/

namespace SprdHal.Lib

variable {α : Type}

/-- The `n` items from slot `r` on. -/
def ring (slots : List α) (r n : Nat) : List α := (slots.rotate r).take n

/-- The slot after slot `i` of `count`. -/
def ringNext (count i : Nat) : Nat := if i + 1 > count - 1 then 0 else i + 1

theorem ringNext_eq_mod {count i : Nat} (h : i < count) : ringNext count i = (i + 1) % count := by
  unfold ringNext
  split
  · have hlast : i + 1 = count := by omega
    rw [hlast, Nat.mod_self]
  · rw [Nat.mod_eq_of_lt (by omega)]

theorem ringNext_lt {count i : Nat} (h : i < count) : ringNext count i < count := by
  rw [ringNext_eq_mod h]
  exact Nat.mod_lt _ (by omega)

theorem length_ring {slots : List α} {n : Nat} (h : n ≤ slots.length) (r : Nat) :
    (ring slots r n).length = n := by
  rw [ring, List.length_take, List.length_rotate, Nat.min_eq_left h]

theorem getElem?_ring {slots : List α} {n k : Nat} (h : n ≤ slots.length) (hk : k < n) (r : Nat) :
    (ring slots r n)[k]? = slots[(k + r) % slots.length]? := by
  rw [ring, List.getElem?_take_of_lt hk, List.getElem?_rotate (by omega)]

/-- Two different offsets lead to two different slots. -/
theorem offset_ne {len r j k : Nat} (hj : j < len) (hk : k < len) (hne : j ≠ k) :
    (j + r) % len ≠ (k + r) % len := by
  intro h
  have hmod : j % len = k % len := Nat.ModEq.add_right_cancel' r h
  rw [Nat.mod_eq_of_lt hj, Nat.mod_eq_of_lt hk] at hmod
  exact hne hmod

/-- A slot outside the items. -/
theorem ring_set {slots : List α} {n d : Nat} (hn : n ≤ d) (hd : d < slots.length) (r : Nat)
    (x : α) : ring (slots.set ((d + r) % slots.length) x) r n = ring slots r n := by
  have hlen : (slots.set ((d + r) % slots.length) x).length = slots.length := List.length_set
  apply List.ext_getElem?
  intro k
  by_cases hk : k < n
  · have hne := offset_ne (r := r) hd (by omega : k < slots.length) (by omega)
    rw [getElem?_ring (by omega) hk, getElem?_ring (by omega) hk, hlen, List.getElem?_set_ne hne]
  · rw [List.getElem?_eq_none (by rw [length_ring (by omega)]; omega),
      List.getElem?_eq_none (by rw [length_ring (by omega)]; omega)]

/-- An item is put behind the others. -/
theorem ring_push {slots : List α} {n : Nat} (h : n < slots.length) (r : Nat) (x : α) :
    ring (slots.set ((n + r) % slots.length) x) r (n + 1) = ring slots r n ++ [x] := by
  have hlen : (slots.set ((n + r) % slots.length) x).length = slots.length := List.length_set
  have hslot : (n + r) % slots.length < slots.length := Nat.mod_lt _ (by omega)
  have hinit := ring_set (Nat.le_refl n) h r x
  unfold ring at hinit ⊢
  rw [List.take_add_one, hinit, List.getElem?_rotate (by omega), hlen,
    List.getElem?_set_self hslot]
  rfl

/-- The first item is taken. -/
theorem ring_pop {slots : List α} {r n : Nat} (hr : r < slots.length) (hn : n < slots.length) :
    ∃ x, slots[r]? = some x ∧ ring slots r (n + 1) = x :: ring slots ((r + 1) % slots.length) n := by
  refine ⟨slots[r], List.getElem?_eq_getElem hr, ?_⟩
  apply List.ext_getElem?
  intro k
  cases k with
  | zero =>
    rw [getElem?_ring (by omega) (Nat.succ_pos n), Nat.zero_add, Nat.mod_eq_of_lt hr,
      List.getElem?_eq_getElem hr]
    rfl
  | succ k =>
    rw [List.getElem?_cons_succ]
    by_cases hk : k < n
    · rw [getElem?_ring (by omega) (by omega), getElem?_ring (by omega) hk, Nat.add_mod_mod]
      congr 2
      omega
    · rw [List.getElem?_eq_none (by rw [length_ring (by omega)]; omega),
        List.getElem?_eq_none (by rw [length_ring (by omega)]; omega)]

end SprdHal.Lib

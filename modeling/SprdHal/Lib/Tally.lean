import Mathlib.Algebra.BigOperators.Group.Finset.Basic
import Mathlib.Data.Finset.Prod
import Mathlib.Data.List.ProdSigma

/-!
# Sums by class

A loop adds the value of each element to the accumulator of its class. In the end an accumulator has
grown by the values of its class (`foldl_tally`). Where the elements are those of a rectangle that
two nested loops walk through with a pointer, the loops are one fold over its cells (`walkRows_eq`).
-/

namespace SprdHal.Lib

/-! ## Accumulators -/

section Tally

variable {α κ M : Type*} [DecidableEq κ] [AddCommMonoid M] (cls : α → κ) (val : α → M)

/-- Add the value of an element to its class. -/
def tally (acc : κ → M) (x : α) : κ → M := Function.update acc (cls x) (acc (cls x) + val x)

theorem tally_apply (acc : κ → M) (x : α) (k : κ) :
    tally cls val acc x k = acc k + if cls x = k then val x else 0 := by
  by_cases h : cls x = k
  · rw [if_pos h, ← h, tally, Function.update_self]
  · rw [if_neg h, add_zero, tally, Function.update_of_ne (Ne.symm h)]

theorem foldl_tally (l : List α) (acc : κ → M) (k : κ) :
    l.foldl (tally cls val) acc k = acc k + (l.map fun x => if cls x = k then val x else 0).sum := by
  induction l generalizing acc with
  | nil => simp
  | cons x l ih => rw [List.foldl_cons, ih, tally_apply, List.map_cons, List.sum_cons, add_assoc]

/-- **The sum of a class**, for elements that are counted once. -/
theorem foldl_tally_finset [DecidableEq α] {l : List α} (h : l.Nodup) (acc : κ → M) (k : κ) :
    l.foldl (tally cls val) acc k = acc k + ∑ x ∈ l.toFinset with cls x = k, val x := by
  rw [foldl_tally, Finset.sum_filter, List.sum_toFinset _ h]

end Tally

/-! ## Rectangles -/

section Walk

variable {σ : Type*}

/-- A loop over `n` columns from the `j`-th on; its pointer goes on with them. -/
def walkRow (f : σ → Nat → Nat → σ) : Nat → Nat → Nat → σ → σ
  | 0, _, _, s => s
  | n + 1, j, p, s => walkRow f n (j + 1) (p + 1) (f s j p)

/-- A loop over `n` rows from the `i`-th on; its pointer goes on by `stride`. -/
def walkRows (f : σ → Nat → Nat → Nat → σ) (cols j stride : Nat) : Nat → Nat → Nat → σ → σ
  | 0, _, _, s => s
  | n + 1, i, p, s => walkRows f cols j stride n (i + 1) (p + stride)
      (walkRow (fun s => f s i) cols j p s)

/-- The cells of a rectangle, row by row. -/
def cells (rows cols : Nat) : List (Nat × Nat) := List.range rows ×ˢ List.range cols

theorem mem_cells {rows cols : Nat} {d : Nat × Nat} :
    d ∈ cells rows cols ↔ d.1 < rows ∧ d.2 < cols := by
  rw [cells, List.mem_product, List.mem_range, List.mem_range]

theorem nodup_cells (rows cols : Nat) : (cells rows cols).Nodup :=
  List.nodup_range.product List.nodup_range

theorem toFinset_cells (rows cols : Nat) :
    (cells rows cols).toFinset = Finset.range rows ×ˢ Finset.range cols := by
  ext d
  rw [List.mem_toFinset, mem_cells, Finset.mem_product, Finset.mem_range, Finset.mem_range]

theorem cells_succ (rows cols : Nat) :
    cells (rows + 1) cols =
      (List.range cols).map (Prod.mk 0) ++ (cells rows cols).map fun d => (d.1 + 1, d.2) := by
  simp only [cells, List.range_succ_eq_map, SProd.sprod, List.product, List.flatMap_cons,
    List.flatMap_map, List.map_flatMap, List.map_map]
  rfl

theorem walkRow_eq (f : σ → Nat → Nat → σ) (n j p : Nat) (s : σ) :
    walkRow f n j p s = (List.range n).foldl (fun s d => f s (j + d) (p + d)) s := by
  induction n generalizing j p s with
  | zero => rfl
  | succ n ih =>
    rw [walkRow, ih, List.range_succ_eq_map, List.foldl_cons, List.foldl_map]
    simp only [Nat.add_zero, Nat.succ_eq_add_one, Nat.add_assoc, Nat.add_comm 1]

/-- **The two loops** visit the cells row by row. -/
theorem walkRows_eq (f : σ → Nat → Nat → Nat → σ) (cols j stride rows i p : Nat) (s : σ) :
    walkRows f cols j stride rows i p s = (cells rows cols).foldl
      (fun s d => f s (i + d.1) (j + d.2) (p + d.1 * stride + d.2)) s := by
  induction rows generalizing i p s with
  | zero => rfl
  | succ rows ih =>
    rw [walkRows, ih, walkRow_eq, cells_succ, List.foldl_append, List.foldl_map, List.foldl_map]
    simp only [Nat.add_zero, Nat.zero_mul, Nat.succ_mul, Nat.add_assoc, Nat.add_comm 1,
      Nat.add_left_comm]

end Walk

end SprdHal.Lib

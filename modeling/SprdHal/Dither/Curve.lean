import Mathlib.Algebra.Ring.Nat
import Mathlib.Data.Fintype.Card
import Mathlib.Data.Fintype.Prod
import Mathlib.Tactic.Common

/-!
# The curve of the dither (`image_dither.cpp`)

A block of sixteen by sixteen pixels is visited along a Hilbert curve. The four curves are literal
tables; each visits every point of the block once (`point_injective`, `exists_point`).
-/

namespace SprdHal.Dither

/-- `BLK_WIDTH` -/
def blkWidth : Nat := 16

/-- `s_hilbert_curve`: for each curve, x and y of its points in turn. -/
def sHilbertCurve : Fin 4 → List Nat
  | 0 => [
    0, 0, 1, 0, 1, 1, 0, 1, 0, 2, 0, 3, 1, 3, 1, 2,
    2, 2, 2, 3, 3, 3, 3, 2, 3, 1, 2, 1, 2, 0, 3, 0,
    4, 0, 4, 1, 5, 1, 5, 0, 6, 0, 7, 0, 7, 1, 6, 1,
    6, 2, 7, 2, 7, 3, 6, 3, 5, 3, 5, 2, 4, 2, 4, 3,
    4, 4, 4, 5, 5, 5, 5, 4, 6, 4, 7, 4, 7, 5, 6, 5,
    6, 6, 7, 6, 7, 7, 6, 7, 5, 7, 5, 6, 4, 6, 4, 7,
    3, 7, 2, 7, 2, 6, 3, 6, 3, 5, 3, 4, 2, 4, 2, 5,
    1, 5, 1, 4, 0, 4, 0, 5, 0, 6, 1, 6, 1, 7, 0, 7,
    0, 8, 0, 9, 1, 9, 1, 8, 2, 8, 3, 8, 3, 9, 2, 9,
    2, 10, 3, 10, 3, 11, 2, 11, 1, 11, 1, 10, 0, 10, 0, 11,
    0, 12, 1, 12, 1, 13, 0, 13, 0, 14, 0, 15, 1, 15, 1, 14,
    2, 14, 2, 15, 3, 15, 3, 14, 3, 13, 2, 13, 2, 12, 3, 12,
    4, 12, 5, 12, 5, 13, 4, 13, 4, 14, 4, 15, 5, 15, 5, 14,
    6, 14, 6, 15, 7, 15, 7, 14, 7, 13, 6, 13, 6, 12, 7, 12,
    7, 11, 7, 10, 6, 10, 6, 11, 5, 11, 4, 11, 4, 10, 5, 10,
    5, 9, 4, 9, 4, 8, 5, 8, 6, 8, 6, 9, 7, 9, 7, 8,
    8, 8, 8, 9, 9, 9, 9, 8, 10, 8, 11, 8, 11, 9, 10, 9,
    10, 10, 11, 10, 11, 11, 10, 11, 9, 11, 9, 10, 8, 10, 8, 11,
    8, 12, 9, 12, 9, 13, 8, 13, 8, 14, 8, 15, 9, 15, 9, 14,
    10, 14, 10, 15, 11, 15, 11, 14, 11, 13, 10, 13, 10, 12, 11, 12,
    12, 12, 13, 12, 13, 13, 12, 13, 12, 14, 12, 15, 13, 15, 13, 14,
    14, 14, 14, 15, 15, 15, 15, 14, 15, 13, 14, 13, 14, 12, 15, 12,
    15, 11, 15, 10, 14, 10, 14, 11, 13, 11, 12, 11, 12, 10, 13, 10,
    13, 9, 12, 9, 12, 8, 13, 8, 14, 8, 14, 9, 15, 9, 15, 8,
    15, 7, 14, 7, 14, 6, 15, 6, 15, 5, 15, 4, 14, 4, 14, 5,
    13, 5, 13, 4, 12, 4, 12, 5, 12, 6, 13, 6, 13, 7, 12, 7,
    11, 7, 11, 6, 10, 6, 10, 7, 9, 7, 8, 7, 8, 6, 9, 6,
    9, 5, 8, 5, 8, 4, 9, 4, 10, 4, 10, 5, 11, 5, 11, 4,
    11, 3, 11, 2, 10, 2, 10, 3, 9, 3, 8, 3, 8, 2, 9, 2,
    9, 1, 8, 1, 8, 0, 9, 0, 10, 0, 10, 1, 11, 1, 11, 0,
    12, 0, 13, 0, 13, 1, 12, 1, 12, 2, 12, 3, 13, 3, 13, 2,
    14, 2, 14, 3, 15, 3, 15, 2, 15, 1, 14, 1, 14, 0, 15, 0]
  | 1 => [
    15, 15, 15, 14, 14, 14, 14, 15, 13, 15, 12, 15, 12, 14, 13, 14,
    13, 13, 12, 13, 12, 12, 13, 12, 14, 12, 14, 13, 15, 13, 15, 12,
    15, 11, 14, 11, 14, 10, 15, 10, 15, 9, 15, 8, 14, 8, 14, 9,
    13, 9, 13, 8, 12, 8, 12, 9, 12, 10, 13, 10, 13, 11, 12, 11,
    11, 11, 10, 11, 10, 10, 11, 10, 11, 9, 11, 8, 10, 8, 10, 9,
    9, 9, 9, 8, 8, 8, 8, 9, 8, 10, 9, 10, 9, 11, 8, 11,
    8, 12, 8, 13, 9, 13, 9, 12, 10, 12, 11, 12, 11, 13, 10, 13,
    10, 14, 11, 14, 11, 15, 10, 15, 9, 15, 9, 14, 8, 14, 8, 15,
    7, 15, 6, 15, 6, 14, 7, 14, 7, 13, 7, 12, 6, 12, 6, 13,
    5, 13, 5, 12, 4, 12, 4, 13, 4, 14, 5, 14, 5, 15, 4, 15,
    3, 15, 3, 14, 2, 14, 2, 15, 1, 15, 0, 15, 0, 14, 1, 14,
    1, 13, 0, 13, 0, 12, 1, 12, 2, 12, 2, 13, 3, 13, 3, 12,
    3, 11, 3, 10, 2, 10, 2, 11, 1, 11, 0, 11, 0, 10, 1, 10,
    1, 9, 0, 9, 0, 8, 1, 8, 2, 8, 2, 9, 3, 9, 3, 8,
    4, 8, 5, 8, 5, 9, 4, 9, 4, 10, 4, 11, 5, 11, 5, 10,
    6, 10, 6, 11, 7, 11, 7, 10, 7, 9, 6, 9, 6, 8, 7, 8,
    7, 7, 6, 7, 6, 6, 7, 6, 7, 5, 7, 4, 6, 4, 6, 5,
    5, 5, 5, 4, 4, 4, 4, 5, 4, 6, 5, 6, 5, 7, 4, 7,
    3, 7, 3, 6, 2, 6, 2, 7, 1, 7, 0, 7, 0, 6, 1, 6,
    1, 5, 0, 5, 0, 4, 1, 4, 2, 4, 2, 5, 3, 5, 3, 4,
    3, 3, 3, 2, 2, 2, 2, 3, 1, 3, 0, 3, 0, 2, 1, 2,
    1, 1, 0, 1, 0, 0, 1, 0, 2, 0, 2, 1, 3, 1, 3, 0,
    4, 0, 5, 0, 5, 1, 4, 1, 4, 2, 4, 3, 5, 3, 5, 2,
    6, 2, 6, 3, 7, 3, 7, 2, 7, 1, 6, 1, 6, 0, 7, 0,
    8, 0, 8, 1, 9, 1, 9, 0, 10, 0, 11, 0, 11, 1, 10, 1,
    10, 2, 11, 2, 11, 3, 10, 3, 9, 3, 9, 2, 8, 2, 8, 3,
    8, 4, 9, 4, 9, 5, 8, 5, 8, 6, 8, 7, 9, 7, 9, 6,
    10, 6, 10, 7, 11, 7, 11, 6, 11, 5, 10, 5, 10, 4, 11, 4,
    12, 4, 13, 4, 13, 5, 12, 5, 12, 6, 12, 7, 13, 7, 13, 6,
    14, 6, 14, 7, 15, 7, 15, 6, 15, 5, 14, 5, 14, 4, 15, 4,
    15, 3, 15, 2, 14, 2, 14, 3, 13, 3, 12, 3, 12, 2, 13, 2,
    13, 1, 12, 1, 12, 0, 13, 0, 14, 0, 14, 1, 15, 1, 15, 0]
  | 2 => [
    15, 15, 14, 15, 14, 14, 15, 14, 15, 13, 15, 12, 14, 12, 14, 13,
    13, 13, 13, 12, 12, 12, 12, 13, 12, 14, 13, 14, 13, 15, 12, 15,
    11, 15, 11, 14, 10, 14, 10, 15, 9, 15, 8, 15, 8, 14, 9, 14,
    9, 13, 8, 13, 8, 12, 9, 12, 10, 12, 10, 13, 11, 13, 11, 12,
    11, 11, 11, 10, 10, 10, 10, 11, 9, 11, 8, 11, 8, 10, 9, 10,
    9, 9, 8, 9, 8, 8, 9, 8, 10, 8, 10, 9, 11, 9, 11, 8,
    12, 8, 13, 8, 13, 9, 12, 9, 12, 10, 12, 11, 13, 11, 13, 10,
    14, 10, 14, 11, 15, 11, 15, 10, 15, 9, 14, 9, 14, 8, 15, 8,
    15, 7, 15, 6, 14, 6, 14, 7, 13, 7, 12, 7, 12, 6, 13, 6,
    13, 5, 12, 5, 12, 4, 13, 4, 14, 4, 14, 5, 15, 5, 15, 4,
    15, 3, 14, 3, 14, 2, 15, 2, 15, 1, 15, 0, 14, 0, 14, 1,
    13, 1, 13, 0, 12, 0, 12, 1, 12, 2, 13, 2, 13, 3, 12, 3,
    11, 3, 10, 3, 10, 2, 11, 2, 11, 1, 11, 0, 10, 0, 10, 1,
    9, 1, 9, 0, 8, 0, 8, 1, 8, 2, 9, 2, 9, 3, 8, 3,
    8, 4, 8, 5, 9, 5, 9, 4, 10, 4, 11, 4, 11, 5, 10, 5,
    10, 6, 11, 6, 11, 7, 10, 7, 9, 7, 9, 6, 8, 6, 8, 7,
    7, 7, 7, 6, 6, 6, 6, 7, 5, 7, 4, 7, 4, 6, 5, 6,
    5, 5, 4, 5, 4, 4, 5, 4, 6, 4, 6, 5, 7, 5, 7, 4,
    7, 3, 6, 3, 6, 2, 7, 2, 7, 1, 7, 0, 6, 0, 6, 1,
    5, 1, 5, 0, 4, 0, 4, 1, 4, 2, 5, 2, 5, 3, 4, 3,
    3, 3, 2, 3, 2, 2, 3, 2, 3, 1, 3, 0, 2, 0, 2, 1,
    1, 1, 1, 0, 0, 0, 0, 1, 0, 2, 1, 2, 1, 3, 0, 3,
    0, 4, 0, 5, 1, 5, 1, 4, 2, 4, 3, 4, 3, 5, 2, 5,
    2, 6, 3, 6, 3, 7, 2, 7, 1, 7, 1, 6, 0, 6, 0, 7,
    0, 8, 1, 8, 1, 9, 0, 9, 0, 10, 0, 11, 1, 11, 1, 10,
    2, 10, 2, 11, 3, 11, 3, 10, 3, 9, 2, 9, 2, 8, 3, 8,
    4, 8, 4, 9, 5, 9, 5, 8, 6, 8, 7, 8, 7, 9, 6, 9,
    6, 10, 7, 10, 7, 11, 6, 11, 5, 11, 5, 10, 4, 10, 4, 11,
    4, 12, 4, 13, 5, 13, 5, 12, 6, 12, 7, 12, 7, 13, 6, 13,
    6, 14, 7, 14, 7, 15, 6, 15, 5, 15, 5, 14, 4, 14, 4, 15,
    3, 15, 2, 15, 2, 14, 3, 14, 3, 13, 3, 12, 2, 12, 2, 13,
    1, 13, 1, 12, 0, 12, 0, 13, 0, 14, 1, 14, 1, 15, 0, 15]
  | 3 => [
    0, 0, 0, 1, 1, 1, 1, 0, 2, 0, 3, 0, 3, 1, 2, 1,
    2, 2, 3, 2, 3, 3, 2, 3, 1, 3, 1, 2, 0, 2, 0, 3,
    0, 4, 1, 4, 1, 5, 0, 5, 0, 6, 0, 7, 1, 7, 1, 6,
    2, 6, 2, 7, 3, 7, 3, 6, 3, 5, 2, 5, 2, 4, 3, 4,
    4, 4, 5, 4, 5, 5, 4, 5, 4, 6, 4, 7, 5, 7, 5, 6,
    6, 6, 6, 7, 7, 7, 7, 6, 7, 5, 6, 5, 6, 4, 7, 4,
    7, 3, 7, 2, 6, 2, 6, 3, 5, 3, 4, 3, 4, 2, 5, 2,
    5, 1, 4, 1, 4, 0, 5, 0, 6, 0, 6, 1, 7, 1, 7, 0,
    8, 0, 9, 0, 9, 1, 8, 1, 8, 2, 8, 3, 9, 3, 9, 2,
    10, 2, 10, 3, 11, 3, 11, 2, 11, 1, 10, 1, 10, 0, 11, 0,
    12, 0, 12, 1, 13, 1, 13, 0, 14, 0, 15, 0, 15, 1, 14, 1,
    14, 2, 15, 2, 15, 3, 14, 3, 13, 3, 13, 2, 12, 2, 12, 3,
    12, 4, 12, 5, 13, 5, 13, 4, 14, 4, 15, 4, 15, 5, 14, 5,
    14, 6, 15, 6, 15, 7, 14, 7, 13, 7, 13, 6, 12, 6, 12, 7,
    11, 7, 10, 7, 10, 6, 11, 6, 11, 5, 11, 4, 10, 4, 10, 5,
    9, 5, 9, 4, 8, 4, 8, 5, 8, 6, 9, 6, 9, 7, 8, 7,
    8, 8, 9, 8, 9, 9, 8, 9, 8, 10, 8, 11, 9, 11, 9, 10,
    10, 10, 10, 11, 11, 11, 11, 10, 11, 9, 10, 9, 10, 8, 11, 8,
    12, 8, 12, 9, 13, 9, 13, 8, 14, 8, 15, 8, 15, 9, 14, 9,
    14, 10, 15, 10, 15, 11, 14, 11, 13, 11, 13, 10, 12, 10, 12, 11,
    12, 12, 12, 13, 13, 13, 13, 12, 14, 12, 15, 12, 15, 13, 14, 13,
    14, 14, 15, 14, 15, 15, 14, 15, 13, 15, 13, 14, 12, 14, 12, 15,
    11, 15, 10, 15, 10, 14, 11, 14, 11, 13, 11, 12, 10, 12, 10, 13,
    9, 13, 9, 12, 8, 12, 8, 13, 8, 14, 9, 14, 9, 15, 8, 15,
    7, 15, 7, 14, 6, 14, 6, 15, 5, 15, 4, 15, 4, 14, 5, 14,
    5, 13, 4, 13, 4, 12, 5, 12, 6, 12, 6, 13, 7, 13, 7, 12,
    7, 11, 6, 11, 6, 10, 7, 10, 7, 9, 7, 8, 6, 8, 6, 9,
    5, 9, 5, 8, 4, 8, 4, 9, 4, 10, 5, 10, 5, 11, 4, 11,
    3, 11, 2, 11, 2, 10, 3, 10, 3, 9, 3, 8, 2, 8, 2, 9,
    1, 9, 1, 8, 0, 8, 0, 9, 0, 10, 1, 10, 1, 11, 0, 11,
    0, 12, 0, 13, 1, 13, 1, 12, 2, 12, 3, 12, 3, 13, 2, 13,
    2, 14, 3, 14, 3, 15, 2, 15, 1, 15, 1, 14, 0, 14, 0, 15]

/-- The point at place `i` of a curve. -/
def point (coorTbl : List Nat) (i : Fin 256) : Nat × Nat :=
  (coorTbl.getD (2 * i.val) 0, coorTbl.getD (2 * i.val + 1) 0)

/-- `_calc_offset_table`: the offset of a point in an image of the given width, cut to 16 bits. -/
def calcOffsetTable (coorTbl : List Nat) (width : Nat) (i : Fin 256) : UInt16 :=
  UInt16.ofNat ((point coorTbl i).2 * width + (point coorTbl i).1)

/-- The points of a table, in one number each. -/
def codes : List Nat → List Nat
  | x :: y :: rest => (y * blkWidth + x) :: codes rest
  | _ => []

/-- The set of the numbers of a list, as bits. -/
def bits (ns : List Nat) : Nat := ns.foldr (fun n acc => 1 <<< n ||| acc) 0

theorem testBit_bits (ns : List Nat) (k : Nat) : (bits ns).testBit k = true ↔ k ∈ ns := by
  induction ns with
  | nil => simp [bits]
  | cons n ns ih =>
    have hcons : bits (n :: ns) = 1 <<< n ||| bits ns := rfl
    rw [hcons, Nat.testBit_or, Bool.or_eq_true, ih, List.mem_cons, Nat.shiftLeft_eq, Nat.one_mul,
      Nat.testBit_two_pow, decide_eq_true_eq, eq_comm]

theorem codes_getElem? (tbl : List Nat) {i k : Nat} (h : (codes tbl)[i]? = some k) :
    k = tbl.getD (2 * i + 1) 0 * blkWidth + tbl.getD (2 * i) 0 := by
  fun_induction codes tbl generalizing i with
  | case1 x y rest ih =>
    cases i with
    | zero =>
      simp only [List.getElem?_cons_zero, Option.some.injEq] at h
      simp [← h]
    | succ i =>
      rw [List.getElem?_cons_succ] at h
      rw [ih h]
      rfl
  | case2 => exact nomatch h

theorem sHilbertCurve_lt (c : Fin 4) : (sHilbertCurve c).all (· < blkWidth) = true := by
  revert c
  decide +kernel

theorem sHilbertCurve_bits (c : Fin 4) :
    (codes (sHilbertCurve c)).length = 256 ∧ bits (codes (sHilbertCurve c)) = 2 ^ 256 - 1 := by
  revert c
  decide +kernel

/-- The points of a curve lie in the block. -/
theorem point_lt (c : Fin 4) (i : Fin 256) :
    (point (sHilbertCurve c) i).1 < blkWidth ∧ (point (sHilbertCurve c) i).2 < blkWidth := by
  have hall : ∀ n, (sHilbertCurve c).getD n 0 < blkWidth := by
    intro n
    rw [List.getD_eq_getElem?_getD]
    cases hn : (sHilbertCurve c)[n]? with
    | none => decide
    | some v => simpa using List.all_eq_true.mp (sHilbertCurve_lt c) v (List.mem_of_getElem? hn)
  exact ⟨hall _, hall _⟩

/-- Every point of the block is visited. -/
theorem exists_point (c : Fin 4) {x y : Nat} (hx : x < blkWidth) (hy : y < blkWidth) :
    ∃ i, point (sHilbertCurve c) i = (x, y) := by
  obtain ⟨hlen, hbits⟩ := sHilbertCurve_bits c
  have hcode : y * blkWidth + x < 256 := by
    unfold blkWidth at *
    omega
  have hmem : y * blkWidth + x ∈ codes (sHilbertCurve c) := by
    rw [← testBit_bits, hbits, Nat.testBit_two_pow_sub_one]
    exact decide_eq_true hcode
  obtain ⟨i, hi, hget⟩ := List.mem_iff_getElem.mp hmem
  have hpoint := codes_getElem? _ (List.getElem?_eq_some_iff.mpr ⟨hi, hget⟩)
  obtain ⟨hx', hy'⟩ := point_lt c ⟨i, hlen ▸ hi⟩
  refine ⟨⟨i, hlen ▸ hi⟩, Prod.ext ?_ ?_⟩
  · unfold point blkWidth at *
    dsimp only at *
    omega
  · unfold point blkWidth at *
    dsimp only at *
    omega

/-- No point of the block is visited twice. -/
theorem point_injective (c : Fin 4) : Function.Injective (point (sHilbertCurve c)) := by
  let f : Fin 256 → Fin blkWidth × Fin blkWidth := fun i =>
    (⟨_, (point_lt c i).1⟩, ⟨_, (point_lt c i).2⟩)
  have hsurj : Function.Surjective f := by
    rintro ⟨⟨x, hx⟩, ⟨y, hy⟩⟩
    obtain ⟨i, hi⟩ := exists_point c hx hy
    refine ⟨i, Prod.ext (Fin.ext ?_) (Fin.ext ?_)⟩
    · exact congrArg Prod.fst hi
    · exact congrArg Prod.snd hi
  have hcard : Fintype.card (Fin 256) = Fintype.card (Fin blkWidth × Fin blkWidth) := by
    rw [Fintype.card_prod, Fintype.card_fin, Fintype.card_fin]
    rfl
  have hinj := ((Fintype.bijective_iff_surjective_and_card f).mpr ⟨hsurj, hcard⟩).1
  intro i j h
  refine hinj (Prod.ext (Fin.ext ?_) (Fin.ext ?_))
  · exact congrArg Prod.fst h
  · exact congrArg Prod.snd h

/-- Where the offsets fit 16 bits, an offset is that of its point. -/
theorem calcOffsetTable_toNat (c : Fin 4) {width : Nat} (hwidth : width ≤ 4368) (i : Fin 256) :
    (calcOffsetTable (sHilbertCurve c) width i).toNat =
      (point (sHilbertCurve c) i).2 * width + (point (sHilbertCurve c) i).1 := by
  obtain ⟨hx, hy⟩ := point_lt c i
  have hmul : (point (sHilbertCurve c) i).2 * width ≤ 15 * 4368 :=
    Nat.mul_le_mul (Nat.le_of_lt_succ hy) hwidth
  unfold calcOffsetTable blkWidth at *
  rw [UInt16.toNat_ofNat_of_lt' ?_]
  change _ < 65536
  omega

end SprdHal.Dither

import Mathlib.Data.List.Basic
import Mathlib.Tactic.Common

/-!
# Rectangles of pixels

A rectangle has its origin and its size; the pixels of its right and lower border are outside. Two
rectangles in a frame whose corners include the four corners of the frame, and whose areas add up to
the area of the frame, cover it (`covers_of_corners`): no rectangle that is not the whole frame has
two opposite corners, so that the two are the two sides of a cut through the frame, or they overlap.
-/

namespace SprdHal

structure Rect where
  x : Nat
  y : Nat
  w : Nat
  h : Nat
  deriving DecidableEq

namespace Rect

/-- The pixel `(p, q)` is in the rectangle. -/
def Contains (r : Rect) (p q : Nat) : Prop := r.x ≤ p ∧ p < r.x + r.w ∧ r.y ≤ q ∧ q < r.y + r.h

/-- The rectangle is in a frame of the size `W` times `H`. -/
def Inside (W H : Nat) (r : Rect) : Prop := r.x + r.w ≤ W ∧ r.y + r.h ≤ H

instance (W H : Nat) (r : Rect) : Decidable (r.Inside W H) := inferInstanceAs (Decidable (_ ∧ _))

/-- The two have a pixel in common. -/
def Overlaps (r s : Rect) : Prop := ∃ p q, r.Contains p q ∧ s.Contains p q

/-- Together the two have all pixels of the frame. -/
def Cover (W H : Nat) (r s : Rect) : Prop := ∀ p < W, ∀ q < H, r.Contains p q ∨ s.Contains p q

theorem Overlaps.symm {r s : Rect} (h : r.Overlaps s) : s.Overlaps r := by
  obtain ⟨p, q, hr, hs⟩ := h
  exact ⟨p, q, hs, hr⟩

theorem Cover.symm {W H : Nat} {r s : Rect} (h : Cover W H r s) : Cover W H s r :=
  fun p hp q hq => (h p hp q hq).symm

/-- One ends before the other begins. -/
theorem not_overlaps {r s : Rect}
    (h : r.x + r.w ≤ s.x ∨ r.y + r.h ≤ s.y ∨ s.x + s.w ≤ r.x ∨ s.y + s.h ≤ r.y) :
    ¬r.Overlaps s := by
  rintro ⟨p, q, ⟨hrx, hrw, hry, hrh⟩, hsx, hsw, hsy, hsh⟩
  omega

/-- The corners, around from the upper left. -/
def corners (r : Rect) : List (Nat × Nat) :=
  [(r.x, r.y), (r.x + r.w, r.y), (r.x + r.w, r.y + r.h), (r.x, r.y + r.h)]

theorem mem_corners {r : Rect} {p q : Nat} :
    (p, q) ∈ r.corners ↔ (p = r.x ∨ p = r.x + r.w) ∧ (q = r.y ∨ q = r.y + r.h) := by
  simp only [corners, List.mem_cons, Prod.mk.injEq, List.not_mem_nil, or_false]
  omega

variable {W H : Nat} {r s : Rect}

/-! ## Corners of the frame -/

theorem x_eq_zero {q : Nat} (h : (0, q) ∈ r.corners) : r.x = 0 := by
  have := (mem_corners.1 h).1
  omega

theorem Inside.right (hr : r.Inside W H) {q : Nat} (h : (W, q) ∈ r.corners) : r.x + r.w = W := by
  have hp := (mem_corners.1 h).1
  have hx := hr.1
  omega

theorem y_eq_zero {p : Nat} (h : (p, 0) ∈ r.corners) : r.y = 0 := by
  have := (mem_corners.1 h).2
  omega

theorem Inside.bottom (hr : r.Inside W H) {p : Nat} (h : (p, H) ∈ r.corners) : r.y + r.h = H := by
  have hq := (mem_corners.1 h).2
  have hy := hr.2
  omega

/-! ## Covering the frame -/

/-- The rectangle is the whole frame. -/
theorem cover_of_whole (s : Rect) (hx : r.x = 0) (hw : r.x + r.w = W) (hy : r.y = 0)
    (hh : r.y + r.h = H) : Cover W H r s := by
  intro p hp q hq
  left
  unfold Contains
  omega

/-- A rectangle at the left side and one at the right side of a frame. -/
theorem cover_of_columns (hH : 0 < H) (harea : W * H ≤ r.w * r.h + s.w * s.h)
    (hr : r.x = 0 ∧ r.y = 0 ∧ r.y + r.h = H) (hs : s.x + s.w = W ∧ s.y = 0 ∧ s.y + s.h = H) :
    Cover W H r s := by
  obtain ⟨hrx, hry, hrh⟩ := hr
  obtain ⟨hsw, hsy, hsh⟩ := hs
  have hr' : r.h = H := by omega
  have hs' : s.h = H := by omega
  have hwidth : W ≤ r.w + s.w := by
    rw [hr', hs', ← Nat.add_mul] at harea
    exact Nat.le_of_mul_le_mul_right harea hH
  intro p hp q hq
  unfold Contains
  omega

/-- A rectangle at the upper side and one at the lower side of a frame. -/
theorem cover_of_rows (hW : 0 < W) (harea : W * H ≤ r.w * r.h + s.w * s.h)
    (hr : r.y = 0 ∧ r.x = 0 ∧ r.x + r.w = W) (hs : s.y + s.h = H ∧ s.x = 0 ∧ s.x + s.w = W) :
    Cover W H r s := by
  obtain ⟨hry, hrx, hrw⟩ := hr
  obtain ⟨hsh, hsx, hsw⟩ := hs
  have hr' : r.w = W := by omega
  have hs' : s.w = W := by omega
  have hheight : H ≤ r.h + s.h := by
    rw [hr', hs', ← Nat.mul_add] at harea
    exact Nat.le_of_mul_le_mul_left harea hW
  intro p hp q hq
  unfold Contains
  omega

/-- The first of the two has the upper left corner. -/
theorem covers_of_corners_left (hW : 0 < W) (hH : 0 < H) (hr : r.Inside W H) (hs : s.Inside W H)
    (harea : W * H ≤ r.w * r.h + s.w * s.h) (h00 : (0, 0) ∈ r.corners)
    (hW0 : (W, 0) ∈ r.corners ∨ (W, 0) ∈ s.corners)
    (hWH : (W, H) ∈ r.corners ∨ (W, H) ∈ s.corners)
    (h0H : (0, H) ∈ r.corners ∨ (0, H) ∈ s.corners) : Cover W H r s := by
  rcases hWH with hWH | hWH
  · exact cover_of_whole s (x_eq_zero h00) (hr.right hWH) (y_eq_zero h00) (hr.bottom hWH)
  · rcases hW0 with hW0 | hW0
    · rcases h0H with h0H | h0H
      · exact cover_of_whole s (x_eq_zero h00) (hr.right hW0) (y_eq_zero h00) (hr.bottom h0H)
      · exact cover_of_rows hW harea ⟨y_eq_zero h00, x_eq_zero h00, hr.right hW0⟩
          ⟨hs.bottom h0H, x_eq_zero h0H, hs.right hWH⟩
    · rcases h0H with h0H | h0H
      · exact cover_of_columns hH harea ⟨x_eq_zero h00, y_eq_zero h00, hr.bottom h0H⟩
          ⟨hs.right hW0, y_eq_zero hW0, hs.bottom hWH⟩
      · exact (cover_of_whole r (x_eq_zero h0H) (hs.right hW0) (y_eq_zero hW0) (hs.bottom h0H)).symm

/-- Two rectangles with the corners of the frame, and with its area between them, cover it. -/
theorem covers_of_corners (hr : r.Inside W H) (hs : s.Inside W H)
    (harea : W * H ≤ r.w * r.h + s.w * s.h)
    (hcorners : ∀ c ∈ corners ⟨0, 0, W, H⟩, c ∈ r.corners ∨ c ∈ s.corners) : Cover W H r s := by
  intro p hp q hq
  have hW : 0 < W := by omega
  have hH : 0 < H := by omega
  simp only [corners, Nat.zero_add, List.forall_mem_cons] at hcorners
  obtain ⟨h00, hW0, hWH, h0H, -⟩ := hcorners
  rcases h00 with h00 | h00
  · exact covers_of_corners_left hW hH hr hs harea h00 hW0 hWH h0H p hp q hq
  · rw [Nat.add_comm] at harea
    exact (covers_of_corners_left hW hH hs hr harea h00 hW0.symm hWH.symm h0H.symm).symm p hp q hq

end Rect

end SprdHal

import SprdHal.Calibration.Bayer

/-!
# The grid of lens shading (`isp_calibration.c`)

The nodes of the grid are `grid` samples of a channel apart. The last ones are at the end of the image
or behind it.
-/

namespace SprdHal.Calibration

/-- The number of nodes along half a side: `GridX`, `GridY`. -/
def gridNum (half grid : Nat) : Nat :=
  if (half - 1) % grid ≠ 0 then (half - 1) / grid + 2 else (half - 1) / grid + 1

/-- `GridX` -/
def IspSize.gridX (size : IspSize) (grid : Nat) : Nat := gridNum (size.width.toNat / 2) grid

/-- `GridY` -/
def IspSize.gridY (size : IspSize) (grid : Nat) : Nat := gridNum (size.height.toNat / 2) grid

/-- An image with even sides of four cells and more. -/
structure GridFits (size : IspSize) (grid : Nat) : Prop where
  two_le : 2 ≤ grid
  le : grid ≤ 127
  wide : 4 * grid ≤ size.width.toNat
  tall : 4 * grid ≤ size.height.toNat
  even_width : 2 ∣ size.width.toNat
  even_height : 2 ∣ size.height.toNat

theorem gridNum_le {half grid : Nat} (hgrid : 2 ≤ grid) : gridNum half grid ≤ half / 2 + 2 := by
  have hle : (half - 1) / grid ≤ (half - 1) / 2 := Nat.div_le_div_left hgrid Nat.two_pos
  rw [gridNum]
  split_ifs
  all_goals omega

end SprdHal.Calibration

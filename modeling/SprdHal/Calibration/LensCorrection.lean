import SprdHal.Calibration.Grid
import SprdHal.Lib.Pieces
import SprdHal.Lib.Tally

/-!
# Lens correction (`isp_calibration.c`)

`ISP_Cali_LNCCorrection` multiplies every sample by a gain between those of the four nodes of the grid
around it. The last column of an image can be one of nodes with no nodes behind; the cell before is
taken for it, with a position of 1 in that cell where it is `grid`. The correction takes the gains of
the nodes, whatever they are, if and only if there is no such column and no such row, and no sample
is so large that the product leaves 16 bits (`interpolates_iff`).
-/

namespace SprdHal.Calibration

open SprdHal.Lib

attribute [local instance] neZero_channels

/-! ## The table -/

/-- `ISP_Cali_GetLNCTabSize` -/
def getLncTabSize (size : IspSize) (grid : Nat) : Nat :=
  let lncGrid := grid % 2 ^ 8
  size.gridX lncGrid * size.gridY lncGrid * 8 % 2 ^ 32

/-- `_isp_Cali_LNCTabMerge` of the gains of the channels 00, 01, 10 and 11. -/
def lncTabMerge {gridNum : Nat} (gain : Fin 4 → Fin gridNum → Nat) : List Nat :=
  (List.finRange gridNum).flatMap fun i => [gain 1 i, gain 0 i, gain 3 i, gain 2 i]

/-- The channel of a sample begins at `r1c1_ptr`, `r0c0_ptr`, `r1c0_ptr` or `r0c1_ptr`. -/
def tabView (row col : Nat) : Nat :=
  if row % 2 = 1 ∧ col % 2 = 1 then 2
  else if row % 2 = 0 ∧ col % 2 = 0 then 1
  else if row % 2 = 1 ∧ col % 2 = 0 then 3
  else 0

/-! ## The correction -/

/-- `GridCurrentX` and `RelativeX` of a column, and so for a row, given half its number. -/
def gridCell (half grid c : Nat) : Nat × Nat :=
  if half % grid = 1 ∧ c = half - 1 then (c / grid - 1, c % grid + 1) else (c / grid, c % grid)

/-- `u`, `v` -/
def q15 (grid relative : Nat) : Nat := relative * (32768 / grid) % 2 ^ 16

/-- The weights `temp1` to `temp4`. -/
def weights (u v : Nat) : Nat × Nat × Nat × Nat :=
  ((32768 - u) * (32768 - v) / 2 ^ 15, u * (32768 - v) / 2 ^ 15, (32768 - u) * v / 2 ^ 15,
    u * v / 2 ^ 15)

/-- `cor_ratio` of a sample. There is no result if it is read from outside the table. -/
def corRatio (size : IspSize) (grid : Nat) (tab : List Nat) (row col : Nat) : Option Nat := do
  let (j, jj) := gridCell (size.width.toNat / 2) grid (col / 2)
  let (i, ii) := gridCell (size.height.toNat / 2) grid (row / 2)
  let (temp1, temp2, temp3, temp4) := weights (q15 grid ii) (q15 grid jj)
  let gridX := size.gridX grid
  let r0c0 ← tab[4 * (i * gridX + j) + tabView row col]?
  let r1c0 ← tab[4 * ((i + 1) * gridX + j) + tabView row col]?
  let r0c1 ← tab[4 * (i * gridX + j + 1) + tabView row col]?
  let r1c1 ← tab[4 * ((i + 1) * gridX + j + 1) + tabView row col]?
  return (r0c0 * temp1 + r1c0 * temp2 + r0c1 * temp3 + r1c1 * temp4) / 2 ^ 15 % 2 ^ 16

/-- The corrected sample. -/
def corrected (src corRatio : Nat) : Nat :=
  (clip ((src * corRatio + 512) / 2 ^ 10 % 2 ^ 16 : Nat) 0 1023).toNat

/-- `ISP_Cali_LNCCorrection`: the samples it writes, row by row. -/
def lncCorrection (src : Nat → UInt16) (size : IspSize) (grid : Nat) (tab : List Nat) :
    Option (List Nat) :=
  (cells size.height.toNat size.width.toNat).mapM fun d => do
    let ratio ← corRatio size grid tab d.1 d.2
    return corrected (src (d.1 * size.width.toNat + d.2)).toNat ratio

/-! ## What the correction is to be -/

/-- The samples of nodes have the gains of the nodes, and the samples are corrected by their
ratios. -/
structure Interpolates (src : Nat → UInt16) (size : IspSize) (grid : Nat)
    (gain : Fin 4 → Fin (size.gridX grid * size.gridY grid) → Nat) (ratio : Nat × Nat → Nat) :
    Prop where
  room : 2 * (lncTabMerge gain).length = getLncTabSize size grid
  reads : ∀ d ∈ cells size.height.toNat size.width.toNat,
    corRatio size grid (lncTabMerge gain) d.1 d.2 = some (ratio d)
  nodes : ∀ d ∈ cells size.height.toNat size.width.toNat, d.1 / 2 % grid = 0 → d.2 / 2 % grid = 0 →
    ∃ k : Fin _, k.val = d.1 / 2 / grid * size.gridX grid + d.2 / 2 / grid ∧
      ratio d = gain (inx d.1 d.2) k
  samples : lncCorrection src size grid (lncTabMerge gain) =
    some ((cells size.height.toNat size.width.toNat).map fun d =>
      min 1023 (((src (d.1 * size.width.toNat + d.2)).toNat * ratio d + 512) / 2 ^ 10))

/-- The largest sample that is corrected right whatever the gains are. Where the weights are rounded,
the ratio does not reach the largest gain. -/
def srcLimit (grid row col : Nat) : Nat :=
  if 2 ^ 15 ∣ q15 grid (row / 2 % grid) * q15 grid (col / 2 % grid) then 16387 else 16391

/-! ## The table -/

theorem length_lncTabMerge {n : Nat} (gain : Fin 4 → Fin n → Nat) :
    (lncTabMerge gain).length = 4 * n := by
  rw [lncTabMerge, List.length_flatMap]
  simp [Nat.mul_comm]

/-- An entry of the table is a gain of the channel of the sample. -/
theorem getElem?_lncTabMerge {n : Nat} (gain : Fin 4 → Fin n → Nat) (k : Fin n) (row col : Nat) :
    (lncTabMerge gain)[4 * k.val + tabView row col]? = some (gain (inx row col) k) := by
  have hview : tabView row col < 4 := by
    rw [tabView]
    split_ifs
    all_goals decide
  have hlen (i : Fin n) : [gain 1 i, gain 0 i, gain 3 i, gain 2 i].length = 4 := rfl
  have hk : (List.finRange n)[k.val]? = some k := by simp
  rw [lncTabMerge, getElem?_flatMap_pieces hlen hview, hk, Option.bind_some]
  have hrow : row % 2 = 0 ∨ row % 2 = 1 := by omega
  have hcol : col % 2 = 0 ∨ col % 2 = 1 := by omega
  rcases hrow with hrow | hrow
  all_goals
    rcases hcol with hcol | hcol
    all_goals
      simp only [tabView, inx, hrow, hcol]
      rfl

/-! ## Cells -/

/-- **A cell** has nodes behind it. -/
theorem gridCell_lt {half grid c : Nat} (hgrid : 2 ≤ grid) (hhalf : 2 * grid ≤ half) (hc : c < half) :
    (gridCell half grid c).1 + 1 < gridNum half grid := by
  have hdiv := Nat.div_add_mod half grid
  rw [gridCell, gridNum]
  by_cases hone : half % grid = 1
  · have hlast : half - 1 = grid * (half / grid) := by omega
    have hquotient : (half - 1) / grid = half / grid := by
      rw [hlast, Nat.mul_div_cancel_left _ (by omega)]
    have hrest : (half - 1) % grid = 0 := by rw [hlast, Nat.mul_mod_right]
    rw [if_neg (not_not.mpr hrest), hquotient]
    by_cases hend : c = half - 1
    · have hpos : 0 < half / grid := Nat.div_pos (by omega) (by omega)
      rw [if_pos ⟨hone, hend⟩, hend, hquotient]
      dsimp only
      omega
    · have hlt : c / grid < half / grid := by
        rw [Nat.div_lt_iff_lt_mul (by omega), Nat.mul_comm, ← hlast]
        omega
      rw [if_neg fun h => hend h.2]
      dsimp only
      omega
  · have hrest : (half - 1) % grid ≠ 0 := by
      intro hzero
      have hlast := Nat.div_add_mod (half - 1) grid
      have hhalf' : half = grid * ((half - 1) / grid) + 1 := by omega
      rw [hhalf', Nat.mul_add_mod, Nat.mod_eq_of_lt (by omega)] at hone
      exact hone rfl
    have hle : c / grid ≤ (half - 1) / grid := Nat.div_le_div_right (by omega)
    rw [if_pos hrest, if_neg fun h => hone h.1]
    dsimp only
    omega

/-- The position in a cell. -/
theorem gridCell_snd_le {half grid c : Nat} (hgrid : 2 ≤ grid) : (gridCell half grid c).2 ≤ grid := by
  have hlt : c % grid < grid := Nat.mod_lt _ (by omega)
  rw [gridCell]
  split_ifs
  all_goals
    dsimp only
    omega

theorem q15_eq {grid relative : Nat} (h : relative ≤ grid) :
    q15 grid relative = relative * (32768 / grid) ∧ q15 grid relative ≤ 32768 := by
  have hle : relative * (32768 / grid) ≤ 32768 :=
    (Nat.mul_le_mul_right _ h).trans (Nat.mul_div_le _ _)
  rw [q15, Nat.mod_eq_of_lt (by omega)]
  exact ⟨rfl, hle⟩

/-- The size of the table is that of the gains. -/
theorem two_mul_length_lncTabMerge {size : IspSize} {grid : Nat} (h : GridFits size grid)
    (gain : Fin 4 → Fin (size.gridX grid * size.gridY grid) → Nat) :
    2 * (lncTabMerge gain).length = getLncTabSize size grid := by
  have hw := size.width.toNat_lt
  have hh := size.height.toNat_lt
  have hx : size.gridX grid ≤ _ := gridNum_le h.two_le
  have hy : size.gridY grid ≤ _ := gridNum_le h.two_le
  have hnum : size.gridX grid * size.gridY grid ≤ 16385 * 16385 :=
    Nat.mul_le_mul (by omega) (by omega)
  have hgrid : grid % 2 ^ 8 = grid := by
    have hle := h.le
    omega
  rw [length_lncTabMerge, getLncTabSize, hgrid]
  omega

/-! ## Weights -/

/-- Where they are not rounded, the weights sum up to 1; where they are, all of them are. -/
theorem sum_weights {u v : Nat} (hu : u ≤ 32768) (hv : v ≤ 32768) :
    (weights u v).1 + (weights u v).2.1 + (weights u v).2.2.1 + (weights u v).2.2.2 =
      if 2 ^ 15 ∣ u * v then 32768 else 32766 := by
  have hleft : (32768 - u) * (32768 - v) + u * (32768 - v) = 32768 * (32768 - v) := by
    rw [← Nat.add_mul, Nat.sub_add_cancel hu]
  have hright : (32768 - u) * v + u * v = 32768 * v := by
    rw [← Nat.add_mul, Nat.sub_add_cancel hu]
  have hbottom : u * (32768 - v) + u * v = u * 32768 := by
    rw [← Nat.mul_add, Nat.sub_add_cancel hv]
  simp only [weights]
  generalize (32768 - u) * (32768 - v) = a at *
  generalize u * (32768 - v) = b at *
  generalize (32768 - u) * v = c at *
  generalize u * v = d at *
  split_ifs
  all_goals omega

/-- The weights on the left of a cell. -/
theorem weights_zero_left (v : Nat) : weights 0 v = (32768 - v, 0, v, 0) := by
  have hone (x : Nat) : 32768 * x / 2 ^ 15 = x := by omega
  simp only [weights, Nat.zero_mul, Nat.zero_div, Nat.sub_zero, hone]

/-- The weights at the top of a cell. -/
theorem weights_zero_right (u : Nat) : weights u 0 = (32768 - u, u, 0, 0) := by
  have hone (x : Nat) : x * 32768 / 2 ^ 15 = x := by omega
  simp only [weights, Nat.mul_zero, Nat.zero_div, Nat.sub_zero, hone]

theorem sum_weights_le {u v : Nat} (hu : u ≤ 32768) (hv : v ≤ 32768) :
    (weights u v).1 + (weights u v).2.1 + (weights u v).2.2.1 + (weights u v).2.2.2 ≤ 32768 := by
  rw [sum_weights hu hv]
  split_ifs
  all_goals decide

/-! ## Ratios -/

/-- The cell of a sample, by row and column, and the position in it. -/
def IspSize.cell (size : IspSize) (grid row col : Nat) : (Nat × Nat) × (Nat × Nat) :=
  (gridCell (size.height.toNat / 2) grid (row / 2), gridCell (size.width.toNat / 2) grid (col / 2))

/-- The weights of a sample. -/
def IspSize.weightsAt (size : IspSize) (grid row col : Nat) : Nat × Nat × Nat × Nat :=
  weights (q15 grid (size.cell grid row col).1.2) (q15 grid (size.cell grid row col).2.2)

section Ratio

variable {size : IspSize} {grid row col : Nat}
  (gain : Fin 4 → Fin (size.gridX grid * size.gridY grid) → Nat)

theorem node_lt {i j : Nat} (hi : i < size.gridY grid) (hj : j < size.gridX grid) :
    i * size.gridX grid + j < size.gridX grid * size.gridY grid :=
  calc i * size.gridX grid + j < (i + 1) * size.gridX grid := by
        rw [Nat.succ_mul]
        omega
    _ ≤ size.gridX grid * size.gridY grid := by
        rw [Nat.mul_comm]
        exact Nat.mul_le_mul_left _ hi

/-- **The ratio** of a sample is read from the table: four gains of its channel. -/
theorem exists_corRatio (h : GridFits size grid) (hrow : row < size.height.toNat)
    (hcol : col < size.width.toNat) :
    ∃ r0c0 r1c0 r0c1 r1c1 : Fin (size.gridX grid * size.gridY grid),
      (r0c0.val = (size.cell grid row col).1.1 * size.gridX grid + (size.cell grid row col).2.1 ∧
        r1c0.val =
          ((size.cell grid row col).1.1 + 1) * size.gridX grid + (size.cell grid row col).2.1 ∧
        r0c1.val = r0c0.val + 1 ∧ r1c1.val = r1c0.val + 1) ∧
      corRatio size grid (lncTabMerge gain) row col =
        some ((gain (inx row col) r0c0 * (size.weightsAt grid row col).1 +
          gain (inx row col) r1c0 * (size.weightsAt grid row col).2.1 +
          gain (inx row col) r0c1 * (size.weightsAt grid row col).2.2.1 +
          gain (inx row col) r1c1 * (size.weightsAt grid row col).2.2.2) / 2 ^ 15 % 2 ^ 16) := by
  have hwide := h.wide
  have htall := h.tall
  have hj : (size.cell grid row col).2.1 + 1 < size.gridX grid :=
    gridCell_lt h.two_le (by omega) (by have heven := h.even_width; omega)
  have hi : (size.cell grid row col).1.1 + 1 < size.gridY grid :=
    gridCell_lt h.two_le (by omega) (by have heven := h.even_height; omega)
  let r0c0 : Fin (size.gridX grid * size.gridY grid) :=
    ⟨_, node_lt (Nat.lt_of_succ_lt hi) (Nat.lt_of_succ_lt hj)⟩
  let r1c0 : Fin (size.gridX grid * size.gridY grid) := ⟨_, node_lt hi (Nat.lt_of_succ_lt hj)⟩
  let r0c1 : Fin (size.gridX grid * size.gridY grid) := ⟨_, node_lt (Nat.lt_of_succ_lt hi) hj⟩
  let r1c1 : Fin (size.gridX grid * size.gridY grid) := ⟨_, node_lt hi hj⟩
  refine ⟨r0c0, r1c0, r0c1, r1c1, ⟨rfl, rfl, rfl, rfl⟩, ?_⟩
  have h00 := getElem?_lncTabMerge gain r0c0 row col
  have h10 := getElem?_lncTabMerge gain r1c0 row col
  have h01 := getElem?_lncTabMerge gain r0c1 row col
  have h11 := getElem?_lncTabMerge gain r1c1 row col
  simp only [r0c0, r1c0, r0c1, r1c1, IspSize.cell] at h00 h10 h01 h11
  simp only [corRatio, ← Nat.add_assoc] at h00 h10 h01 h11 ⊢
  simp only [h00, h10, h01, h11, Option.bind_eq_bind, Option.bind_some]
  rfl

end Ratio

/-! ## Samples -/

/-- A pass over a list that succeeds for each element. -/
theorem mapM_eq_some_map {α β : Type} {f : α → Option β} {g : α → β} {l : List α}
    (h : ∀ x ∈ l, f x = some (g x)) : l.mapM f = some (l.map g) := by
  induction l with
  | nil => rfl
  | cons x l ih =>
    rw [List.mapM_cons, h x List.mem_cons_self, ih fun y hy => h y (List.mem_cons_of_mem _ hy)]
    rfl

theorem lncCorrection_eq {src : Nat → UInt16} {size : IspSize} {grid : Nat} {tab : List Nat}
    {ratio : Nat × Nat → Nat}
    (h : ∀ d ∈ cells size.height.toNat size.width.toNat, corRatio size grid tab d.1 d.2 = some (ratio d)) :
    lncCorrection src size grid tab = some ((cells size.height.toNat size.width.toNat).map fun d =>
      corrected (src (d.1 * size.width.toNat + d.2)).toNat (ratio d)) := by
  refine mapM_eq_some_map fun d hd => ?_
  rw [h d hd]
  rfl

/-- A sample is corrected right unless its product leaves 16 bits and is small there. -/
theorem corrected_eq_iff (src ratio : Nat) :
    corrected src ratio = min 1023 ((src * ratio + 512) / 2 ^ 10) ↔
      (src * ratio + 512) / 2 ^ 10 < 2 ^ 16 ∨ 1023 ≤ (src * ratio + 512) / 2 ^ 10 % 2 ^ 16 := by
  rw [corrected]
  generalize (src * ratio + 512) / 2 ^ 10 = p
  rw [clip]
  split_ifs
  all_goals omega

/-- The largest ratio of a sample, which is that of the largest gains. -/
def maxRatio (grid row col : Nat) : Nat :=
  if 2 ^ 15 ∣ q15 grid (row / 2 % grid) * q15 grid (col / 2 % grid) then 4095 else 4094

theorem le_srcLimit_iff {grid row col src : Nat} :
    src ≤ srcLimit grid row col ↔ src * maxRatio grid row col + 512 < 2 ^ 26 := by
  rw [srcLimit, maxRatio]
  split_ifs
  all_goals omega

/-- Weighted gains are at most the weighted largest gain. -/
theorem weighted_le {a b c d m : Nat} (w : Nat × Nat × Nat × Nat) (ha : a ≤ m) (hb : b ≤ m)
    (hc : c ≤ m) (hd : d ≤ m) :
    a * w.1 + b * w.2.1 + c * w.2.2.1 + d * w.2.2.2 ≤ m * (w.1 + w.2.1 + w.2.2.1 + w.2.2.2) := by
  have h₁ : a * w.1 ≤ m * w.1 := Nat.mul_le_mul_right _ ha
  have h₂ : b * w.2.1 ≤ m * w.2.1 := Nat.mul_le_mul_right _ hb
  have h₃ : c * w.2.2.1 ≤ m * w.2.2.1 := Nat.mul_le_mul_right _ hc
  have h₄ : d * w.2.2.2 ≤ m * w.2.2.2 := Nat.mul_le_mul_right _ hd
  rw [Nat.mul_add, Nat.mul_add, Nat.mul_add]
  omega

/-! ## Images without a last column or row of nodes alone -/

section Whole

variable {size : IspSize} {grid row col : Nat} (h : GridFits size grid)
  (hcols : size.width.toNat / 2 % grid ≠ 1) (hrows : size.height.toNat / 2 % grid ≠ 1)

include hcols hrows in
theorem cell_eq : size.cell grid row col =
    ((row / 2 / grid, row / 2 % grid), (col / 2 / grid, col / 2 % grid)) := by
  rw [IspSize.cell, gridCell, gridCell, if_neg fun h => hrows h.1, if_neg fun h => hcols h.1]

include h hcols hrows in
theorem sum_weightsAt : (size.weightsAt grid row col).1 + (size.weightsAt grid row col).2.1 +
    (size.weightsAt grid row col).2.2.1 + (size.weightsAt grid row col).2.2.2 =
      if 2 ^ 15 ∣ q15 grid (row / 2 % grid) * q15 grid (col / 2 % grid) then 32768 else 32766 := by
  have hpos : 0 < grid := Nat.lt_of_lt_of_le Nat.two_pos h.two_le
  rw [IspSize.weightsAt, cell_eq hcols hrows]
  exact sum_weights (q15_eq (Nat.mod_lt _ hpos).le).2 (q15_eq (Nat.mod_lt _ hpos).le).2

include h hcols hrows in
/-- **The ratios** of such an image: at the nodes those of the nodes, and none above the largest. -/
theorem exists_ratio {gain : Fin 4 → Fin (size.gridX grid * size.gridY grid) → Nat}
    (hgain : ∀ chn k, gain chn k ≤ 4095) (hrow : row < size.height.toNat)
    (hcol : col < size.width.toNat) :
    ∃ ratio, corRatio size grid (lncTabMerge gain) row col = some ratio ∧
      ratio ≤ maxRatio grid row col ∧
      (row / 2 % grid = 0 → col / 2 % grid = 0 → ∃ k : Fin _,
        k.val = row / 2 / grid * size.gridX grid + col / 2 / grid ∧ ratio = gain (inx row col) k) := by
  obtain ⟨r0c0, r1c0, r0c1, r1c1, ⟨hk, -⟩, hread⟩ := exists_corRatio gain h hrow hcol
  have hle := weighted_le (size.weightsAt grid row col) (hgain (inx row col) r0c0)
    (hgain (inx row col) r1c0) (hgain (inx row col) r0c1) (hgain (inx row col) r1c1)
  rw [sum_weightsAt h hcols hrows] at hle
  refine ⟨_, hread, ?_, fun hy hx => ⟨r0c0, ?_, ?_⟩⟩
  · rw [maxRatio]
    split_ifs at hle ⊢
    all_goals omega
  · rw [hk, cell_eq hcols hrows]
  · have hzero : size.weightsAt grid row col = (32768, 0, 0, 0) := by
      rw [IspSize.weightsAt, cell_eq hcols hrows, hx, hy]
      simp only [q15, Nat.zero_mul, Nat.zero_mod, weights_zero_left]
    have hgain' := hgain (inx row col) r0c0
    rw [hzero]
    dsimp only
    omega

include h hcols hrows in
/-- **The correction is right** if the samples are below their limits. -/
theorem interpolates_of_le {src : Nat → UInt16}
    {gain : Fin 4 → Fin (size.gridX grid * size.gridY grid) → Nat}
    (hgain : ∀ chn k, gain chn k ≤ 4095)
    (hsrc : ∀ d ∈ cells size.height.toNat size.width.toNat,
      (src (d.1 * size.width.toNat + d.2)).toNat ≤ srcLimit grid d.1 d.2) :
    ∃ ratio, Interpolates src size grid gain ratio := by
  let ratio : Nat × Nat → Nat := fun d => (corRatio size grid (lncTabMerge gain) d.1 d.2).getD 0
  have hreads (d : Nat × Nat) (hd : d ∈ cells size.height.toNat size.width.toNat) :
      corRatio size grid (lncTabMerge gain) d.1 d.2 = some (ratio d) ∧
        ratio d ≤ maxRatio grid d.1 d.2 ∧
        (d.1 / 2 % grid = 0 → d.2 / 2 % grid = 0 → ∃ k : Fin _,
          k.val = d.1 / 2 / grid * size.gridX grid + d.2 / 2 / grid ∧
            ratio d = gain (inx d.1 d.2) k) := by
    rw [mem_cells] at hd
    obtain ⟨r, hread, hmax, hnode⟩ := exists_ratio h hcols hrows hgain hd.1 hd.2
    have hr : ratio d = r := by
      simp only [ratio, hread]
      rfl
    rw [hr]
    exact ⟨hread, hmax, hnode⟩
  refine ⟨ratio, ⟨?_, fun d hd => (hreads d hd).1, fun d hd => (hreads d hd).2.2, ?_⟩⟩
  · exact two_mul_length_lncTabMerge h gain
  · rw [lncCorrection_eq fun d hd => (hreads d hd).1]
    refine congrArg some (List.map_congr_left fun d hd => ?_)
    have hmul : (src (d.1 * size.width.toNat + d.2)).toNat * ratio d ≤
        (src (d.1 * size.width.toNat + d.2)).toNat * maxRatio grid d.1 d.2 :=
      Nat.mul_le_mul_left _ (hreads d hd).2.1
    have hlt := le_srcLimit_iff.mp (hsrc d hd)
    rw [corrected_eq_iff]
    omega

end Whole

/-! ## Images with such a column or row -/

/-- The sample of a node has the gain of the node, whatever the gains are, only if its weights put
everything on the node: here for the gains 1024 at the node and 0 elsewhere. -/
theorem weights_of_interpolates {src : Nat → UInt16} {size : IspSize} {grid : Nat}
    (h : GridFits size grid) (row col : Nat)
    (hall : ∀ gain : Fin 4 → Fin (size.gridX grid * size.gridY grid) → Nat,
      (∀ chn k, gain chn k ≤ 4095) → ∃ ratio, Interpolates src size grid gain ratio)
    (hrow : row < size.height.toNat) (hcol : col < size.width.toNat) (hrow' : row / 2 % grid = 0)
    (hcol' : col / 2 % grid = 0) {cell : (Nat × Nat) × (Nat × Nat)}
    (hcell : size.cell grid row col = cell) :
    ∃ weight : Nat → Nat,
      (∀ k, weight k = if k = row / 2 / grid * size.gridX grid + col / 2 / grid then 1024 else 0) ∧
      1024 = (weight (cell.1.1 * size.gridX grid + cell.2.1) * (size.weightsAt grid row col).1 +
        weight ((cell.1.1 + 1) * size.gridX grid + cell.2.1) * (size.weightsAt grid row col).2.1 +
        weight (cell.1.1 * size.gridX grid + cell.2.1 + 1) * (size.weightsAt grid row col).2.2.1 +
        weight ((cell.1.1 + 1) * size.gridX grid + cell.2.1 + 1) *
          (size.weightsAt grid row col).2.2.2) / 2 ^ 15 % 2 ^ 16 := by
  let weight : Nat → Nat := fun k =>
    if k = row / 2 / grid * size.gridX grid + col / 2 / grid then 1024 else 0
  have hle (k : Nat) : weight k ≤ 4095 := by
    simp only [weight]
    split_ifs
    all_goals decide
  obtain ⟨ratio, hratio⟩ := hall (fun _ k => weight k) fun _ k => hle k
  have hmem : (row, col) ∈ cells size.height.toNat size.width.toNat := mem_cells.mpr ⟨hrow, hcol⟩
  obtain ⟨k, hk, hnode⟩ := hratio.nodes (row, col) hmem hrow' hcol'
  obtain ⟨r0c0, r1c0, r0c1, r1c1, ⟨h00, h10, h01, h11⟩, hread⟩ :=
    exists_corRatio (fun _ k => weight k) h hrow hcol
  have hgain : weight k.val = 1024 := if_pos hk
  rw [h01, h11, h00, h10, hcell] at hread
  refine ⟨weight, fun _ => rfl, ?_⟩
  rw [← hgain, ← hnode]
  exact Option.some.inj ((hratio.reads (row, col) hmem).symm.trans hread)

theorem q15_one_le {grid : Nat} (hgrid : 2 ≤ grid) : q15 grid 1 ≤ 16384 := by
  have hle : 32768 / grid ≤ 16384 := Nat.div_le_div_left hgrid Nat.two_pos
  rw [q15, Nat.one_mul, Nat.mod_eq_of_lt (by omega)]
  exact hle

theorem q15_zero (grid : Nat) : q15 grid 0 = 0 := by rw [q15, Nat.zero_mul, Nat.zero_mod]

/-- The last cell of half a side with such a column. -/
theorem gridCell_last {half grid : Nat} (hhalf : 2 * grid ≤ half) (hgrid : 2 ≤ grid)
    (hone : half % grid = 1) :
    2 * (half - 1) / 2 % grid = 0 ∧ 2 * (half - 1) / 2 / grid = half / grid ∧ 0 < half / grid ∧
      gridCell half grid (2 * (half - 1) / 2) = (half / grid - 1, 1) := by
  have hdiv := Nat.div_add_mod half grid
  have hlast : half - 1 = grid * (half / grid) := by omega
  have hquotient : (half - 1) / grid = half / grid := by
    rw [hlast, Nat.mul_div_cancel_left _ (by omega)]
  have hrest : (half - 1) % grid = 0 := by rw [hlast, Nat.mul_mod_right]
  rw [Nat.mul_div_cancel_left _ Nat.two_pos, gridCell, if_pos ⟨hone, rfl⟩, hquotient, hrest]
  exact ⟨rfl, rfl, Nat.div_pos (by omega) (by omega), rfl⟩

/-- The first cell. -/
theorem gridCell_zero {half grid : Nat} (hhalf : 2 ≤ half) : gridCell half grid (0 / 2) = (0, 0) := by
  rw [gridCell, if_neg fun h => by omega, Nat.zero_div, Nat.zero_div, Nat.zero_mod]

/-- The least factor that makes a product leave 16 bits. -/
theorem exists_least_ratio {s m : Nat} (h : 2 ^ 26 ≤ s * m + 512) :
    ∃ r, 2 ^ 26 ≤ s * r + 512 ∧ s * r + 512 < 2 ^ 26 + s ∧ r ≤ m := by
  have hpos : 0 < s := by
    rcases Nat.eq_zero_or_pos s with rfl | hpos
    · omega
    · exact hpos
  have hdiv := Nat.div_add_mod (2 ^ 26 - 513) s
  have hmod : (2 ^ 26 - 513) % s < s := Nat.mod_lt _ hpos
  have hlt : (2 ^ 26 - 513) / s < m := by
    rw [Nat.div_lt_iff_lt_mul hpos, Nat.mul_comm]
    omega
  refine ⟨(2 ^ 26 - 513) / s + 1, ?_, ?_, hlt⟩
  all_goals
    rw [Nat.mul_succ]
    omega

section Converse

variable {src : Nat → UInt16} {size : IspSize} {grid : Nat} (h : GridFits size grid)
  (hall : ∀ gain : Fin 4 → Fin (size.gridX grid * size.gridY grid) → Nat,
    (∀ chn k, gain chn k ≤ 4095) → ∃ ratio, Interpolates src size grid gain ratio)

include h hall

/-- **An image with a last column of nodes alone** has wrong ratios there. -/
theorem width_ne_of_interpolates : size.width.toNat / 2 % grid ≠ 1 := by
  intro hone
  have hgrid := h.two_le
  have hwide := h.wide
  have htall := h.tall
  obtain ⟨hcol, hnode, hpos, hx⟩ := gridCell_last (by omega) hgrid hone
  have hcell : size.cell grid 0 (2 * (size.width.toNat / 2 - 1)) =
      ((0, 0), (size.width.toNat / 2 / grid - 1, 1)) := by
    rw [IspSize.cell, hx, gridCell_zero (by omega)]
  obtain ⟨weight, hweight, heq⟩ := weights_of_interpolates h 0 (2 * (size.width.toNat / 2 - 1)) hall
    (by omega) (by omega) (Nat.zero_mod _) hcol hcell
  have hv := q15_one_le hgrid
  simp only [hnode, Nat.zero_div, Nat.zero_mul, Nat.zero_add] at hweight
  have hleft : weight (0 * size.gridX grid + (size.width.toNat / 2 / grid - 1)) = 0 := by
    rw [hweight, if_neg (by omega)]
  have hright : weight (0 * size.gridX grid + (size.width.toNat / 2 / grid - 1) + 1) = 1024 := by
    rw [hweight, if_pos (by omega)]
  rw [IspSize.weightsAt, hcell] at heq
  simp only [hleft, hright, q15_zero, weights_zero_left] at heq
  omega

/-- **An image with a last row of nodes alone** has wrong ratios there. -/
theorem height_ne_of_interpolates : size.height.toNat / 2 % grid ≠ 1 := by
  intro hone
  have hgrid := h.two_le
  have hwide := h.wide
  have htall := h.tall
  obtain ⟨hrow, hnode, hpos, hy⟩ := gridCell_last (by omega) hgrid hone
  have hcell : size.cell grid (2 * (size.height.toNat / 2 - 1)) 0 =
      ((size.height.toNat / 2 / grid - 1, 1), (0, 0)) := by
    rw [IspSize.cell, hy, gridCell_zero (by omega)]
  obtain ⟨weight, hweight, heq⟩ := weights_of_interpolates h (2 * (size.height.toNat / 2 - 1)) 0 hall
    (by omega) (by omega) hrow (Nat.zero_mod _) hcell
  have hv := q15_one_le hgrid
  have hx : 0 < size.gridX grid := by
    rw [IspSize.gridX, gridNum]
    split_ifs
    all_goals exact Nat.succ_pos _
  have hnext : size.height.toNat / 2 / grid - 1 + 1 = size.height.toNat / 2 / grid := by omega
  simp only [hnode, Nat.zero_div, Nat.add_zero] at hweight
  have htop : weight ((size.height.toNat / 2 / grid - 1) * size.gridX grid + 0) = 0 := by
    have hsucc : (size.height.toNat / 2 / grid - 1 + 1) * size.gridX grid =
        (size.height.toNat / 2 / grid - 1) * size.gridX grid + size.gridX grid := Nat.succ_mul _ _
    rw [hnext] at hsucc
    rw [hweight, if_neg (by omega)]
  have hbottom : weight ((size.height.toNat / 2 / grid - 1 + 1) * size.gridX grid + 0) = 1024 := by
    rw [hweight, hnext, Nat.add_zero, if_pos rfl]
  rw [IspSize.weightsAt, hcell] at heq
  simp only [htop, hbottom, q15_zero, weights_zero_right] at heq
  omega

/-- **A sample above its limit** is corrected wrong for some gain of the whole image. -/
theorem le_srcLimit_of_interpolates (hcols : size.width.toNat / 2 % grid ≠ 1)
    (hrows : size.height.toNat / 2 % grid ≠ 1) :
    ∀ d ∈ cells size.height.toNat size.width.toNat,
      (src (d.1 * size.width.toNat + d.2)).toNat ≤ srcLimit grid d.1 d.2 := by
  intro d hd
  rw [le_srcLimit_iff]
  by_contra hlarge
  have hmem := mem_cells.mp hd
  generalize hs : (src (d.1 * size.width.toNat + d.2)).toNat = s at hlarge
  have hsrc : s < 2 ^ 16 := hs ▸ (src (d.1 * size.width.toNat + d.2)).toNat_lt
  -- the least ratio whose product leaves 16 bits
  obtain ⟨r, hr, hleast, hmax⟩ : ∃ r, 2 ^ 26 ≤ s * r + 512 ∧ s * r + 512 < 2 ^ 26 + s ∧
      r ≤ maxRatio grid d.1 d.2 := exists_least_ratio (Nat.le_of_not_lt hlarge)
  -- a gain that has it
  obtain ⟨g, hg, hratio⟩ : ∃ g ≤ 4095, g * (if 2 ^ 15 ∣ q15 grid (d.1 / 2 % grid) *
      q15 grid (d.2 / 2 % grid) then 32768 else 32766) / 2 ^ 15 % 2 ^ 16 = r := by
    rw [maxRatio] at hmax
    split_ifs at hmax ⊢
    · exact ⟨r, hmax, by omega⟩
    · have hrounded : (r + 1) * 32766 = 2 ^ 15 * r + (32766 - 2 * r) := by omega
      have hquotient : (r + 1) * 32766 / 2 ^ 15 = r := by
        rw [hrounded, Nat.mul_add_div (by decide), Nat.div_eq_of_lt (by omega), Nat.add_zero]
      exact ⟨r + 1, by omega, by rw [hquotient]; omega⟩
  obtain ⟨ratio, hall⟩ := hall (fun _ _ => g) fun _ _ => hg
  obtain ⟨r0c0, r1c0, r0c1, r1c1, -, hread⟩ := exists_corRatio (fun _ _ => g) h hmem.1 hmem.2
  rw [← Nat.mul_add, ← Nat.mul_add, ← Nat.mul_add, sum_weightsAt h hcols hrows, hratio] at hread
  have hr' : ratio d = r := Option.some.inj ((hall.reads d hd).symm.trans hread)
  have hsamples := hall.samples
  rw [lncCorrection_eq hall.reads, Option.some.injEq, List.map_inj_left] at hsamples
  have hsample := hsamples d hd
  rw [corrected_eq_iff, hs, hr'] at hsample
  omega

end Converse

/-- **The correction interpolates** whatever the gains are if and only if no last column or row is
one of nodes alone and no sample is above its limit. -/
theorem interpolates_iff (src : Nat → UInt16) (size : IspSize) (grid : Nat) (h : GridFits size grid) :
    (∀ gain : Fin 4 → Fin (size.gridX grid * size.gridY grid) → Nat,
      (∀ chn k, gain chn k ≤ 4095) → ∃ ratio, Interpolates src size grid gain ratio) ↔
    size.width.toNat / 2 % grid ≠ 1 ∧ size.height.toNat / 2 % grid ≠ 1 ∧
      ∀ d ∈ cells size.height.toNat size.width.toNat,
        (src (d.1 * size.width.toNat + d.2)).toNat ≤ srcLimit grid d.1 d.2 := by
  constructor
  · intro hall
    have hcols := width_ne_of_interpolates h hall
    have hrows := height_ne_of_interpolates h hall
    exact ⟨hcols, hrows, le_srcLimit_of_interpolates h hall hcols hrows⟩
  · rintro ⟨hcols, hrows, hsrc⟩ gain hgain
    exact interpolates_of_le h hcols hrows hgain hsrc

theorem interpolates_eight_by_eight :
    (∀ gain : Fin 4 → Fin (IspSize.gridX ⟨8, 8⟩ 2 * IspSize.gridY ⟨8, 8⟩ 2) → Nat,
      (∀ chn k, gain chn k ≤ 4095) → ∃ ratio, Interpolates (fun _ => 1023) ⟨8, 8⟩ 2 gain ratio) ↔
    8 / 2 % 2 ≠ 1 ∧ 8 / 2 % 2 ≠ 1 ∧ ∀ d ∈ cells 8 8, 1023 ≤ srcLimit 2 d.1 d.2 :=
  interpolates_iff (fun _ => 1023) ⟨8, 8⟩ 2
    ⟨by decide, by decide, by decide, by decide, by decide, by decide⟩

/-- The last column of an image of 10 by 8 on a grid of 2: the gain of its first node is 1024, and the
ratio of its first sample is 512. -/
theorem last_column_not_interpolated :
    ¬ ∃ ratio, Interpolates (fun _ => 100) ⟨10, 8⟩ 2 (fun _ k => if k.val = 2 then 1024 else 0) ratio := by
  rintro ⟨ratio, h⟩
  have hmem : (0, 8) ∈ cells 8 10 := mem_cells.mpr (by decide)
  obtain ⟨k, hk, hnode⟩ := h.nodes (0, 8) hmem rfl rfl
  have hgain : ratio (0, 8) = 1024 := hnode.trans (if_pos hk)
  have hread : corRatio ⟨10, 8⟩ 2 (lncTabMerge fun _ (k : Fin 9) => if k.val = 2 then 1024 else 0) 0 8 =
      some 512 := by decide
  have hreads : some 512 = some (ratio (0, 8)) := hread.symm.trans (h.reads (0, 8) hmem)
  rw [hgain] at hreads
  exact absurd hreads (by decide)

end SprdHal.Calibration

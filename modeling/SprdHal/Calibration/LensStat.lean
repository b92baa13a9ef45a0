import Mathlib.Algebra.Order.BigOperators.Group.Finset
import Mathlib.Tactic.Ring
import SprdHal.Calibration.Grid
import SprdHal.Calibration.LensGain
import SprdHal.Lib.Buffer
import SprdHal.Lib.Tally

/-!
# Lens shading statistics (`isp_calibration.c`)

`_isp_Cali_LNC_Calc` pads an image on all sides to whole cells of `2 * grid` samples, in two temporary
maps, and sums up the samples of each channel in each cell. The maps are allocated with a number of
bytes that has 32 bits. Everything stays inside the buffers, and the sums and their maxima are exact,
if and only if a map has fewer than 2 ^ 31 samples (`lncCalc_iff`).
-/

namespace SprdHal.Calibration

open SprdHal.Lib

/-! ## The statistics -/

/-- `struct isp_lnc_cali_info`, with the number of samples for which each map is allocated. -/
structure IspLncCaliInfo where
  num : Nat
  gridX : Nat
  gridY : Nat
  mapWidth : Nat
  mapHeight : Nat
  tmpBuf : Nat

/-- `_isp_Cali_LNCResAlloc` with a `malloc` that succeeds. -/
def lncResAlloc (size : IspSize) (grid : Nat) : IspLncCaliInfo :=
  let gridX := size.gridX grid % 2 ^ 16
  let gridY := size.gridY grid % 2 ^ 16
  let mapWidth := gridX * (grid * 2) % 2 ^ 16
  let mapHeight := gridY * (grid * 2) % 2 ^ 16
  let length := mapWidth * mapHeight * 2 % 2 ^ 32
  ⟨gridX * gridY, gridX, gridY, mapWidth, mapHeight, length / 2⟩

/-- The samples that a `memcpy` with a size of `n * 2` copies. -/
def elements (n : Nat) : Nat := n * 2 % 2 ^ 32 / 2

/-- The rows of the image, with `lncGrid` rows above them and `addBottom` below. -/
def addTopBottom (img tmp : Buffer UInt16) (width height lncGrid addBottom : Nat) :
    Option (Buffer UInt16) := do
  let tmp ← tmp.copy 0 img 0 (elements (width * lncGrid))
  let dst := width * lncGrid
  let tmp ← tmp.copy dst img 0 (elements (width * height))
  let src := width * (height - addBottom)
  let dst := dst + width * height
  tmp.copy dst img src (elements (width * addBottom))

/-- So many rows, with `lncGrid` columns to the left and `addRight` to the right. -/
def addLeftRight (tmp : Buffer UInt16) (width lncGrid addRight : Nat) :
    Nat → Nat → Nat → Buffer UInt16 → Option (Buffer UInt16)
  | 0, _, _, map => some map
  | n + 1, src, dst, map => do
    let map ← map.copy dst tmp src (elements lncGrid)
    let dst := dst + lncGrid
    let map ← map.copy dst tmp src (elements width)
    let src := src + (width - addRight)
    let dst := dst + width
    let map ← map.copy dst tmp src (elements addRight)
    addLeftRight tmp width lncGrid addRight n (src + addRight) (dst + addRight) map

/-- A sample of the map is added to the cell of its channel. There is no result outside the map or the
cells. The sums of 10-bit samples are far from 32 bits. -/
def addStat (map : Buffer UInt16) (gridX num lncGrid : Nat) (stat : Option (Fin 4 × Nat → Nat))
    (y x src : Nat) : Option (Fin 4 × Nat → Nat) := do
  let stat ← stat
  let k := (inx y x, gridX * (y / lncGrid) + x / lncGrid)
  if src < map.size ∧ k.2 < num then
    some (Function.update stat k (stat k + (map.data src).toNat))
  else none

/-- The cells of the channels, and the loop that keeps their maxima. -/
def channelStats (num : Nat) (stat : Fin 4 × Nat → Nat) : Fin 4 → IspLncCaliStat num := fun chn =>
  ⟨runMax (fun k => stat (chn, k)) (num % 2 ^ 16) (stat (chn, 0)), fun k => stat (chn, k)⟩

/-- `_isp_Cali_LNC_Calc`: the statistics of the four channels. -/
def lncCalc (img : Buffer UInt16) (size : IspSize) (grid : Nat) (info : IspLncCaliInfo) :
    Option (Fin 4 → IspLncCaliStat info.num) := do
  let width := size.width.toNat
  let height := size.height.toNat
  let lncGrid := grid % 2 ^ 8
  let addRight := (info.mapWidth + 2 ^ 17 - (lncGrid + width)) % 2 ^ 16
  let addBottom := (info.mapHeight + 2 ^ 17 - (lncGrid + height)) % 2 ^ 16
  let tmp ← addTopBottom img ⟨info.tmpBuf, fun _ => 0⟩ width height lncGrid addBottom
  let map ← addLeftRight tmp width lncGrid addRight info.mapHeight 0 0 ⟨info.tmpBuf, fun _ => 0⟩
  let stat ← walkRows (addStat map info.gridX info.num (lncGrid * 2 % 2 ^ 8)) info.mapWidth 0
    info.mapWidth info.mapHeight 0 0 (some 0)
  return channelStats info.num stat

/-! ## What the statistics are to be -/

/-- The place in `n` places that is shown at `c`, with `before` places repeated in front and `behind`
at the end. -/
def padIndex (n before behind c : Nat) : Nat :=
  if c < before then c else if c < before + n then c - before else n - behind + (c - before - n)

/-- A sample of the padded image. -/
def padded (img : Buffer UInt16) (size : IspSize) (grid y x : Nat) : UInt16 :=
  let width := size.width.toNat
  let height := size.height.toNat
  let addRight := size.gridX grid * (grid * 2) - (grid + width)
  let addBottom := size.gridY grid * (grid * 2) - (grid + height)
  img.data (padIndex height grid addBottom y * width + padIndex width grid addRight x)

/-- The samples of a channel in a cell. -/
def cellSamples (grid gridX : Nat) (chn : Fin 4) (k : Nat) : Finset (Nat × Nat) :=
  (Finset.Ico (k / gridX * (grid * 2)) (k / gridX * (grid * 2) + grid * 2) ×ˢ
    Finset.Ico (k % gridX * (grid * 2)) (k % gridX * (grid * 2) + grid * 2)).filter
      fun p => inx p.1 p.2 = chn

/-- The sides of the map have 16 bits, and so has the number of its cells. -/
structure MapFits (size : IspSize) (grid : Nat) : Prop where
  width_lt : size.gridX grid * (grid * 2) < 2 ^ 16
  height_lt : size.gridY grid * (grid * 2) < 2 ^ 16
  num_lt : size.gridX grid * size.gridY grid < 2 ^ 16

/-- The map has room for the image, and the statistics are those of the padded image. -/
structure Exact (img : Buffer UInt16) (size : IspSize) (grid : Nat) (info : IspLncCaliInfo)
    (stats : Fin 4 → IspLncCaliStat info.num) : Prop where
  width_le : grid + size.width.toNat ≤ info.mapWidth
  height_le : grid + size.height.toNat ≤ info.mapHeight
  num_eq : info.num = size.gridX grid * size.gridY grid
  sums : ∀ chn k, (stats chn).stat k =
    ∑ p ∈ cellSamples grid info.gridX chn k, (padded img size grid p.1 p.2).toNat
  ofImage : ∀ chn, (stats chn).OfImage grid

/-! ## The size of the map -/

/-- **A side of the map** has room for the image, a border of `grid` samples, and less than three
more. -/
theorem side_mem {half grid : Nat} (hgrid : 2 ≤ grid) (hhalf : 2 * grid ≤ half) :
    grid + 2 * half ≤ gridNum half grid * (grid * 2) ∧
      gridNum half grid * (grid * 2) ≤ grid + 2 * half + 3 * grid := by
  have hdiv := Nat.div_add_mod (half - 1) grid
  have hmod : (half - 1) % grid < grid := Nat.mod_lt _ (by omega)
  have hside (n : Nat) : ((half - 1) / grid + n) * (grid * 2) =
      2 * (grid * ((half - 1) / grid)) + 2 * (n * grid) := by ring
  rw [gridNum]
  split_ifs
  all_goals
    rw [hside]
    omega

section Alloc

variable {size : IspSize} {grid : Nat} (h : GridFits size grid) (hm : MapFits size grid)

include h in
theorem width_mem : grid + size.width.toNat ≤ size.gridX grid * (grid * 2) ∧
    size.gridX grid * (grid * 2) ≤ grid + size.width.toNat + 3 * grid := by
  have heven := h.even_width
  have hwide := h.wide
  have htwo : 2 * (size.width.toNat / 2) = size.width.toNat := by omega
  have hside : _ ∧ _ := side_mem h.two_le (by omega : 2 * grid ≤ size.width.toNat / 2)
  rwa [htwo] at hside

include h in
theorem height_mem : grid + size.height.toNat ≤ size.gridY grid * (grid * 2) ∧
    size.gridY grid * (grid * 2) ≤ grid + size.height.toNat + 3 * grid := by
  have heven := h.even_height
  have htall := h.tall
  have htwo : 2 * (size.height.toNat / 2) = size.height.toNat := by omega
  have hside : _ ∧ _ := side_mem h.two_le (by omega : 2 * grid ≤ size.height.toNat / 2)
  rwa [htwo] at hside

include h hm in
/-- What is allocated, without the reductions to 16 bits. -/
theorem lncResAlloc_eq : lncResAlloc size grid =
    ⟨size.gridX grid * size.gridY grid, size.gridX grid, size.gridY grid,
      size.gridX grid * (grid * 2), size.gridY grid * (grid * 2),
      elements (size.gridX grid * (grid * 2) * (size.gridY grid * (grid * 2)))⟩ := by
  have hpos := h.two_le
  have hx : size.gridX grid % 2 ^ 16 = size.gridX grid := Nat.mod_eq_of_lt
    (Nat.lt_of_le_of_lt (Nat.le_mul_of_pos_right _ (by omega)) hm.width_lt)
  have hy : size.gridY grid % 2 ^ 16 = size.gridY grid := Nat.mod_eq_of_lt
    (Nat.lt_of_le_of_lt (Nat.le_mul_of_pos_right _ (by omega)) hm.height_lt)
  rw [lncResAlloc, hx, hy]
  simp only [Nat.mod_eq_of_lt hm.width_lt, Nat.mod_eq_of_lt hm.height_lt]
  rfl

end Alloc

theorem elements_of_lt {n : Nat} (h : n < 2 ^ 31) : elements n = n := by
  rw [elements]
  omega

theorem mul_add_lt_mul {y x rows cols : Nat} (hy : y < rows) (hx : x < cols) :
    y * cols + x < rows * cols :=
  calc y * cols + x < (y + 1) * cols := by
        rw [Nat.succ_mul]
        omega
    _ ≤ rows * cols := Nat.mul_le_mul_right _ hy

/-! ## Borders -/

theorem padIndex_lt {n before behind c : Nat} (hbefore : before ≤ n) (hbehind : behind ≤ n)
    (hc : c < before + n + behind) : padIndex n before behind c < n := by
  rw [padIndex]
  split_ifs
  all_goals omega

/-- Rows repeated in front and at the end, for a place in rows of `w`. -/
theorem padIndex_mul {w n before behind y x : Nat} (hx : x < w) (hbehind : behind ≤ n) :
    padIndex (w * n) (w * before) (w * behind) (y * w + x) = padIndex n before behind y * w + x := by
  have hlt (m : Nat) : y * w + x < w * m ↔ y < m := by
    constructor
    · intro h
      by_contra hle
      have hmul : w * m ≤ w * y := Nat.mul_le_mul_left _ (Nat.le_of_not_lt hle)
      rw [Nat.mul_comm w y] at hmul
      omega
    · intro h
      have hmul : w * (y + 1) ≤ w * m := Nat.mul_le_mul_left _ h
      rw [Nat.mul_succ, Nat.mul_comm w y] at hmul
      omega
  rw [padIndex, padIndex, ← Nat.mul_add, if_congr (hlt before) rfl rfl,
    if_congr (hlt (before + n)) rfl rfl]
  split_ifs with hy hy'
  · rfl
  · rw [Nat.sub_mul, Nat.mul_comm before]
    have hmul : w * before ≤ w * y := Nat.mul_le_mul_left _ (Nat.le_of_not_lt hy)
    rw [Nat.mul_comm w y] at hmul
    omega
  · have hmul : w * (before + n) ≤ w * y := Nat.mul_le_mul_left _ (Nat.le_of_not_lt hy')
    have hle : w * behind ≤ w * n := Nat.mul_le_mul_left _ hbehind
    rw [Nat.add_mul, Nat.sub_mul, Nat.sub_mul, Nat.sub_mul, Nat.mul_comm n, Nat.mul_comm behind,
      Nat.mul_comm before]
    rw [Nat.mul_add, Nat.mul_comm w y] at hmul
    omega

/-- **The rows**: the map has those of the image, the first ones above and the last ones below. -/
theorem exists_addTopBottom {img : Buffer UInt16} (tmp : Buffer UInt16) {w h before behind : Nat}
    (himg : img.size = w * h) (hbefore : before ≤ h) (hbehind : behind ≤ h)
    (htmp : w * (before + h + behind) ≤ tmp.size) (hlt : w * (before + h + behind) < 2 ^ 31) :
    ∃ b, addTopBottom img tmp w h before behind = some b ∧ b.size = tmp.size ∧
      b.Filled (w * before + w * h + w * behind)
        (fun i => img.data (padIndex (w * h) (w * before) (w * behind) i)) := by
  have hbefore' : w * before ≤ w * h := Nat.mul_le_mul_left _ hbefore
  have hbehind' : w * behind ≤ w * h := Nat.mul_le_mul_left _ hbehind
  rw [Nat.mul_add, Nat.mul_add] at htmp hlt
  have hsub : w * (h - behind) = w * h - w * behind := Nat.mul_sub ..
  have hzero := tmp.filled_zero fun i => img.data (padIndex (w * h) (w * before) (w * behind) i)
  obtain ⟨b₁, h₁, hsize₁, hfilled₁⟩ := hzero.copy img 0 (w * before) (by omega) (by omega)
    fun i hi => by rw [padIndex, if_pos (by omega)]
  rw [Nat.zero_add] at hfilled₁
  obtain ⟨b₂, h₂, hsize₂, hfilled₂⟩ := hfilled₁.copy img 0 (w * h) (by omega) (by omega)
    fun i hi => by
      rw [padIndex, if_neg (by omega), if_pos (by omega), Nat.add_sub_cancel_left, Nat.zero_add]
  obtain ⟨b₃, h₃, hsize₃, hfilled₃⟩ :=
    hfilled₂.copy img (w * h - w * behind) (w * behind) (by omega) (by omega) fun i hi => by
      rw [padIndex, if_neg (by omega), if_neg (by omega)]
      congr 1
      omega
  refine ⟨b₃, ?_, by rw [hsize₃, hsize₂, hsize₁], hfilled₃⟩
  rw [addTopBottom, elements_of_lt (by omega), elements_of_lt (by omega), elements_of_lt (by omega)]
  simp only [hsub, h₁, h₂, h₃, Option.bind_eq_bind, Option.bind_some]

/-- **The columns**: each row has its first samples in front of it and its last ones behind it. -/
theorem exists_addLeftRight {tmp : Buffer UInt16} {w before behind n : Nat} (y : Nat)
    (map : Buffer UInt16) (hbefore : before ≤ w) (hbehind : behind ≤ w) (hlt : before + w + behind < 2 ^ 31)
    (htmp : (y + n) * w ≤ tmp.size) (hsize : (y + n) * (before + w + behind) ≤ map.size)
    (hfilled : map.Filled (y * (before + w + behind)) fun i =>
      tmp.data (i / (before + w + behind) * w + padIndex w before behind (i % (before + w + behind)))) :
    ∃ b, addLeftRight tmp w before behind n (y * w) (y * (before + w + behind)) map = some b ∧
      b.Filled ((y + n) * (before + w + behind)) (fun i =>
        tmp.data (i / (before + w + behind) * w +
          padIndex w before behind (i % (before + w + behind)))) ∧ b.size = map.size := by
  induction n generalizing y map with
  | zero => exact ⟨map, rfl, hfilled, rfl⟩
  | succ n ih =>
    have hrow (c : Nat) (hc : c < before + w + behind) :
        (y * (before + w + behind) + c) / (before + w + behind) = y ∧
          (y * (before + w + behind) + c) % (before + w + behind) = c := by
      rw [Nat.mul_comm y, Nat.mul_add_div (by omega), Nat.mul_add_mod, Nat.div_eq_of_lt hc,
        Nat.mod_eq_of_lt hc]
      exact ⟨rfl, rfl⟩
    have htmp' : (y + 1) * w ≤ (y + (n + 1)) * w := Nat.mul_le_mul_right _ (by omega)
    have hsize' : (y + 1) * (before + w + behind) ≤ (y + (n + 1)) * (before + w + behind) :=
      Nat.mul_le_mul_right _ (by omega)
    rw [Nat.succ_mul] at htmp' hsize'
    obtain ⟨b₁, h₁, hsize₁, hfilled₁⟩ := hfilled.copy tmp (y * w) before (by omega) (by omega)
      fun i hi => by
        obtain ⟨hdiv, hmod⟩ := hrow i (by omega)
        rw [hdiv, hmod, padIndex, if_pos hi]
    obtain ⟨b₂, h₂, hsize₂, hfilled₂⟩ := hfilled₁.copy tmp (y * w) w (by omega) (by omega)
      fun i hi => by
        obtain ⟨hdiv, hmod⟩ := hrow (before + i) (by omega)
        rw [Nat.add_assoc, hdiv, hmod, padIndex, if_neg (by omega), if_pos (by omega),
          Nat.add_sub_cancel_left]
    obtain ⟨b₃, h₃, hsize₃, hfilled₃⟩ :=
      hfilled₂.copy tmp (y * w + (w - behind)) behind (by omega) (by omega) fun i hi => by
        obtain ⟨hdiv, hmod⟩ := hrow (before + w + i) (by omega)
        rw [Nat.add_assoc _ before w, Nat.add_assoc _ (before + w) i, hdiv, hmod, padIndex,
          if_neg (by omega), if_neg (by omega)]
        congr 1
        omega
    have hnext : y * (before + w + behind) + before + w + behind = (y + 1) * (before + w + behind) := by
      rw [Nat.succ_mul]
      omega
    have hnext' : y * w + (w - behind) + behind = (y + 1) * w := by
      rw [Nat.succ_mul]
      omega
    rw [hnext] at hfilled₃
    have hcount : y + (n + 1) = y + 1 + n := by omega
    rw [hcount] at htmp hsize ⊢
    obtain ⟨b, hb, hfilled, hbsize⟩ :=
      ih (y + 1) b₃ htmp (by rw [hsize₃, hsize₂, hsize₁]; exact hsize) hfilled₃
    refine ⟨b, ?_, hfilled, by rw [hbsize, hsize₃, hsize₂, hsize₁]⟩
    rw [addLeftRight, elements_of_lt (by omega), elements_of_lt (by omega), elements_of_lt (by omega)]
    simp only [h₁, h₂, h₃, hnext, hnext', Option.bind_eq_bind, Option.bind_some]
    exact hb

/-- A run of the columns has filled its last row. -/
theorem le_size_of_addLeftRight {tmp map b : Buffer UInt16} {w before behind n src dst : Nat}
    (hbefore : before < 2 ^ 31) (hw : w < 2 ^ 31) (hbehind : behind < 2 ^ 31)
    (h : addLeftRight tmp w before behind n src dst map = some b) (hn : 0 < n) :
    dst + n * (before + w + behind) ≤ map.size := by
  induction n generalizing src dst map with
  | zero => exact absurd hn (Nat.lt_irrefl 0)
  | succ n ih =>
    rw [addLeftRight, elements_of_lt hbefore, elements_of_lt hw, elements_of_lt hbehind] at h
    simp only [Option.bind_eq_bind, Option.bind_eq_some_iff] at h
    obtain ⟨b₁, h₁, b₂, h₂, b₃, h₃, h⟩ := h
    obtain ⟨-, -, hsize₁⟩ := Buffer.size_of_copy h₁
    obtain ⟨-, -, hsize₂⟩ := Buffer.size_of_copy h₂
    obtain ⟨-, hin, hsize₃⟩ := Buffer.size_of_copy h₃
    rw [Nat.succ_mul]
    rcases Nat.eq_zero_or_pos n with rfl | hpos
    · omega
    · have hrest := ih h hpos
      omega

/-! ## Cells -/

/-- The sums go on while the samples are in the map and in the cells. -/
theorem foldl_addStat {map : Buffer UInt16} {gridX num lncGrid stride : Nat}
    {l : List (Nat × Nat)}
    (h : ∀ d ∈ l, d.1 * stride + d.2 < map.size ∧ gridX * (d.1 / lncGrid) + d.2 / lncGrid < num)
    (stat : Fin 4 × Nat → Nat) :
    l.foldl (fun s d => addStat map gridX num lncGrid s (0 + d.1) (0 + d.2) (0 + d.1 * stride + d.2))
        (some stat) =
      some (l.foldl (tally
        (fun d => (inx d.1 d.2, gridX * (d.1 / lncGrid) + d.2 / lncGrid))
        fun d => (map.data (d.1 * stride + d.2)).toNat) stat) := by
  induction l generalizing stat with
  | nil => rfl
  | cons d l ih =>
    have hd := h d List.mem_cons_self
    have hstep : addStat map gridX num lncGrid (some stat) (0 + d.1) (0 + d.2)
        (0 + d.1 * stride + d.2) = some (tally
          (fun d => (inx d.1 d.2, gridX * (d.1 / lncGrid) + d.2 / lncGrid))
          (fun d => (map.data (d.1 * stride + d.2)).toNat) stat d) := by
      simp only [Nat.zero_add]
      exact if_pos hd
    rw [List.foldl_cons, hstep, List.foldl_cons]
    exact ih (fun d' hd' => h d' (List.mem_cons_of_mem _ hd')) _

/-- The cells of a map, each of them in its row and column. -/
theorem filter_cells {g gridX gridY : Nat} (hg : 0 < g) {chn : Fin 4} {k : Nat}
    (hk : k < gridX * gridY) :
    ((cells (gridY * g) (gridX * g)).toFinset.filter fun d =>
      (inx d.1 d.2, gridX * (d.1 / g) + d.2 / g) = (chn, k)) =
    (Finset.Ico (k / gridX * g) (k / gridX * g + g) ×ˢ
      Finset.Ico (k % gridX * g) (k % gridX * g + g)).filter fun p => inx p.1 p.2 = chn := by
  have hpos : 0 < gridX := Nat.pos_of_mul_pos_right (Nat.lt_of_le_of_lt (Nat.zero_le k) hk)
  ext d
  rw [Finset.mem_filter, Finset.mem_filter, List.mem_toFinset, mem_cells, Finset.mem_product,
    Finset.mem_Ico, Finset.mem_Ico, Prod.mk.injEq, ← Nat.div_lt_iff_lt_mul hg,
    ← Nat.div_lt_iff_lt_mul hg]
  have hico (a c : Nat) : a * g ≤ c ∧ c < a * g + g ↔ c / g = a := by
    rw [← Nat.succ_mul, ← Nat.le_div_iff_mul_le hg, ← Nat.div_lt_iff_lt_mul hg]
    omega
  rw [hico, hico]
  constructor
  · rintro ⟨⟨-, hx⟩, hinx, hcell⟩
    rw [← hcell, Nat.mul_add_div hpos, Nat.mul_add_mod, Nat.div_eq_of_lt hx, Nat.mod_eq_of_lt hx]
    exact ⟨⟨rfl, rfl⟩, hinx⟩
  · rintro ⟨⟨hy, hx⟩, hinx⟩
    rw [hy, hx]
    exact ⟨⟨Nat.div_lt_of_lt_mul hk, Nat.mod_lt _ hpos⟩, hinx, Nat.div_add_mod k gridX⟩

/-- A cell has at most `grid * grid` samples of a channel. -/
theorem card_cellSamples_le (grid gridX : Nat) (chn : Fin 4) (k : Nat) :
    (cellSamples grid gridX chn k).card ≤ grid * grid := by
  have hcard : (Finset.range grid ×ˢ Finset.range grid).card = grid * grid := by
    rw [Finset.card_product, Finset.card_range]
  rw [← hcard]
  refine Finset.card_le_card_of_injOn
    (fun p => ((p.1 - k / gridX * (grid * 2)) / 2, (p.2 - k % gridX * (grid * 2)) / 2)) ?_ ?_
  · intro p hp
    obtain ⟨hp, -⟩ := Finset.mem_filter.mp (Finset.mem_coe.mp hp)
    rw [Finset.mem_product, Finset.mem_Ico, Finset.mem_Ico] at hp
    rw [Finset.mem_coe, Finset.mem_product, Finset.mem_range, Finset.mem_range]
    dsimp only
    omega
  · intro p hp q hq heq
    obtain ⟨hp, hpchn⟩ := Finset.mem_filter.mp (Finset.mem_coe.mp hp)
    obtain ⟨hq, hqchn⟩ := Finset.mem_filter.mp (Finset.mem_coe.mp hq)
    rw [Finset.mem_product, Finset.mem_Ico, Finset.mem_Ico] at hp hq
    have hinx := congrArg Fin.val (hpchn.trans hqchn.symm)
    have hrow := congrArg Prod.fst heq
    have hcol := congrArg Prod.snd heq
    simp only [inx] at hinx hrow hcol
    exact Prod.ext (by omega) (by omega)

/-! ## The statistics of an image -/

section Calc

variable {img : Buffer UInt16} {size : IspSize} {grid : Nat} (h : GridFits size grid)
  (hm : MapFits size grid) (himg : img.size = size.width.toNat * size.height.toNat)

/-- The number of samples of a map. -/
def mapSamples (size : IspSize) (grid : Nat) : Nat :=
  size.gridX grid * (grid * 2) * (size.gridY grid * (grid * 2))

include h hm himg in
/-- **The map** of an image, if it has fewer than 2 ^ 31 samples, is the padded image. -/
theorem exists_map (hlt : mapSamples size grid < 2 ^ 31) :
    ∃ tmp map : Buffer UInt16,
      addTopBottom img ⟨elements (mapSamples size grid), fun _ => 0⟩ size.width.toNat
        size.height.toNat grid (size.gridY grid * (grid * 2) - (grid + size.height.toNat)) = some tmp ∧
      addLeftRight tmp size.width.toNat grid
        (size.gridX grid * (grid * 2) - (grid + size.width.toNat)) (size.gridY grid * (grid * 2)) 0 0
        ⟨elements (mapSamples size grid), fun _ => 0⟩ = some map ∧
      map.size = mapSamples size grid ∧
      ∀ y x, y < size.gridY grid * (grid * 2) → x < size.gridX grid * (grid * 2) →
        map.data (y * (size.gridX grid * (grid * 2)) + x) = padded img size grid y x := by
  have hwide := h.wide
  have htall := h.tall
  obtain ⟨hw, hw'⟩ := width_mem h
  obtain ⟨hh, hh'⟩ := height_mem h
  have hcols : grid + size.width.toNat + (size.gridX grid * (grid * 2) - (grid + size.width.toNat)) =
      size.gridX grid * (grid * 2) := Nat.add_sub_cancel' hw
  have hrows : grid + size.height.toNat + (size.gridY grid * (grid * 2) - (grid + size.height.toNat)) =
      size.gridY grid * (grid * 2) := Nat.add_sub_cancel' hh
  have hband : size.width.toNat * (size.gridY grid * (grid * 2)) ≤ mapSamples size grid :=
    Nat.mul_le_mul_right _ (by omega)
  rw [elements_of_lt hlt]
  obtain ⟨tmp, htmp, htmpSize, htmpData⟩ := exists_addTopBottom ⟨mapSamples size grid, fun _ => 0⟩ himg
    (by omega : grid ≤ size.height.toNat)
    (by omega : size.gridY grid * (grid * 2) - (grid + size.height.toNat) ≤ size.height.toNat)
    (by rw [hrows]; exact hband) (by rw [hrows]; exact Nat.lt_of_le_of_lt hband hlt)
  have hsize : size.gridY grid * (grid * 2) * (grid + size.width.toNat +
      (size.gridX grid * (grid * 2) - (grid + size.width.toNat))) = mapSamples size grid := by
    rw [hcols, Nat.mul_comm]
    rfl
  have htmpLen : size.gridY grid * (grid * 2) * size.width.toNat ≤ tmp.size := by
    rw [htmpSize, Nat.mul_comm]
    exact hband
  have hmapWidth := hm.width_lt
  obtain ⟨map, hmap, hmapData, hmapSize⟩ :=
    exists_addLeftRight 0 ⟨mapSamples size grid, fun _ => 0⟩ (by omega : grid ≤ size.width.toNat)
      (by omega : size.gridX grid * (grid * 2) - (grid + size.width.toNat) ≤ size.width.toNat)
      (by omega) (by rw [Nat.zero_add]; exact htmpLen) (by rw [Nat.zero_add]; exact hsize.le)
      (by rw [Nat.zero_mul]; exact Buffer.filled_zero _ _)
  rw [Nat.zero_mul, Nat.zero_mul] at hmap
  refine ⟨tmp, map, htmp, hmap, hmapSize, fun y x hy hx => ?_⟩
  rw [Nat.zero_add, hcols] at hmapData
  have hflat : y * (size.gridX grid * (grid * 2)) + x <
      size.gridY grid * (grid * 2) * (size.gridX grid * (grid * 2)) :=
    mul_add_lt_mul hy hx
  have hpad : padIndex size.width.toNat grid
      (size.gridX grid * (grid * 2) - (grid + size.width.toNat)) x < size.width.toNat :=
    padIndex_lt (by omega) (by omega) (by omega)
  have hbands : size.width.toNat * grid + size.width.toNat * size.height.toNat +
      size.width.toNat * (size.gridY grid * (grid * 2) - (grid + size.height.toNat)) =
        size.gridY grid * (grid * 2) * size.width.toNat := by
    rw [← Nat.mul_add, ← Nat.mul_add, hrows, Nat.mul_comm]
  have htmpFlat : y * size.width.toNat + padIndex size.width.toNat grid
      (size.gridX grid * (grid * 2) - (grid + size.width.toNat)) x <
        size.gridY grid * (grid * 2) * size.width.toNat :=
    mul_add_lt_mul hy hpad
  rw [hbands] at htmpData
  rw [hmapData _ hflat]
  dsimp only
  rw [Nat.mul_comm y, Nat.mul_add_div (by omega), Nat.mul_add_mod, Nat.div_eq_of_lt hx,
    Nat.mod_eq_of_lt hx, Nat.add_zero, htmpData _ htmpFlat]
  dsimp only
  rw [padIndex_mul hpad (by omega)]
  rfl

include h in
/-- A sample of the padded image is one of the image. -/
theorem padded_le {y x : Nat} (hbits : ∀ i < size.width.toNat * size.height.toNat,
    (img.data i).toNat ≤ 1023) (hy : y < size.gridY grid * (grid * 2))
    (hx : x < size.gridX grid * (grid * 2)) : (padded img size grid y x).toNat ≤ 1023 := by
  have hwide := h.wide
  have htall := h.tall
  obtain ⟨hw, hw'⟩ := width_mem h
  obtain ⟨hh, hh'⟩ := height_mem h
  refine hbits _ ?_
  rw [Nat.mul_comm size.width.toNat]
  exact mul_add_lt_mul (padIndex_lt (by omega) (by omega) (by omega))
    (padIndex_lt (by omega) (by omega) (by omega))

/-- The sums of the padded image over the cells. -/
def cellSums (img : Buffer UInt16) (size : IspSize) (grid : Nat) (k : Fin 4 × Nat) : Nat :=
  ∑ p ∈ cellSamples grid (size.gridX grid) k.1 k.2, (padded img size grid p.1 p.2).toNat

/-- A sample of a cell of the map is one of the map. -/
theorem lt_of_mem_cellSamples {chn : Fin 4} {k : Nat}
    (hk : k < size.gridX grid * size.gridY grid) (hgrid : 0 < grid) {p : Nat × Nat}
    (hp : p ∈ cellSamples grid (size.gridX grid) chn k) :
    p.1 < size.gridY grid * (grid * 2) ∧ p.2 < size.gridX grid * (grid * 2) := by
  rw [cellSamples, ← filter_cells (by omega) hk, Finset.mem_filter, List.mem_toFinset, mem_cells] at hp
  exact hp.1

include h in
/-- **The statistics** of a map that is the padded image. -/
theorem exists_stat {map : Buffer UInt16} (hsize : map.size = mapSamples size grid)
    (hmap : ∀ y x, y < size.gridY grid * (grid * 2) → x < size.gridX grid * (grid * 2) →
      map.data (y * (size.gridX grid * (grid * 2)) + x) = padded img size grid y x) :
    ∃ stat : Fin 4 × Nat → Nat,
      walkRows (addStat map (size.gridX grid) (size.gridX grid * size.gridY grid) (grid * 2))
        (size.gridX grid * (grid * 2)) 0 (size.gridX grid * (grid * 2))
        (size.gridY grid * (grid * 2)) 0 0 (some 0) = some stat ∧
      ∀ chn k, k < size.gridX grid * size.gridY grid → stat (chn, k) = cellSums img size grid (chn, k) := by
  have hgrid := h.two_le
  have hin : ∀ d ∈ cells (size.gridY grid * (grid * 2)) (size.gridX grid * (grid * 2)),
      d.1 * (size.gridX grid * (grid * 2)) + d.2 < map.size ∧
        size.gridX grid * (d.1 / (grid * 2)) + d.2 / (grid * 2) <
          size.gridX grid * size.gridY grid := by
    intro d hd
    rw [mem_cells] at hd
    constructor
    · rw [hsize, mapSamples, Nat.mul_comm (size.gridX grid * (grid * 2))]
      exact mul_add_lt_mul hd.1 hd.2
    · rw [Nat.mul_comm (size.gridX grid), Nat.mul_comm (size.gridX grid)]
      exact mul_add_lt_mul ((Nat.div_lt_iff_lt_mul (by omega)).mpr hd.1)
        ((Nat.div_lt_iff_lt_mul (by omega)).mpr hd.2)
  refine ⟨_, (walkRows_eq _ _ _ _ _ _ _ _).trans (foldl_addStat hin 0), fun chn k hk => ?_⟩
  rw [foldl_tally_finset _ _ (nodup_cells _ _), Pi.zero_apply, Nat.zero_add,
    filter_cells (by omega) hk]
  refine Finset.sum_congr rfl fun p hp => ?_
  obtain ⟨hy, hx⟩ := lt_of_mem_cellSamples hk (by omega) hp
  rw [hmap p.1 p.2 hy hx]

/-- The maximum that the loop keeps is that of the cells. -/
theorem isGreatest_channelStats {num : Nat} (hpos : 0 < num) (hnum : num < 2 ^ 16)
    (stat : Fin 4 × Nat → Nat) (chn : Fin 4) :
    IsGreatest (Set.range (channelStats num stat chn).stat) (channelStats num stat chn).maxStat := by
  obtain ⟨hmem, hle⟩ := isGreatest_runMax (fun k => stat (chn, k)) (num % 2 ^ 16) (stat (chn, 0))
  rw [Nat.mod_eq_of_lt hnum] at hmem hle
  simp only [channelStats, Nat.mod_eq_of_lt hnum]
  constructor
  · rcases hmem with heq | ⟨k, hk, heq⟩
    · exact ⟨⟨0, hpos⟩, heq.symm⟩
    · exact ⟨⟨k, hk⟩, heq.symm⟩
  · rintro _ ⟨k, rfl⟩
    exact hle (.inr ⟨k, k.isLt, rfl⟩)

include h in
/-- A sum of 10-bit samples. -/
theorem cellSums_le (hbits : ∀ i < size.width.toNat * size.height.toNat, (img.data i).toNat ≤ 1023)
    {chn : Fin 4} {k : Nat} (hk : k < size.gridX grid * size.gridY grid) :
    cellSums img size grid (chn, k) ≤ 1023 * grid * grid := by
  have hgrid := h.two_le
  have hsum : cellSums img size grid (chn, k) ≤
      (cellSamples grid (size.gridX grid) chn k).card * 1023 := by
    refine Finset.sum_le_card_nsmul _ _ _ fun p hp => ?_
    obtain ⟨hy, hx⟩ := lt_of_mem_cellSamples hk (by omega) hp
    exact padded_le h hbits hy hx
  calc cellSums img size grid (chn, k) ≤ grid * grid * 1023 :=
        hsum.trans (Nat.mul_le_mul_right _ (card_cellSamples_le _ _ _ _))
    _ = 1023 * grid * grid := by ring

include h hm himg in
/-- **The statistics are exact** for a map with fewer than 2 ^ 31 samples. -/
theorem exists_lncCalc (hbits : ∀ i < size.width.toNat * size.height.toNat,
    (img.data i).toNat ≤ 1023) (hlt : mapSamples size grid < 2 ^ 31) :
    ∃ stats, lncCalc img size grid (lncResAlloc size grid) = some stats ∧
      Exact img size grid (lncResAlloc size grid) stats := by
  obtain ⟨hw, hw'⟩ := width_mem h
  obtain ⟨hh, hh'⟩ := height_mem h
  have hgrid := h.two_le
  have hgrid' := h.le
  have hwidth := size.width.toNat_lt
  have hheight := size.height.toNat_lt
  have hmapWidth := hm.width_lt
  have hmapHeight := hm.height_lt
  obtain ⟨tmp, map, htmp, hmap, hmapSize, hmapData⟩ := exists_map h hm himg hlt
  obtain ⟨stat, hstat, hsums⟩ := exists_stat h hmapSize hmapData
  have hlnc : grid % 2 ^ 8 = grid := by omega
  have hlnc' : grid * 2 % 2 ^ 8 = grid * 2 := by omega
  have hright : (size.gridX grid * (grid * 2) + 2 ^ 17 - (grid + size.width.toNat)) % 2 ^ 16 =
      size.gridX grid * (grid * 2) - (grid + size.width.toNat) := by omega
  have hbottom : (size.gridY grid * (grid * 2) + 2 ^ 17 - (grid + size.height.toNat)) % 2 ^ 16 =
      size.gridY grid * (grid * 2) - (grid + size.height.toNat) := by omega
  have hinfo := lncResAlloc_eq h hm
  generalize lncResAlloc size grid = info at hinfo ⊢
  subst hinfo
  refine ⟨channelStats _ stat, ?_, hw, hh, rfl, fun chn k => hsums chn k k.isLt, fun chn => ?_⟩
  · rw [lncCalc]
    simp only [hlnc, hlnc', hright, hbottom]
    rw [← mapSamples, htmp, Option.bind_eq_bind, Option.bind_some, hmap, Option.bind_eq_bind,
      Option.bind_some, hstat]
    rfl
  · have hpos : 0 < size.gridX grid * size.gridY grid := by
      refine Nat.mul_pos ?_ ?_
      · exact Nat.pos_of_mul_pos_right (Nat.lt_of_lt_of_le (by omega) hw)
      · exact Nat.pos_of_mul_pos_right (Nat.lt_of_lt_of_le (by omega) hh)
    refine ⟨fun k => ?_, isGreatest_channelStats hpos hm.num_lt stat chn⟩
    exact (hsums chn k k.isLt).le.trans (cellSums_le h hbits k.isLt)

include h hm in
/-- **A larger map** is allocated too small: its last row is not in it. -/
theorem mapSamples_lt (stats : Fin 4 → IspLncCaliStat (lncResAlloc size grid).num)
    (hrun : lncCalc img size grid (lncResAlloc size grid) = some stats) :
    mapSamples size grid < 2 ^ 31 := by
  obtain ⟨hw, hw'⟩ := width_mem h
  obtain ⟨hh, hh'⟩ := height_mem h
  have hgrid := h.two_le
  have hgrid' := h.le
  have hwidth := size.width.toNat_lt
  have hmapWidth := hm.width_lt
  have hbound : mapSamples size grid < 2 ^ 32 := by
    have hnum := hm.num_lt
    calc mapSamples size grid = size.gridX grid * size.gridY grid * (grid * 2 * (grid * 2)) := by
          rw [mapSamples]
          ring
      _ ≤ (2 ^ 16 - 1) * (254 * 254) :=
          Nat.mul_le_mul (by omega) (Nat.mul_le_mul (by omega) (by omega))
      _ < 2 ^ 32 := by decide
  have hlnc : grid % 2 ^ 8 = grid := by omega
  have hright : (size.gridX grid * (grid * 2) + 2 ^ 17 - (grid + size.width.toNat)) % 2 ^ 16 =
      size.gridX grid * (grid * 2) - (grid + size.width.toNat) := by omega
  have hinfo := lncResAlloc_eq h hm
  generalize lncResAlloc size grid = info at hinfo stats hrun
  subst hinfo
  rw [lncCalc] at hrun
  simp only [hlnc, hright, Option.bind_eq_bind, Option.bind_eq_some_iff] at hrun
  obtain ⟨tmp, -, map, hmap, -⟩ := hrun
  have hsize := le_size_of_addLeftRight (by omega) (by omega) (by omega) hmap (by omega)
  rw [Nat.add_sub_cancel' hw, Nat.zero_add, Nat.mul_comm] at hsize
  by_contra hge
  have helements : elements (mapSamples size grid) = mapSamples size grid - 2 ^ 31 := by
    rw [elements]
    omega
  dsimp only at hsize
  rw [← mapSamples, helements] at hsize
  omega

end Calc

/-- **The statistics** stay in their buffers and are exact if and only if a map has fewer than 2 ^ 31
samples. -/
theorem lncCalc_iff (img : Buffer UInt16) (size : IspSize) (grid : Nat) (h : GridFits size grid)
    (hm : MapFits size grid) (himg : img.size = size.width.toNat * size.height.toNat)
    (hbits : ∀ i < size.width.toNat * size.height.toNat, (img.data i).toNat ≤ 1023) :
    (∃ stats, lncCalc img size grid (lncResAlloc size grid) = some stats ∧
      Exact img size grid (lncResAlloc size grid) stats) ↔ mapSamples size grid < 2 ^ 31 :=
  ⟨fun ⟨stats, hrun, _⟩ => mapSamples_lt h hm stats hrun, exists_lncCalc h hm himg hbits⟩

theorem lncCalc_eight_by_eight :
    (∃ stats, lncCalc ⟨64, fun _ => 1023⟩ ⟨8, 8⟩ 2 (lncResAlloc ⟨8, 8⟩ 2) = some stats ∧
      Exact ⟨64, fun _ => 1023⟩ ⟨8, 8⟩ 2 (lncResAlloc ⟨8, 8⟩ 2) stats) ↔
        mapSamples ⟨8, 8⟩ 2 < 2 ^ 31 :=
  lncCalc_iff ⟨64, fun _ => 1023⟩ ⟨8, 8⟩ 2
    ⟨by decide, by decide, by decide, by decide, by decide, by decide⟩
    ⟨by decide, by decide, by decide⟩ rfl fun _ _ => le_rfl

/-- The maps of an image of 46340 by 46340 on a grid of 127 have 46736 by 46736 samples, and are
allocated with 73540096 bytes. -/
theorem large_map_left :
    ¬ ∃ stats, lncCalc ⟨46340 * 46340, fun _ => 0⟩ ⟨46340, 46340⟩ 127 (lncResAlloc ⟨46340, 46340⟩ 127) =
      some stats := by
  rintro ⟨stats, hrun⟩
  have hfits : GridFits ⟨46340, 46340⟩ 127 :=
    ⟨by decide, by decide, by decide, by decide, by decide, by decide⟩
  have hlt := mapSamples_lt hfits ⟨by decide, by decide, by decide⟩ stats hrun
  exact absurd hlt (by decide)

end SprdHal.Calibration

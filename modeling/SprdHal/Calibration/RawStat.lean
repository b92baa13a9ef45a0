import Mathlib.Algebra.Order.BigOperators.Group.Finset
import Mathlib.Tactic.Ring
import SprdHal.Calibration.Bayer
import SprdHal.Lib.Tally

/-!
# Raw statistics (`isp_calibration.c`)

`ISP_Cali_Get_RawRGB_Stat` means the samples of each colour in a rectangle of a raw image, and
`ISP_Cali_BLCorrecton` subtracts such means. The two give the same colours to the samples. The rows
of the statistics are as far apart as the rectangle is wide, not as the image is: they describe the
rectangle if and only if it is as wide as the image (`rawRgbStat_iff`).
-/

namespace SprdHal.Calibration

open SprdHal.Lib

attribute [local instance] neZero_channels

/-! ## Statistics -/

/-- `sum` and `cnts`, and the samples that were read. Those of a rectangle with sides of 16 bits are
below the limits of their types. -/
structure Sums where
  sum : Fin 4 → Nat
  cnts : Fin 4 → Nat
  reads : List Nat

/-- `sum[inx] += *src_bits; cnts[inx]++` -/
def Sums.add (img : Nat → UInt16) (s : Sums) (i j src : Nat) : Sums where
  sum := Function.update s.sum (inx i j) (s.sum (inx i j) + (img src).toNat)
  cnts := Function.update s.cnts (inx i j) (s.cnts (inx i j) + 1)
  reads := s.reads ++ [src]

/-- The cases of `byer_pttn`. -/
def statParam : BayerPtn → (Fin 4 → Nat) → IspBayerPtnStat
  | .b, sum => { bStat := sum 0, gbStat := sum 1, grStat := sum 2, rStat := sum 3 }
  | .gb, sum => { gbStat := sum 0, bStat := sum 1, rStat := sum 2, grStat := sum 3 }
  | .gr, sum => { grStat := sum 0, rStat := sum 1, bStat := sum 2, gbStat := sum 3 }
  | .r, sum => { rStat := sum 0, grStat := sum 1, gbStat := sum 2, bStat := sum 3 }

/-- `ISP_Cali_Get_RawRGB_Stat`, with the samples that it has read, counted from the first one of the
image. The size of the image is not looked at. There is no result where it divides by zero. -/
def rawRgbStat (img : Nat → UInt16) (rect : IspRect) (ptn : BayerPtn) :
    Option (IspBayerPtnStat × List Nat) :=
  let stride := rect.width.toNat
  let stX := rect.x.toNat
  let stY := rect.y.toNat
  let edX := (rect.x.toNat + rect.width.toNat + 2 ^ 32 - 1) % 2 ^ 32
  let edY := (rect.y.toNat + rect.height.toNat + 2 ^ 32 - 1) % 2 ^ 32
  let s := walkRows (Sums.add img) (edX + 1 - stX) stX stride (edY + 1 - stY) stY
    (stY * stride + stX) ⟨0, 0, []⟩
  if ∃ k, s.cnts k = 0 then none else some (statParam ptn fun k => s.sum k / s.cnts k, s.reads)

/-! ## Black level correction -/

/-- The number that is subtracted from the sample in row `i` and column `j`. -/
def blcOffset (ptn : BayerPtn) (stat : IspBayerPtnStat) (i j : Nat) : Nat :=
  let blcGr := stat.grStat % 2 ^ 16
  let blcGb := stat.gbStat % 2 ^ 16
  let blcR := stat.rStat % 2 ^ 16
  let blcB := stat.bStat % 2 ^ 16
  if i % 2 = 1 ∧ j % 2 = 1 then
    match ptn with
    | .gr => blcGb
    | .r => blcB
    | .b => blcR
    | .gb => blcGr
  else if i % 2 = 1 ∧ j % 2 = 0 then
    match ptn with
    | .gr => blcB
    | .r => blcGb
    | .b => blcGr
    | .gb => blcR
  else if i % 2 = 0 ∧ j % 2 = 1 then
    match ptn with
    | .gr => blcR
    | .r => blcGr
    | .b => blcGb
    | .gb => blcB
  else
    match ptn with
    | .gr => blcGr
    | .r => blcR
    | .b => blcB
    | .gb => blcGb

/-- `ISP_Cali_BLCorrecton`: what it writes from `out_data_ptr` on. -/
def blCorrecton (img : Nat → UInt16) (rect : IspRect) (size : IspSize) (ptn : BayerPtn)
    (stat : IspBayerPtnStat) : List Int :=
  let imagewidth := size.width.toNat
  let stX := rect.x.toNat
  let stY := rect.y.toNat
  let edX := (rect.x.toNat + rect.width.toNat + 2 ^ 16 - 1) % 2 ^ 16
  let edY := (rect.y.toNat + rect.height.toNat + 2 ^ 16 - 1) % 2 ^ 16
  (cells (edY + 1 - stY) (edX + 1 - stX)).map fun d =>
    clip ((img ((stY + d.1) * imagewidth + (stX + d.2))).toNat -
      blcOffset ptn stat (stY + d.1) (stX + d.2)) 0 1023

/-! ## What the statistics are to be -/

/-- The place of a sample in an image. -/
def IspSize.address (size : IspSize) (p : Nat × Nat) : Nat := p.1 * size.width.toNat + p.2

/-- The samples of a colour in a rectangle. -/
def IspRect.ofColour (rect : IspRect) (ptn : BayerPtn) (c : Colour) : Finset (Nat × Nat) :=
  rect.pixels.filter fun p => ptn.colourAt p.1 p.2 = c

/-- The mean of the samples of a colour in a rectangle. -/
def mean (img : Nat → UInt16) (size : IspSize) (rect : IspRect) (ptn : BayerPtn) (c : Colour) : Nat :=
  (∑ p ∈ rect.ofColour ptn c, (img (size.address p)).toNat) / (rect.ofColour ptn c).card

/-- All samples of a colour are equal. -/
def ConstantPerColour (img : Nat → UInt16) (size : IspSize) (ptn : BayerPtn) : Prop :=
  ∃ v : Colour → UInt16, ∀ i < size.height.toNat, ∀ j < size.width.toNat,
    img (size.address (i, j)) = v (ptn.colourAt i j)

/-- Statistics, and the samples that were read for them, are those of the rectangle, and the
correction takes them for the same colours. -/
structure Describes (img : Nat → UInt16) (size : IspSize) (rect : IspRect) (ptn : BayerPtn)
    (stat : IspBayerPtnStat) (reads : List Nat) : Prop where
  inside : ∀ a ∈ reads, ∃ p ∈ rect.pixels, a = size.address p
  means : ∀ c, stat.get c = mean img size rect ptn c
  assigned : ∀ i j, blcOffset ptn stat i j = stat.get (ptn.colourAt i j)
  zeros : ConstantPerColour img size ptn →
    blCorrecton img rect size ptn stat =
      List.replicate (rect.height.toNat * rect.width.toNat) 0

/-! ## Colours -/

theorem get_statParam (ptn : BayerPtn) (sum : Fin 4 → Nat) (k : Fin 4) :
    (statParam ptn sum).get (ptn.tile k) = sum k := by
  match k with
  | 0 | 1 | 2 | 3 =>
    cases ptn
    all_goals rfl

/-- **The correction** gives the samples the same colours. -/
theorem blcOffset_eq (ptn : BayerPtn) (stat : IspBayerPtnStat) (i j : Nat) :
    blcOffset ptn stat i j = stat.get (ptn.colourAt i j) % 2 ^ 16 := by
  have hi : i % 2 = 0 ∨ i % 2 = 1 := by omega
  have hj : j % 2 = 0 ∨ j % 2 = 1 := by omega
  rcases hi with hi | hi
  all_goals
    rcases hj with hj | hj
    all_goals
      simp only [blcOffset, BayerPtn.colourAt, inx, hi, hj]
      cases ptn
      all_goals rfl

theorem colourAt_eq_tile_iff {ptn : BayerPtn} {i j : Nat} {k : Fin 4} :
    ptn.colourAt i j = ptn.tile k ↔ inx i j = k :=
  ptn.tile_injective.eq_iff

/-! ## The loops -/

/-- What the loops leave, as folds over the cells. -/
theorem foldl_add (img : Nat → UInt16) (i j src : Nat × Nat → Nat) (l : List (Nat × Nat))
    (s : Sums) :
    l.foldl (fun s d => s.add img (i d) (j d) (src d)) s =
      ⟨l.foldl (tally (fun d => inx (i d) (j d)) fun d => (img (src d)).toNat) s.sum,
        l.foldl (tally (fun d => inx (i d) (j d)) fun _ => 1) s.cnts, s.reads ++ l.map src⟩ := by
  induction l generalizing s with
  | nil => simp
  | cons d l ih =>
    rw [List.foldl_cons, ih]
    simp only [Sums.add, tally, List.foldl_cons, List.map_cons, List.append_assoc,
      List.singleton_append]

/-- A sum over the cells of a class is one over the samples of the rectangle. -/
theorem sum_cells (rect : IspRect) (f : Nat × Nat → Nat) (k : Fin 4) :
    ∑ d ∈ (cells rect.height.toNat rect.width.toNat).toFinset with
        inx (rect.y.toNat + d.1) (rect.x.toNat + d.2) = k,
      f (rect.y.toNat + d.1, rect.x.toNat + d.2) =
    ∑ p ∈ rect.pixels with inx p.1 p.2 = k, f p := by
  refine Finset.sum_nbij' (fun d => (rect.y.toNat + d.1, rect.x.toNat + d.2))
    (fun p => (p.1 - rect.y.toNat, p.2 - rect.x.toNat)) ?_ ?_ ?_ ?_ ?_
  · intro d hd
    rw [Finset.mem_filter, List.mem_toFinset, mem_cells] at hd
    rw [Finset.mem_filter, rect.mem_pixels]
    exact ⟨⟨⟨by omega, by omega⟩, by omega, by omega⟩, hd.2⟩
  · intro p hp
    rw [Finset.mem_filter, rect.mem_pixels] at hp
    obtain ⟨⟨⟨hy, hyh⟩, hx, hxw⟩, hk⟩ := hp
    rw [Finset.mem_filter, List.mem_toFinset, mem_cells]
    refine ⟨⟨by dsimp only; omega, by dsimp only; omega⟩, ?_⟩
    rw [Nat.add_sub_cancel' hy, Nat.add_sub_cancel' hx, hk]
  · intro d _
    simp only [Nat.add_sub_cancel_left]
  · intro p hp
    rw [Finset.mem_filter, rect.mem_pixels] at hp
    obtain ⟨⟨⟨hy, -⟩, hx, -⟩, -⟩ := hp
    simp only [Nat.add_sub_cancel' hy, Nat.add_sub_cancel' hx]
  · intro d _
    rfl

/-- The classes of the loops are the colours. -/
theorem ofColour_tile (rect : IspRect) (ptn : BayerPtn) (k : Fin 4) :
    rect.ofColour ptn (ptn.tile k) = rect.pixels.filter fun p => inx p.1 p.2 = k := by
  simp only [IspRect.ofColour, colourAt_eq_tile_iff]

/-- The place from which a cell of the rectangle is read. -/
def readAt (rect : IspRect) (d : Nat × Nat) : Nat :=
  rect.y.toNat * rect.width.toNat + rect.x.toNat + d.1 * rect.width.toNat + d.2

/-- **The statistics** of a rectangle inside the image: no count is zero. -/
theorem rawRgbStat_eq (img : Nat → UInt16) {rect : IspRect} {size : IspSize} (ptn : BayerPtn)
    (h : rect.Inside size) :
    ∃ sum : Fin 4 → Nat,
      rawRgbStat img rect ptn =
        some (statParam ptn fun k => sum k / (rect.ofColour ptn (ptn.tile k)).card,
          (cells rect.height.toNat rect.width.toNat).map (readAt rect)) ∧
      ∀ k, sum k = ∑ d ∈ (cells rect.height.toNat rect.width.toNat).toFinset with
        inx (rect.y.toNat + d.1) (rect.x.toNat + d.2) = k, (img (readAt rect d)).toNat := by
  have hcols := h.two_cols
  have hrows := h.two_rows
  have hx := rect.x.toNat_lt
  have hy := rect.y.toNat_lt
  have hw := rect.width.toNat_lt
  have hh := rect.height.toNat_lt
  have hlenX : (rect.x.toNat + rect.width.toNat + 2 ^ 32 - 1) % 2 ^ 32 + 1 - rect.x.toNat =
      rect.width.toNat := by omega
  have hlenY : (rect.y.toNat + rect.height.toNat + 2 ^ 32 - 1) % 2 ^ 32 + 1 - rect.y.toNat =
      rect.height.toNat := by omega
  have hcnts (k : Fin 4) : (cells rect.height.toNat rect.width.toNat).foldl
      (tally (fun d => inx (rect.y.toNat + d.1) (rect.x.toNat + d.2)) fun _ => 1) 0 k =
        (rect.ofColour ptn (ptn.tile k)).card := by
    rw [foldl_tally_finset _ _ (nodup_cells _ _), Pi.zero_apply, zero_add, ofColour_tile,
      Finset.card_eq_sum_ones]
    exact sum_cells rect (fun _ => 1) k
  have hne : ¬ ∃ k, (rect.ofColour ptn (ptn.tile k)).card = 0 := by
    rintro ⟨k, hk⟩
    obtain ⟨p, hp, hpk⟩ := h.exists_inx k
    rw [ofColour_tile, Finset.card_eq_zero] at hk
    exact Finset.eq_empty_iff_forall_notMem.mp hk p (Finset.mem_filter.mpr ⟨hp, hpk⟩)
  refine ⟨(cells rect.height.toNat rect.width.toNat).foldl
    (tally (fun d => inx (rect.y.toNat + d.1) (rect.x.toNat + d.2))
      fun d => (img (readAt rect d)).toNat) 0, ?_, fun k => ?_⟩
  · rw [rawRgbStat]
    simp only [hlenX, hlenY, walkRows_eq]
    rw [foldl_add]
    simp only [hcnts, if_neg hne, List.nil_append]
    rfl
  · rw [foldl_tally_finset _ _ (nodup_cells _ _), Pi.zero_apply, zero_add]

/-! ## A rectangle as wide as the image -/

theorem readAt_eq {rect : IspRect} {size : IspSize} (h : rect.width = size.width) (d : Nat × Nat) :
    readAt rect d = size.address (rect.y.toNat + d.1, rect.x.toNat + d.2) := by
  rw [readAt, IspSize.address, h]
  ring

/-- A mean is at most the largest sample. -/
theorem mean_lt (img : Nat → UInt16) (size : IspSize) (rect : IspRect) (ptn : BayerPtn) (c : Colour) :
    mean img size rect ptn c < 2 ^ 16 := by
  have hsum : ∑ p ∈ rect.ofColour ptn c, (img (size.address p)).toNat ≤
      (rect.ofColour ptn c).card * (2 ^ 16 - 1) := by
    refine Finset.sum_le_card_nsmul _ _ _ fun p _ => ?_
    have hlt := (img (size.address p)).toNat_lt
    omega
  have hle : mean img size rect ptn c ≤ 2 ^ 16 - 1 := Nat.div_le_of_le_mul hsum
  omega

/-- The mean of equal samples. -/
theorem mean_constant {img : Nat → UInt16} {size : IspSize} {rect : IspRect} {ptn : BayerPtn}
    {c : Colour} {v : UInt16} (hne : (rect.ofColour ptn c).Nonempty)
    (h : ∀ p ∈ rect.ofColour ptn c, img (size.address p) = v) :
    mean img size rect ptn c = v.toNat := by
  have hsum : ∑ p ∈ rect.ofColour ptn c, (img (size.address p)).toNat =
      (rect.ofColour ptn c).card * v.toNat :=
    Finset.sum_const_nat fun p hp => by rw [h p hp]
  rw [mean, hsum, Nat.mul_div_cancel_left _ hne.card_pos]

/-- **The correction by the means** of an image that is constant for each colour leaves zeros. -/
theorem blCorrecton_zeros {img : Nat → UInt16} {size : IspSize} {rect : IspRect} {ptn : BayerPtn}
    {stat : IspBayerPtnStat} (h : rect.Inside size) (hmeans : ∀ c, stat.get c = mean img size rect ptn c)
    (himg : ConstantPerColour img size ptn) :
    blCorrecton img rect size ptn stat =
      List.replicate (rect.height.toNat * rect.width.toNat) 0 := by
  obtain ⟨v, hv⟩ := himg
  have hcols := h.two_cols
  have hrows := h.two_rows
  have hright := h.right
  have hbottom := h.bottom
  have hw := size.width.toNat_lt
  have hh := size.height.toNat_lt
  have hlenX : (rect.x.toNat + rect.width.toNat + 2 ^ 16 - 1) % 2 ^ 16 + 1 - rect.x.toNat =
      rect.width.toNat := by omega
  have hlenY : (rect.y.toNat + rect.height.toNat + 2 ^ 16 - 1) % 2 ^ 16 + 1 - rect.y.toNat =
      rect.height.toNat := by omega
  rw [blCorrecton]
  simp only [hlenX, hlenY]
  rw [List.eq_replicate_iff]
  constructor
  · rw [List.length_map, cells, List.length_product, List.length_range, List.length_range]
  · intro x hx
    obtain ⟨d, hd, rfl⟩ := List.mem_map.mp hx
    rw [mem_cells] at hd
    have hpixel : (rect.y.toNat + d.1, rect.x.toNat + d.2) ∈ rect.pixels :=
      rect.mem_pixels.mpr ⟨⟨by omega, by omega⟩, by omega, by omega⟩
    have hmean : mean img size rect ptn (ptn.colourAt (rect.y.toNat + d.1) (rect.x.toNat + d.2)) =
        (v (ptn.colourAt (rect.y.toNat + d.1) (rect.x.toNat + d.2))).toNat := by
      refine mean_constant ⟨_, Finset.mem_filter.mpr ⟨hpixel, rfl⟩⟩ fun p hp => ?_
      obtain ⟨hp, hc⟩ := Finset.mem_filter.mp hp
      rw [rect.mem_pixels] at hp
      rw [hv p.1 (by omega) p.2 (by omega), hc]
    have hsample : img ((rect.y.toNat + d.1) * size.width.toNat + (rect.x.toNat + d.2)) =
        v (ptn.colourAt (rect.y.toNat + d.1) (rect.x.toNat + d.2)) :=
      hv _ (by omega) _ (by omega)
    rw [hsample, blcOffset_eq, hmeans, Nat.mod_eq_of_lt (mean_lt _ _ _ _ _), hmean, Int.sub_self]
    rfl

theorem describes_of_width_eq (img : Nat → UInt16) {rect : IspRect} {size : IspSize} (ptn : BayerPtn)
    (h : rect.Inside size) (hwidth : rect.width = size.width) :
    ∃ stat reads, rawRgbStat img rect ptn = some (stat, reads) ∧
      Describes img size rect ptn stat reads := by
  obtain ⟨sum, hrun, hsum⟩ := rawRgbStat_eq img ptn h
  have hmeans (c : Colour) :
      (statParam ptn fun k => sum k / (rect.ofColour ptn (ptn.tile k)).card).get c =
        mean img size rect ptn c := by
    obtain ⟨k, rfl⟩ : ∃ k, ptn.tile k = c := by
      cases ptn
      all_goals
        cases c
        all_goals decide
    rw [get_statParam, mean, hsum]
    simp only [readAt_eq hwidth]
    rw [sum_cells rect (fun p => (img (size.address p)).toNat), ofColour_tile]
  refine ⟨_, _, hrun, ?_, hmeans, fun i j => ?_, blCorrecton_zeros h hmeans⟩
  · intro a ha
    obtain ⟨d, hd, rfl⟩ := List.mem_map.mp ha
    rw [mem_cells] at hd
    exact ⟨(rect.y.toNat + d.1, rect.x.toNat + d.2),
      rect.mem_pixels.mpr ⟨⟨by omega, by omega⟩, by omega, by omega⟩, readAt_eq hwidth d⟩
  · rw [blcOffset_eq, hmeans, Nat.mod_eq_of_lt (mean_lt _ _ _ _ _)]

/-! ## A narrower one -/

/-- A place of the rectangle is one of its rows and columns. -/
theorem address_mem {rect : IspRect} {size : IspSize} {p : Nat × Nat} (hp : p ∈ rect.pixels)
    {i j : Nat} (h : i * size.width.toNat + j = size.address p) (hj : j < size.width.toNat)
    (hinside : rect.Inside size) : i = p.1 ∧ j = p.2 := by
  have hright := hinside.right
  rw [rect.mem_pixels] at hp
  have hp2 : p.2 < size.width.toNat := by omega
  have hpos : 0 < size.width.toNat := by omega
  have hrow := congrArg (· / size.width.toNat) h
  have hcol := congrArg (· % size.width.toNat) h
  simp only [IspSize.address, Nat.mul_comm _ size.width.toNat, Nat.mul_add_div hpos,
    Nat.mul_add_mod, Nat.div_eq_of_lt hj, Nat.div_eq_of_lt hp2, Nat.mod_eq_of_lt hj,
    Nat.mod_eq_of_lt hp2] at hrow hcol
  exact ⟨by omega, hcol⟩

/-- **Statistics of a narrower rectangle** read a sample outside it: the first one of the first
row, or that of the second if the rectangle is at the top. -/
theorem width_eq_of_inside {rect : IspRect} {size : IspSize} (h : rect.Inside size)
    (hreads : ∀ d ∈ cells rect.height.toNat rect.width.toNat,
      ∃ p ∈ rect.pixels, readAt rect d = size.address p) : rect.width = size.width := by
  have hcols := h.two_cols
  have hrows := h.two_rows
  have hright := h.right
  by_contra hne
  have hlt : rect.width.toNat < size.width.toNat := by
    have hneNat : rect.width.toNat ≠ size.width.toNat := fun heq => hne (UInt16.toNat.inj heq)
    omega
  by_cases htop : rect.y.toNat = 0
  · obtain ⟨p, hp, heq⟩ := hreads (1, 0) (mem_cells.mpr ⟨by omega, by omega⟩)
    have hread : 0 * size.width.toNat + (rect.x.toNat + rect.width.toNat) = size.address p := by
      rw [← heq, readAt, htop]
      ring
    by_cases hcol : rect.x.toNat + rect.width.toNat < size.width.toNat
    · have hp2 := (address_mem hp hread hcol h).2
      rw [rect.mem_pixels] at hp
      omega
    · have hread' : 1 * size.width.toNat + 0 = size.address p := by
        rw [← hread]
        omega
      have hp2 := (address_mem hp hread' (by omega) h).2
      rw [rect.mem_pixels] at hp
      omega
  · obtain ⟨p, hp, heq⟩ := hreads (0, 0) (mem_cells.mpr ⟨by omega, by omega⟩)
    rw [readAt, IspSize.address] at heq
    rw [rect.mem_pixels] at hp
    have hbefore : rect.y.toNat * rect.width.toNat < rect.y.toNat * size.width.toNat :=
      Nat.mul_lt_mul_of_pos_left hlt (by omega)
    have hafter : rect.y.toNat * size.width.toNat ≤ p.1 * size.width.toNat :=
      Nat.mul_le_mul_right _ hp.1.1
    omega

/-- **The statistics describe the rectangle** if and only if it is as wide as the image. -/
theorem rawRgbStat_iff (img : Nat → UInt16) (rect : IspRect) (size : IspSize) (ptn : BayerPtn)
    (h : rect.Inside size) :
    (∃ stat reads, rawRgbStat img rect ptn = some (stat, reads) ∧
      Describes img size rect ptn stat reads) ↔ rect.width = size.width := by
  constructor
  · rintro ⟨stat, reads, hrun, hdescribes⟩
    obtain ⟨sum, hrun', -⟩ := rawRgbStat_eq img ptn h
    have hreads : (cells rect.height.toNat rect.width.toNat).map (readAt rect) = reads :=
      congrArg Prod.snd (Option.some.inj (hrun'.symm.trans hrun))
    refine width_eq_of_inside h fun d hd => hdescribes.inside _ ?_
    rw [← hreads]
    exact List.mem_map_of_mem hd
  · exact describes_of_width_eq img ptn h

theorem rawRgbStat_whole :
    (∃ stat reads, rawRgbStat (fun _ => 64) ⟨0, 0, 2, 2⟩ .gr = some (stat, reads) ∧
      Describes (fun _ => 64) ⟨2, 2⟩ ⟨0, 0, 2, 2⟩ .gr stat reads) ↔ (2 : UInt16) = 2 :=
  rawRgbStat_iff (fun _ => 64) ⟨0, 0, 2, 2⟩ ⟨2, 2⟩ .gr
    ⟨by decide, by decide, by decide, by decide⟩

/-- The corner of an image of 4 by 2 is black, but not what is read for it. -/
theorem corner_not_described :
    ¬ ∃ stat reads, rawRgbStat (fun a => if a % 4 < 2 then 0 else 1023) ⟨0, 0, 2, 2⟩ .gr =
        some (stat, reads) ∧
      Describes (fun a => if a % 4 < 2 then 0 else 1023) ⟨4, 2⟩ ⟨0, 0, 2, 2⟩ .gr stat reads := by
  rintro ⟨stat, reads, hrun, hdescribes⟩
  have hrun' : rawRgbStat (fun a => if a % 4 < 2 then 0 else 1023) ⟨0, 0, 2, 2⟩ .gr =
      some (⟨0, 1023, 0, 1023⟩, [0, 1, 2, 3]) := by decide
  cases hrun'.symm.trans hrun
  have hmean := hdescribes.means .b
  revert hmean
  decide

end SprdHal.Calibration

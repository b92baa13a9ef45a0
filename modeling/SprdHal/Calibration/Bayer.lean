import Mathlib.Data.Fin.VecNotation
import Mathlib.Data.Finset.Prod
import Mathlib.Data.Nat.Bitwise
import Mathlib.Order.Interval.Finset.Nat
import Mathlib.Tactic.Common

/-!
# Bayer images (`isp_calibration.h`)

A sample of a raw image has the colour that the pattern of the image gives to the parities of its row
and column.
-/

namespace SprdHal.Calibration

/-- `struct isp_size_t` -/
structure IspSize where
  width : UInt16
  height : UInt16
  deriving DecidableEq

/-- `struct isp_rect_t` -/
structure IspRect where
  x : UInt16
  y : UInt16
  width : UInt16
  height : UInt16
  deriving DecidableEq

/-- `ISP_BAYER_PTN_GR` to `ISP_BAYER_PTN_GB`: the colour of the first sample. -/
inductive BayerPtn where
  | gr
  | r
  | b
  | gb
  deriving DecidableEq

inductive Colour where
  | r
  | b
  | gr
  | gb
  deriving DecidableEq

/-- `struct isp_bayer_ptn_stat_t` -/
structure IspBayerPtnStat where
  rStat : Nat
  bStat : Nat
  grStat : Nat
  gbStat : Nat
  deriving DecidableEq

/-- The number of a colour. -/
def IspBayerPtnStat.get (stat : IspBayerPtnStat) : Colour → Nat
  | .r => stat.rStat
  | .b => stat.bStat
  | .gr => stat.grStat
  | .gb => stat.gbStat

/-- `((i&0x01)<<1)+(j&0x01)` -/
def inx (i j : Nat) : Fin 4 := ⟨i % 2 * 2 + j % 2, by omega⟩

/-- There is a first channel. -/
theorem neZero_channels : NeZero (4 : Nat) := ⟨by decide⟩

/-- The colours of a tile of the pattern, in the order of `inx`. -/
def BayerPtn.tile : BayerPtn → Fin 4 → Colour
  | .gr => ![.gr, .r, .b, .gb]
  | .r => ![.r, .gr, .gb, .b]
  | .b => ![.b, .gb, .gr, .r]
  | .gb => ![.gb, .b, .r, .gr]

/-- The colour of a sample. -/
def BayerPtn.colourAt (ptn : BayerPtn) (i j : Nat) : Colour := ptn.tile (inx i j)

/-- A pattern has each colour once. -/
theorem BayerPtn.tile_injective (ptn : BayerPtn) : Function.Injective ptn.tile := by
  cases ptn
  all_goals decide

/-- `CLIP` -/
def clip (x bottom top : Int) : Int := if x < bottom then bottom else if x > top then top else x

/-! ## Rectangles -/

/-- The samples of a rectangle, by row and column. -/
def IspRect.pixels (rect : IspRect) : Finset (Nat × Nat) :=
  Finset.Ico rect.y.toNat (rect.y.toNat + rect.height.toNat) ×ˢ
    Finset.Ico rect.x.toNat (rect.x.toNat + rect.width.toNat)

theorem IspRect.mem_pixels {rect : IspRect} {p : Nat × Nat} :
    p ∈ rect.pixels ↔
      (rect.y.toNat ≤ p.1 ∧ p.1 < rect.y.toNat + rect.height.toNat) ∧
        rect.x.toNat ≤ p.2 ∧ p.2 < rect.x.toNat + rect.width.toNat := by
  rw [IspRect.pixels, Finset.mem_product, Finset.mem_Ico, Finset.mem_Ico]

/-- A rectangle of at least 2 by 2 samples, inside an image. -/
structure IspRect.Inside (rect : IspRect) (size : IspSize) : Prop where
  two_cols : 2 ≤ rect.width.toNat
  two_rows : 2 ≤ rect.height.toNat
  right : rect.x.toNat + rect.width.toNat ≤ size.width.toNat
  bottom : rect.y.toNat + rect.height.toNat ≤ size.height.toNat

/-- Every colour occurs in such a rectangle. -/
theorem IspRect.Inside.exists_inx {rect : IspRect} {size : IspSize} (h : rect.Inside size)
    (k : Fin 4) : ∃ p ∈ rect.pixels, inx p.1 p.2 = k := by
  have hcols := h.two_cols
  have hrows := h.two_rows
  refine ⟨(rect.y.toNat + (rect.y.toNat + k / 2) % 2, rect.x.toNat + (rect.x.toNat + k % 2) % 2),
    rect.mem_pixels.mpr ⟨⟨by omega, by omega⟩, by omega, by omega⟩, Fin.ext ?_⟩
  have hk := k.isLt
  simp only [inx]
  omega

end SprdHal.Calibration

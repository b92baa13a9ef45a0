import SprdHal.Lib.Words

/-!
# The zoom crop (`camera_get_trim_rect`)

The source rectangle is cut to the aspect of the destination, made smaller by a step for each zoom
level, centred and aligned to four pixels. One side of the rectangle (`trimSide`) goes through all of
this without the other, so what is proved for a side holds for the width and for the height.
-/

namespace SprdHal.Camera

open SprdHal.Lib

/-- `struct img_size` -/
structure ImgSize where
  width : UInt32
  height : UInt32
  deriving DecidableEq, Repr

/-- `struct img_rect` -/
structure ImgRect where
  startX : UInt32
  startY : UInt32
  width : UInt32
  height : UInt32
  deriving DecidableEq, Repr

def cameraSuccess : Int := 0
def cameraInvalidParm : Int := 2

/-- `CMR_ZOOM_FACTOR`, `CAMERA_ZOOM_LEVEL_MAX`, `CAMERA_PIXEL_ALIGNED` -/
def cmrZoomFactor : UInt32 := 2
def cameraZoomLevelMax : UInt32 := 8
def cameraPixelAligned : UInt32 := 4

/-- `ZOOM_STEP` -/
def zoomStep (x : UInt32) : UInt32 := (x - x / cmrZoomFactor) / cameraZoomLevelMax

/-- `CAMERA_WIDTH` and `CAMERA_HEIGHT` -/
def cameraWidth (w : UInt32) : UInt32 := w &&& ~~~(cameraPixelAligned - 1)

/-- `trim_width` and `trim_height` once they have the aspect of the destination. -/
def aspectTrim (src : ImgRect) (dst : ImgSize) : ImgSize :=
  if dst.width * src.height < dst.height * src.width then
    ⟨dst.width * src.height / dst.height, src.height⟩
  else
    ⟨src.width, dst.height * src.width / dst.width⟩

/-- `zoom_step_w` and `zoom_step_h`, of all zoom levels together. -/
def zoomSteps (zoomLevel trim : UInt32) : UInt32 := (zoomStep trim &&& ~~~1) * zoomLevel

/-- `trim_width` and `trim_height` once they are zoomed. -/
def zoomTrim (zoomLevel trim : UInt32) : UInt32 := trim - zoomSteps zoomLevel trim

/-- A side of the crop: the start and the length. -/
def trimSide (start side zoomed : UInt32) : UInt32 × UInt32 :=
  (cameraWidth (start + ((side - zoomed) >>> 1)), cameraWidth zoomed)

/-- `camera_get_trim_rect`: the return value and what is in `src_trim_rect` afterwards. -/
def cameraGetTrimRect (srcTrimRect : Option ImgRect) (zoomLevel : UInt32) (dstSize : Option ImgSize) :
    Int × Option ImgRect :=
  match srcTrimRect, dstSize with
  | some src, some dst =>
    if dst.width = 0 ∨ dst.height = 0 then (-cameraInvalidParm, some src)
    else
      let trim := aspectTrim src dst
      let x := trimSide src.startX src.width (zoomTrim zoomLevel trim.width)
      let y := trimSide src.startY src.height (zoomTrim zoomLevel trim.height)
      (cameraSuccess, some ⟨x.1, y.1, x.2, y.2⟩)
  | src, _ => (-cameraInvalidParm, src)

/-- What is subtracted from what along a side. -/
def sideSubtractions (zoomLevel side trim : UInt32) : List (UInt32 × UInt32) :=
  [(trim, trim / cmrZoomFactor), (trim, zoomSteps zoomLevel trim), (side, zoomTrim zoomLevel trim)]

/-- The subtractions of `camera_get_trim_rect`. -/
def trimSubtractions (src : ImgRect) (zoomLevel : UInt32) (dst : ImgSize) :
    List (UInt32 × UInt32) :=
  sideSubtractions zoomLevel src.width (aspectTrim src dst).width ++
    sideSubtractions zoomLevel src.height (aspectTrim src dst).height

namespace ImgRect

/-- The pixel columns of the rectangle, in 32-bit coordinates. -/
def HasColumn (r : ImgRect) (x : UInt32) : Prop := x - r.startX < r.width

def HasRow (r : ImgRect) (y : UInt32) : Prop := y - r.startY < r.height

/-- `r` lies in `s`. Where `s` ends before the coordinates do, the edges of `r` are between those of
`s`; this says more than the pixels do if `r` has none. -/
structure Inside (r s : ImgRect) : Prop where
  columns : ∀ x, r.HasColumn x → s.HasColumn x
  rows : ∀ y, r.HasRow y → s.HasRow y
  left_right : s.startX.toNat + s.width.toNat ≤ 2 ^ 32 → s.startX ≤ r.startX ∧
    r.startX.toNat + r.width.toNat ≤ s.startX.toNat + s.width.toNat
  top_bottom : s.startY.toNat + s.height.toNat ≤ 2 ^ 32 → s.startY ≤ r.startY ∧
    r.startY.toNat + r.height.toNat ≤ s.startY.toNat + s.height.toNat

/-- All four fields are multiples of four. -/
def Aligned (r : ImgRect) : Prop :=
  r.startX % 4 = 0 ∧ r.startY % 4 = 0 ∧ r.width % 4 = 0 ∧ r.height % 4 = 0

end ImgRect

/-! ## One side -/

theorem toNat_cameraWidth (w : UInt32) : (cameraWidth w).toNat = w.toNat / 4 * 4 :=
  toNat_and_not (k := 2) (by decide) (by decide) w

theorem cameraWidth_mod (w : UInt32) : cameraWidth w % 4 = 0 := by
  apply UInt32.toNat_inj.mp
  have hfour : (4 : UInt32).toNat = 4 := rfl
  rw [UInt32.toNat_mod, toNat_cameraWidth, hfour, Nat.mul_mod_left]
  rfl

theorem toNat_zoomStep (x : UInt32) : (zoomStep x).toNat = (x.toNat - x.toNat / 2) / 8 := by
  have htwo : cmrZoomFactor.toNat = 2 := rfl
  have height : cameraZoomLevelMax.toNat = 8 := rfl
  have hle : x / cmrZoomFactor ≤ x := by
    rw [UInt32.le_iff_toNat_le, UInt32.toNat_div, htwo]
    exact Nat.div_le_self _ _
  rw [zoomStep, UInt32.toNat_div, UInt32.toNat_sub_of_le _ _ hle, UInt32.toNat_div, htwo, height]

/-- All zoom levels together take at most the larger half. -/
theorem zoomSteps_le {zoomLevel : UInt32} (hzoom : zoomLevel ≤ cameraZoomLevelMax) (x : UInt32) :
    (zoomSteps zoomLevel x).toNat ≤ x.toNat - x.toNat / 2 := by
  have hlevel : zoomLevel.toNat ≤ 8 := UInt32.le_iff_toNat_le.mp hzoom
  have heven : (zoomStep x &&& ~~~1).toNat = (zoomStep x).toNat / 2 * 2 :=
    toNat_and_not (k := 1) (by decide) (by decide) _
  have hstep : (zoomStep x &&& ~~~1).toNat * 8 ≤ x.toNat - x.toNat / 2 := by
    rw [heven, toNat_zoomStep]
    omega
  have hall : (zoomStep x &&& ~~~1).toNat * zoomLevel.toNat ≤ x.toNat - x.toNat / 2 :=
    (Nat.mul_le_mul_left _ hlevel).trans hstep
  have hx := x.toNat_lt
  rw [zoomSteps, toNat_mul_of_lt (by omega)]
  exact hall

theorem toNat_zoomTrim {zoomLevel : UInt32} (hzoom : zoomLevel ≤ cameraZoomLevelMax) (x : UInt32) :
    (zoomTrim zoomLevel x).toNat = x.toNat - (zoomSteps zoomLevel x).toNat := by
  have hle := zoomSteps_le hzoom x
  rw [zoomTrim, UInt32.toNat_sub_of_le _ _ (UInt32.le_iff_toNat_le.mpr (by omega))]

theorem zoomTrim_le {zoomLevel : UInt32} (hzoom : zoomLevel ≤ cameraZoomLevelMax) (x : UInt32) :
    zoomTrim zoomLevel x ≤ x := by
  rw [UInt32.le_iff_toNat_le, toNat_zoomTrim hzoom]
  exact Nat.sub_le _ _

/-- At least half of the side is left. -/
theorem half_le_zoomTrim {zoomLevel : UInt32} (hzoom : zoomLevel ≤ cameraZoomLevelMax) (x : UInt32) :
    cameraWidth (x / 2) ≤ cameraWidth (zoomTrim zoomLevel x) := by
  have hle := zoomSteps_le hzoom x
  have htwo : (2 : UInt32).toNat = 2 := rfl
  rw [UInt32.le_iff_toNat_le, toNat_cameraWidth, toNat_cameraWidth, toNat_zoomTrim hzoom,
    UInt32.toNat_div, htwo]
  omega

/-- The crop of a side starts `offset` behind the side, in its first half, and ends before it does. -/
theorem trimSide_offset {start side zoomed : UInt32} (hstart : start % 4 = 0) (hle : zoomed ≤ side) :
    ∃ offset : Nat, (trimSide start side zoomed).1.toNat = (start.toNat + offset) % 2 ^ 32 ∧
      offset + (trimSide start side zoomed).2.toNat ≤ side.toNat ∧ offset ≤ side.toNat / 2 := by
  have hstart' : start.toNat % 4 = 0 := by
    have h := congrArg UInt32.toNat hstart
    rwa [UInt32.toNat_mod] at h
  have hgap : ((side - zoomed) >>> 1).toNat = (side.toNat - zoomed.toNat) / 2 := by
    rw [UInt32.toNat_shiftRight, UInt32.toNat_sub_of_le _ _ hle]
    rfl
  have hside := side.toNat_lt
  have hnat := UInt32.le_iff_toNat_le.mp hle
  refine ⟨(side.toNat - zoomed.toNat) / 2 / 4 * 4, ?_, ?_, ?_⟩
  · rw [trimSide, toNat_cameraWidth, UInt32.toNat_add, hgap]
    omega
  · rw [trimSide, toNat_cameraWidth]
    omega
  · omega

section Side

variable {start side start' side' : UInt32} {offset : Nat}

/-- The pixels of a side that starts `offset` behind another one and ends before it are pixels of
that one. -/
theorem pixel_of_offset (hstart : start'.toNat = (start.toNat + offset) % 2 ^ 32)
    (hend : offset + side'.toNat ≤ side.toNat) {x : UInt32} (hx : x - start' < side') :
    x - start < side := by
  have hside := side.toNat_lt
  rw [UInt32.lt_iff_toNat_lt, UInt32.toNat_sub] at hx ⊢
  have hx' := x.toNat_lt
  have hs := start.toNat_lt
  omega

theorem edges_of_offset (hstart : start'.toNat = (start.toNat + offset) % 2 ^ 32)
    (hend : offset + side'.toNat ≤ side.toNat) (hhalf : offset ≤ side.toNat / 2)
    (hwhole : start.toNat + side.toNat ≤ 2 ^ 32) :
    start ≤ start' ∧ start'.toNat + side'.toNat ≤ start.toNat + side.toNat := by
  have hs := start.toNat_lt
  rw [UInt32.le_iff_toNat_le]
  omega

end Side

/-! ## The rectangle -/

/-- A quotient of products that cuts a side to an aspect is at most the side. -/
theorem cut_le {a b side : UInt32} (hle : a.toNat ≤ b.toNat * side.toNat) : a / b ≤ side := by
  rw [UInt32.le_iff_toNat_le, UInt32.toNat_div]
  exact Nat.div_le_of_le_mul hle

theorem aspectTrim_le {src : ImgRect} {dst : ImgSize}
    (hcross : dst.width.toNat * src.height.toNat < 2 ^ 32)
    (hcross' : dst.height.toNat * src.width.toNat < 2 ^ 32) :
    (aspectTrim src dst).width ≤ src.width ∧ (aspectTrim src dst).height ≤ src.height := by
  have hwide := toNat_mul_of_lt hcross
  have hhigh := toNat_mul_of_lt hcross'
  unfold aspectTrim
  split
  · next hlt =>
    rw [UInt32.lt_iff_toNat_lt, hwide, hhigh] at hlt
    exact ⟨cut_le (hwide.le.trans hlt.le), UInt32.le_refl _⟩
  · next hge =>
    rw [UInt32.lt_iff_toNat_lt, hwide, hhigh, Nat.not_lt] at hge
    exact ⟨UInt32.le_refl _, cut_le (hhigh.le.trans hge)⟩

theorem sideSubtractions_le {zoomLevel : UInt32} (hzoom : zoomLevel ≤ cameraZoomLevelMax)
    {side trim : UInt32} (htrim : trim ≤ side) :
    ∀ p ∈ sideSubtractions zoomLevel side trim, p.2 ≤ p.1 := by
  have hhalf : trim / cmrZoomFactor ≤ trim := by
    rw [UInt32.le_iff_toNat_le, UInt32.toNat_div]
    exact Nat.div_le_self _ _
  have hsteps : zoomSteps zoomLevel trim ≤ trim :=
    UInt32.le_iff_toNat_le.mpr ((zoomSteps_le hzoom trim).trans (Nat.sub_le _ _))
  intro p hp
  simp only [sideSubtractions, List.mem_cons, List.not_mem_nil, or_false] at hp
  rcases hp with rfl | rfl | rfl
  · exact hhalf
  · exact hsteps
  · exact UInt32.le_trans (zoomTrim_le hzoom trim) htrim

/-- **The zoom crop is a part of the source**, aligned, at least half of it and computed without an
underflow. -/
theorem trim_inside (src : ImgRect) (dst : ImgSize) (zoomLevel : UInt32)
    (hx : src.startX % 4 = 0) (hy : src.startY % 4 = 0) (hw : dst.width ≠ 0) (hh : dst.height ≠ 0)
    (hzoom : zoomLevel ≤ cameraZoomLevelMax)
    (hcross : dst.width.toNat * src.height.toNat < 2 ^ 32)
    (hcross' : dst.height.toNat * src.width.toNat < 2 ^ 32) :
    ∃ crop, cameraGetTrimRect (some src) zoomLevel (some dst) = (cameraSuccess, some crop) ∧
      crop.Aligned ∧ crop.Inside src ∧
      cameraWidth ((aspectTrim src dst).width / 2) ≤ crop.width ∧
      cameraWidth ((aspectTrim src dst).height / 2) ≤ crop.height ∧
      ∀ p ∈ trimSubtractions src zoomLevel dst, p.2 ≤ p.1 := by
  obtain ⟨hwidth, hheight⟩ := aspectTrim_le hcross hcross'
  have hx' := UInt32.le_trans (zoomTrim_le hzoom (aspectTrim src dst).width) hwidth
  have hy' := UInt32.le_trans (zoomTrim_le hzoom (aspectTrim src dst).height) hheight
  obtain ⟨dx, hleft, hright, hdx⟩ := trimSide_offset hx hx'
  obtain ⟨dy, htop, hbottom, hdy⟩ := trimSide_offset hy hy'
  refine ⟨_, by rw [cameraGetTrimRect, if_neg (not_or.mpr ⟨hw, hh⟩)], ?_, ?_, ?_, ?_, ?_⟩
  · exact ⟨cameraWidth_mod _, cameraWidth_mod _, cameraWidth_mod _, cameraWidth_mod _⟩
  · exact ⟨fun _ => pixel_of_offset hleft hright, fun _ => pixel_of_offset htop hbottom,
      edges_of_offset hleft hright hdx, edges_of_offset htop hbottom hdy⟩
  · exact half_le_zoomTrim hzoom _
  · exact half_le_zoomTrim hzoom _
  · intro p hp
    rcases List.mem_append.mp hp with hp | hp
    · exact sideSubtractions_le hzoom hwidth p hp
    · exact sideSubtractions_le hzoom hheight p hp

/-- The full frame of a sensor with 4:3 pixels, cropped to 16:9 at the last zoom level. -/
theorem trim_inside_wide :
    ∃ crop, cameraGetTrimRect (some ⟨0, 0, 1600, 1200⟩) 8 (some ⟨1280, 720⟩) =
        (cameraSuccess, some crop) ∧
      crop.Aligned ∧ crop.Inside ⟨0, 0, 1600, 1200⟩ ∧
      cameraWidth ((aspectTrim ⟨0, 0, 1600, 1200⟩ ⟨1280, 720⟩).width / 2) ≤ crop.width ∧
      cameraWidth ((aspectTrim ⟨0, 0, 1600, 1200⟩ ⟨1280, 720⟩).height / 2) ≤ crop.height ∧
      ∀ p ∈ trimSubtractions ⟨0, 0, 1600, 1200⟩ 8 ⟨1280, 720⟩, p.2 ≤ p.1 :=
  trim_inside ⟨0, 0, 1600, 1200⟩ ⟨1280, 720⟩ 8 (by decide) (by decide) (by decide) (by decide)
    (by decide) (by decide) (by decide)

end SprdHal.Camera

import Mathlib.Algebra.Ring.Int.Defs
import Mathlib.Algebra.Ring.Nat
import Mathlib.Data.List.Basic
import Mathlib.Tactic.Common

/-!
# Layers of the hardware composer (`SprdHWLayerList.cpp`)

`prepareOSDLayer` and `prepareVideoLayer` decide whether a layer goes to a display plane, and which
device is to compose it. They look at one layer, at the accelerators of the device and at what the
GSP is capable of. A layer that both of them take is a video layer in the end, but is counted twice.

Both cut the layer's rectangles to the buffer and to the framebuffer, origin and size apart from each
other. This gives the part that is inside when the rectangle lies inside or covers the whole
(`clamped_iff`), and a part that is too large or lies elsewhere when it sticks out at one side.
-/

namespace SprdHal.Hwc

/-! ## Data -/

/-- The formats that are told apart. -/
inductive PixelFormat
  | rgba8888 | rgbx8888 | rgb565 | yCbCr420SP | yCrCb420SP | yv12 | other
  deriving DecidableEq, Repr

def PixelFormat.isRGB : PixelFormat → Bool
  | rgba8888 | rgbx8888 | rgb565 => true
  | _ => false

def PixelFormat.isYUV : PixelFormat → Bool
  | yCbCr420SP | yCrCb420SP | yv12 => true
  | _ => false

/-- `private_handle_t`: `PRIV_FLAGS_USES_PHY` and `PRIV_FLAGS_NOT_OVERLAY` of `flags`,
`GRALLOC_USAGE_PROTECTED` of `usage`, and whether `yuv_info` is `MALI_YUV_BT709_NARROW`. -/
structure PrivateHandle where
  format : PixelFormat
  width : Int32
  height : Int32
  usesPhy : Bool
  notOverlay : Bool
  isProtected : Bool
  bt709Narrow : Bool
  deriving DecidableEq

structure HwcRect where
  left : Int32
  top : Int32
  right : Int32
  bottom : Int32
  deriving DecidableEq

/-- A rectangle that is not empty. -/
def HwcRect.Ordered (r : HwcRect) : Prop :=
  r.left.toInt < r.right.toInt ∧ r.top.toInt < r.bottom.toInt

/-- `hwc_layer_1_t`: `HWC_SKIP_LAYER` of `flags`, and whether `blending` is `HWC_BLENDING_NONE`.
`sourceCropf` is what is left of it after the conversion to `int`. -/
structure HwcLayer where
  skip : Bool
  handle : Option PrivateHandle
  transform : UInt32
  blendingNone : Bool
  sourceCrop : HwcRect
  displayFrame : HwcRect
  deriving DecidableEq

/-- `HAL_TRANSFORM_FLIP_H`, `HAL_TRANSFORM_FLIP_V`, `HAL_TRANSFORM_ROT_90`,
`HAL_TRANSFORM_ROT_270` -/
def transformFlipH : UInt32 := 1
def transformFlipV : UInt32 := 2
def transformRot90 : UInt32 := 4
def transformRot270 : UInt32 := 7

/-- `struct sprdRect` -/
structure SprdRect where
  x : UInt32
  y : UInt32
  w : UInt32
  h : UInt32
  deriving DecidableEq

/-- `mAccelerator`; -1 is `unset`. -/
inductive Accelerator
  | unset | non | gsp | gspIommu | overlayComposer
  deriving DecidableEq, Repr

/-- `ACCELERATOR_GSP` or `ACCELERATOR_GSP_IOMMU` -/
def Accelerator.isGXP : Accelerator → Bool
  | gsp | gspIommu => true
  | _ => false

inductive LayerType
  | osd | overlay | invalide
  deriving DecidableEq, Repr

/-- `SprdHWLayer` without its place in the list. -/
structure SprdHWLayer where
  mAndroidLayer : HwcLayer
  mLayerType : LayerType
  srcRect : SprdRect
  fbRect : SprdRect
  mAccelerator : Accelerator
  mProtectedFlag : Bool
  deriving DecidableEq

/-- The bits of `mAcceleratorMode`. -/
structure AcceleratorMode where
  gsp : Bool
  gspIommu : Bool
  overlayComposer : Bool
  deriving DecidableEq

structure GspSize where
  w : UInt32
  h : UInt32
  deriving DecidableEq

/-- `GSP_CAPABILITY_T` -/
structure GspCapability where
  maxLayerCnt : UInt32
  maxLayerCntWithVideo : UInt32
  maxVideoLayerCnt : UInt32
  blendVideoWithOSD : Bool
  yuvXywhEven : UInt32
  cropMin : GspSize
  cropMax : GspSize
  outMin : GspSize
  outMax : GspSize
  scaleRangeUp : UInt32
  scaleRangeDown : UInt32
  scaleUpdownSametime : UInt32
  osdScaling : UInt32
  maxVideoSize : UInt32
  deriving DecidableEq

/-- What the decisions depend on besides the layers; `mFBInfo` is the size of the screen, and
`mPData` is not set without a GSP. -/
structure HwcEnv where
  mAcceleratorMode : AcceleratorMode
  mPData : Option GspCapability
  fbWidth : Int32
  fbHeight : Int32
  deriving DecidableEq

/-- The layer behind a function that may take it, whether it does, and whether it sets
`mSkipLayerFlag`. -/
structure Prepared where
  layer : SprdHWLayer
  taken : Bool
  skip : Bool
  deriving DecidableEq

namespace SprdHWLayer

/-- `SprdHWLayer()` and `setAndroidLayer`. The rectangles are not initialised. -/
def new (layer : HwcLayer) : SprdHWLayer :=
  ⟨layer, .invalide, ⟨0, 0, 0, 0⟩, ⟨0, 0, 0, 0⟩, .unset, false⟩

def resetAccelerator (l : SprdHWLayer) : SprdHWLayer := { l with mAccelerator := .non }

def setLayerAccelerator (l : SprdHWLayer) (a : Accelerator) : SprdHWLayer :=
  { l with mAccelerator := a }

def setLayerType (l : SprdHWLayer) (t : LayerType) : SprdHWLayer := { l with mLayerType := t }

/-- `checkRGBLayerFormat` -/
def checkRGBLayerFormat (l : SprdHWLayer) : Bool := l.mAndroidLayer.handle.any (·.format.isRGB)

/-- `checkYUVLayerFormat` -/
def checkYUVLayerFormat (l : SprdHWLayer) : Bool := l.mAndroidLayer.handle.any (·.format.isYUV)

end SprdHWLayer

/-! ## One layer -/

namespace HwcEnv

variable (env : HwcEnv)

/-- `SprdHWLayerList::MIN` and `SprdHWLayerList::MAX`, which compare with sign. -/
def minInt (x y : Int32) : Int32 := if x < y then x else y

def maxInt (x y : Int32) : Int32 := if x > y then x else y

/-- The rectangle of a layer inside of something of the given size. -/
def clampRect (r : HwcRect) (width height : Int32) : SprdRect :=
  ⟨(maxInt r.left 0).toUInt32, (maxInt r.top 0).toUInt32,
    (minInt (r.right - r.left) width).toUInt32, (minInt (r.bottom - r.top) height).toUInt32⟩

/-- `srcRect` and `FBRect` of a layer. -/
def setRects (privateH : PrivateHandle) (l : SprdHWLayer) : SprdHWLayer :=
  { l with
    srcRect := clampRect l.mAndroidLayer.sourceCrop privateH.width privateH.height
    fbRect := clampRect l.mAndroidLayer.displayFrame env.fbWidth env.fbHeight }

/-- Scaling down is done in steps of `div` lines. -/
def scalesDown (srcHeight destHeight : UInt32) : Bool :=
  let div : UInt32 :=
    if destHeight * 2 > srcHeight then 32
    else if destHeight * 4 > srcHeight then 64
    else if destHeight * 8 > srcHeight then 128
    else if destHeight * 16 > srcHeight then 256
    else 1
  srcHeight / div * div = srcHeight ∨
    srcHeight / div * div * destHeight ≤ srcHeight * (destHeight - 1) + 1

/-- The tests of `prepareForGXP`. -/
def gxpAccepts (cap : GspCapability) (l : SprdHWLayer) : Bool :=
  let src := l.srcRect
  let fb := l.fbRect
  let transform := l.mAndroidLayer.transform
  let rotated := transform &&& transformRot90 = transformRot90 ∨
    transform &&& transformRot270 = transformRot270
  let srcWidth := if rotated then src.h else src.w
  let srcHeight := if rotated then src.w else src.h
  let up := cap.scaleRangeUp / 16
  let down := 16 * cap.scaleRangeDown
  (cap.yuvXywhEven = 1 → src.x % 2 = 0 ∧ src.y % 2 = 0 ∧ src.w % 2 = 0 ∧ src.h % 2 = 0) ∧
  ¬(srcWidth < cap.cropMin.w ∨ srcHeight < cap.cropMin.h ∨ srcWidth > cap.cropMax.w ∨
    srcHeight > cap.cropMax.h ∨ fb.w < cap.outMin.w ∨ fb.h < cap.outMin.h ∨ fb.w > cap.outMax.w ∨
    fb.h > cap.outMax.h ∨ fb.w > env.fbWidth.toUInt32 ∨ fb.h > env.fbHeight.toUInt32) ∧
  ¬(up * srcWidth < fb.w ∨ srcWidth > down * fb.w ∨ up * srcHeight < fb.h ∨
    srcHeight > down * fb.h) ∧
  (fb.h < srcHeight → scalesDown srcHeight fb.h) ∧
  (cap.scaleUpdownSametime = 0 →
    ¬(srcWidth < fb.w ∧ srcHeight > fb.h ∨ srcWidth > fb.w ∧ srcHeight < fb.h)) ∧
  (cap.osdScaling = 0 ∧ l.checkRGBLayerFormat → srcWidth = fb.w ∧ srcHeight = fb.h) ∧
  (l.checkYUVLayerFormat →
    ¬(cap.maxVideoSize = 0 ∧ srcWidth > 1920 ∧ srcHeight > 1080) ∧
    ¬(cap.maxVideoSize = 1 ∧ srcWidth > 1280 ∧ srcHeight > 720))

/-- `prepareForGXP`: 0 if the GSP takes the layer, and otherwise 1, with the overlay composer for its
accelerator. The layer and its handle are there. -/
def prepareForGXP (l : SprdHWLayer) : SprdHWLayer × Int :=
  match env.mPData with
  | none => (l.setLayerAccelerator .overlayComposer, 1)
  | some cap =>
    if env.gxpAccepts cap l then (l, 0) else (l.setLayerAccelerator .overlayComposer, 1)

/-- `prepareOverlayComposerLayer`. The right side of the crop is compared with the height. -/
def prepareOverlayComposerLayer (l : SprdHWLayer) : Int :=
  let crop := l.mAndroidLayer.sourceCrop
  let frame := l.mAndroidLayer.displayFrame
  if frame.left < 0 ∨ frame.top < 0 ∨ frame.left > env.fbWidth ∨ frame.top > env.fbHeight ∨
      frame.right > env.fbWidth ∨ frame.bottom > env.fbHeight then -1
  else if crop.left < 0 ∨ crop.top < 0 ∨ crop.bottom < 0 ∨ crop.right < 0 ∨
      crop.left > env.fbWidth ∨ crop.top > env.fbHeight ∨ crop.bottom > env.fbHeight ∨
      crop.right > env.fbHeight then -1
  else 0

/-- The end of `prepareOSDLayer`. -/
def takeOSDLayer (l : SprdHWLayer) : Prepared :=
  if l.mAccelerator = .overlayComposer ∧ env.prepareOverlayComposerLayer l ≠ 0 then
    ⟨l.resetAccelerator, false, true⟩
  else ⟨l.setLayerType .osd, true, false⟩

/-- `prepareOSDLayer` once the accelerator is chosen. -/
def prepareAccelerated (privateH : PrivateHandle) (l : SprdHWLayer) : Prepared :=
  let transform := l.mAndroidLayer.transform
  if transform ≠ 0 ∧ transform &&& transformRot90 ≠ transformRot90 then
    ⟨l.resetAccelerator, false, false⟩
  else
    let l := env.setRects privateH l
    if l.mAccelerator.isGXP then
      let (l, retValue) := env.prepareForGXP l
      if ¬(retValue = 1 ∧ env.mAcceleratorMode.overlayComposer) ∧ retValue < 0 then
        ⟨l, false, false⟩
      else env.takeOSDLayer l
    else env.takeOSDLayer l

/-- `prepareOSDLayer` -/
def prepareOSDLayer (l : SprdHWLayer) : Prepared :=
  match l.mAndroidLayer.handle with
  | none => ⟨l, false, false⟩
  | some privateH =>
    if ¬l.checkRGBLayerFormat then ⟨l, false, false⟩
    else
      let mode := env.mAcceleratorMode
      let l := l.resetAccelerator
      let l := if mode.overlayComposer then l.setLayerAccelerator .overlayComposer else l
      if mode.gsp ∧ ¬mode.gspIommu then
        if ¬privateH.usesPhy then
          if l.mAccelerator = .non then ⟨l.resetAccelerator, false, false⟩
          else env.prepareAccelerated privateH l
        else env.prepareAccelerated privateH (l.setLayerAccelerator .gsp)
      else if mode.gspIommu then env.prepareAccelerated privateH (l.setLayerAccelerator .gspIommu)
      else if l.mAccelerator = .non ∧ (l.mAndroidLayer.transform ≠ 0 ∨ ¬privateH.usesPhy) then
        ⟨l, false, false⟩
      else env.prepareAccelerated privateH l

/-- The end of `prepareVideoLayer`. -/
def takeVideoLayer (l : SprdHWLayer) : Prepared :=
  let transform := l.mAndroidLayer.transform
  if l.mAccelerator.isGXP then
    let (l, retValue) := env.prepareForGXP l
    if ¬(retValue = 1 ∧ env.mAcceleratorMode.overlayComposer) ∧ retValue ≠ 0 then
      ⟨l, false, false⟩
    else ⟨l.setLayerType .overlay, true, false⟩
  else if l.mAccelerator ≠ .overlayComposer ∧ (transform = transformFlipV ∨
      transform = transformRot90 ||| transformFlipH ∨
      transform = transformRot90 ||| transformFlipV) then
    ⟨l.resetAccelerator, false, false⟩
  else ⟨l.setLayerType .overlay, true, false⟩

/-- `prepareVideoLayer` once the accelerator is chosen. -/
def prepareAcceleratedVideo (privateH : PrivateHandle) (l : SprdHWLayer) : Prepared :=
  if privateH.notOverlay then ⟨l.resetAccelerator, false, false⟩
  else if ¬l.mAndroidLayer.blendingNone then ⟨l.resetAccelerator, false, false⟩
  else
    let l := env.setRects privateH l
    if privateH.format = .yv12 ∨ privateH.bt709Narrow then
      if env.mAcceleratorMode.overlayComposer then
        env.takeVideoLayer (l.setLayerAccelerator .overlayComposer)
      else ⟨l, false, false⟩
    else env.takeVideoLayer l

/-- `prepareVideoLayer` -/
def prepareVideoLayer (l : SprdHWLayer) : Prepared :=
  match l.mAndroidLayer.handle with
  | none => ⟨l, false, false⟩
  | some privateH =>
    let l := { l with mProtectedFlag := privateH.isProtected }
    if ¬l.checkYUVLayerFormat ∧ ¬privateH.isProtected then ⟨l, false, false⟩
    else
      let mode := env.mAcceleratorMode
      let l := l.resetAccelerator
      if mode.gspIommu then env.prepareAcceleratedVideo privateH (l.setLayerAccelerator .gspIommu)
      else if mode.gsp then
        if ¬privateH.usesPhy then
          if mode.overlayComposer then
            env.prepareAcceleratedVideo privateH (l.setLayerAccelerator .overlayComposer)
          else ⟨l, false, false⟩
        else env.prepareAcceleratedVideo privateH (l.setLayerAccelerator .gsp)
      else if mode.overlayComposer then
        env.prepareAcceleratedVideo privateH (l.setLayerAccelerator .overlayComposer)
      else env.prepareAcceleratedVideo privateH l

/-! ### What the functions do to a layer -/

/-- The layer stays the same one. Taken, it has the type `t` and the rectangles of `setRects`;
otherwise it keeps its type. -/
structure Takes (t : LayerType) (l : SprdHWLayer) (r : Prepared) : Prop where
  android : r.layer.mAndroidLayer = l.mAndroidLayer
  type_eq : r.layer.mLayerType = if r.taken then t else l.mLayerType
  rects : r.taken = true → ∃ privateH, l.mAndroidLayer.handle = some privateH ∧
    r.layer.srcRect = clampRect l.mAndroidLayer.sourceCrop privateH.width privateH.height ∧
    r.layer.fbRect = clampRect l.mAndroidLayer.displayFrame env.fbWidth env.fbHeight

variable {env} {t : LayerType} {l : SprdHWLayer} {privateH : PrivateHandle}

namespace Takes

theorem congr {l' : SprdHWLayer} {r : Prepared} (h : env.Takes t l' r)
    (ha : l'.mAndroidLayer = l.mAndroidLayer) (ht : l'.mLayerType = l.mLayerType) :
    env.Takes t l r := by
  refine ⟨h.android.trans ha, ?_, fun htaken => ?_⟩
  · rw [h.type_eq, ht]
  · rw [← ha]
    exact h.rects htaken

/-- A layer that is not taken. -/
theorem refused {r : Prepared} (htaken : r.taken = false)
    (ha : r.layer.mAndroidLayer = l.mAndroidLayer) (ht : r.layer.mLayerType = l.mLayerType) :
    env.Takes t l r :=
  ⟨ha, by simp [htaken, ht], by simp [htaken]⟩

/-- A layer with its rectangles that is taken as it is. -/
theorem accepted {l' : SprdHWLayer} (hh : l.mAndroidLayer.handle = some privateH)
    (ha : l'.mAndroidLayer = l.mAndroidLayer) (hs : l'.srcRect = (env.setRects privateH l).srcRect)
    (hf : l'.fbRect = (env.setRects privateH l).fbRect) :
    env.Takes t l ⟨l'.setLayerType t, true, false⟩ :=
  ⟨ha, rfl, fun _ => ⟨privateH, hh, hs, hf⟩⟩

end Takes

/-- `prepareForGXP` changes the accelerator only. -/
theorem prepareForGXP_frame (env : HwcEnv) (l : SprdHWLayer) : (env.prepareForGXP l).1.mAndroidLayer =
      l.mAndroidLayer ∧ (env.prepareForGXP l).1.mLayerType = l.mLayerType ∧
    (env.prepareForGXP l).1.srcRect = l.srcRect ∧ (env.prepareForGXP l).1.fbRect = l.fbRect := by
  unfold prepareForGXP
  split
  · exact ⟨rfl, rfl, rfl, rfl⟩
  · split
    · exact ⟨rfl, rfl, rfl, rfl⟩
    · exact ⟨rfl, rfl, rfl, rfl⟩

theorem takeOSDLayer_takes {l' : SprdHWLayer} (hh : l.mAndroidLayer.handle = some privateH)
    (ha : l'.mAndroidLayer = l.mAndroidLayer) (ht : l'.mLayerType = l.mLayerType)
    (hs : l'.srcRect = (env.setRects privateH l).srcRect)
    (hf : l'.fbRect = (env.setRects privateH l).fbRect) :
    env.Takes .osd l (env.takeOSDLayer l') := by
  unfold takeOSDLayer
  split
  · exact .refused rfl ha ht
  · exact .accepted hh ha hs hf

theorem prepareAccelerated_takes (hh : l.mAndroidLayer.handle = some privateH) :
    env.Takes .osd l (env.prepareAccelerated privateH l) := by
  obtain ⟨ha, ht, hs, hf⟩ := prepareForGXP_frame env (env.setRects privateH l)
  unfold prepareAccelerated
  simp only
  split
  · exact .refused rfl rfl rfl
  · split
    · split
      · exact .refused rfl ha ht
      · exact takeOSDLayer_takes hh ha ht hs hf
    · exact takeOSDLayer_takes hh rfl rfl rfl rfl

theorem prepareOSDLayer_takes (l : SprdHWLayer) : env.Takes .osd l (env.prepareOSDLayer l) := by
  unfold prepareOSDLayer
  rcases hh : l.mAndroidLayer.handle with _ | privateH
  · exact .refused rfl rfl rfl
  · have hdone : ∀ {l' : SprdHWLayer}, l'.mAndroidLayer = l.mAndroidLayer →
        l'.mLayerType = l.mLayerType → env.Takes .osd l (env.prepareAccelerated privateH l') :=
      fun ha ht => (prepareAccelerated_takes (ha ▸ hh)).congr ha ht
    -- the layer with the overlay composer for its accelerator, if there is one
    have hframe : (if env.mAcceleratorMode.overlayComposer then
          l.resetAccelerator.setLayerAccelerator .overlayComposer
          else l.resetAccelerator).mAndroidLayer = l.mAndroidLayer ∧
        (if env.mAcceleratorMode.overlayComposer then
          l.resetAccelerator.setLayerAccelerator .overlayComposer
          else l.resetAccelerator).mLayerType = l.mLayerType := by
      split
      · exact ⟨rfl, rfl⟩
      · exact ⟨rfl, rfl⟩
    simp only
    generalize (if env.mAcceleratorMode.overlayComposer then
        l.resetAccelerator.setLayerAccelerator .overlayComposer else l.resetAccelerator) = l'
      at hframe ⊢
    obtain ⟨ha, ht⟩ := hframe
    split
    · exact .refused rfl rfl rfl
    · split
      · split
        · split
          · exact .refused rfl ha ht
          · exact hdone ha ht
        · exact hdone ha ht
      · split
        · exact hdone ha ht
        · split
          · exact .refused rfl ha ht
          · exact hdone ha ht

theorem takeVideoLayer_takes {l' : SprdHWLayer} (hh : l.mAndroidLayer.handle = some privateH)
    (ha : l'.mAndroidLayer = l.mAndroidLayer) (ht : l'.mLayerType = l.mLayerType)
    (hs : l'.srcRect = (env.setRects privateH l).srcRect)
    (hf : l'.fbRect = (env.setRects privateH l).fbRect) :
    env.Takes .overlay l (env.takeVideoLayer l') := by
  obtain ⟨ga, gt, gs, gf⟩ := prepareForGXP_frame env l'
  unfold takeVideoLayer
  simp only
  split
  · split
    · exact .refused rfl (ga.trans ha) (gt.trans ht)
    · exact .accepted hh (ga.trans ha) (gs.trans hs) (gf.trans hf)
  · split
    · exact .refused rfl ha ht
    · exact .accepted hh ha hs hf

theorem prepareAcceleratedVideo_takes (hh : l.mAndroidLayer.handle = some privateH) :
    env.Takes .overlay l (env.prepareAcceleratedVideo privateH l) := by
  unfold prepareAcceleratedVideo
  simp only
  split
  · exact .refused rfl rfl rfl
  · split
    · exact .refused rfl rfl rfl
    · split
      · split
        · exact takeVideoLayer_takes hh rfl rfl rfl rfl
        · exact .refused rfl rfl rfl
      · exact takeVideoLayer_takes hh rfl rfl rfl rfl

theorem prepareVideoLayer_takes (l : SprdHWLayer) :
    env.Takes .overlay l (env.prepareVideoLayer l) := by
  unfold prepareVideoLayer
  rcases hh : l.mAndroidLayer.handle with _ | privateH
  · exact .refused rfl rfl rfl
  · have hdone : ∀ {l' : SprdHWLayer}, l'.mAndroidLayer = l.mAndroidLayer →
        l'.mLayerType = l.mLayerType →
          env.Takes .overlay l (env.prepareAcceleratedVideo privateH l') :=
      fun ha ht => (prepareAcceleratedVideo_takes (ha ▸ hh)).congr ha ht
    simp only
    split
    · exact .refused rfl rfl rfl
    · split
      · exact hdone rfl rfl
      · split
        · split
          · split
            · exact hdone rfl rfl
            · exact .refused rfl rfl rfl
          · exact hdone rfl rfl
        · split
          · exact hdone rfl rfl
          · exact hdone rfl rfl

/-! ### The rectangles -/

/-- The interval of length `w` from `x` on lies in `[0, size)` and is the part of `[left, right)`
there. -/
structure Clamped (left right size : Int32) (x w : UInt32) : Prop where
  le : (x.toNat + w.toNat : Int) ≤ size.toInt
  mem_iff : ∀ p : Int, (x.toNat ≤ p ∧ p < x.toNat + w.toNat) ↔
    (left.toInt ≤ p ∧ p < right.toInt) ∧ 0 ≤ p ∧ p < size.toInt

/-- The interval lies inside, or covers the whole, if there is anything to cover, and is shorter than
2^31. -/
def InsideOrCovers (left right size : Int32) : Prop :=
  0 ≤ left.toInt ∧ right.toInt ≤ size.toInt ∨
    left.toInt ≤ 0 ∧ (size.toInt ≤ right.toInt ∨ size.toInt = 0) ∧
      right.toInt - left.toInt < 2 ^ 31

theorem toInt_eq_bmod (a : Int32) : a.toInt = Int.bmod a.toUInt32.toNat (2 ^ 32) :=
  BitVec.toInt_eq_toNat_bmod a.toBitVec

theorem toInt_minInt (a b : Int32) : (minInt a b).toInt = min a.toInt b.toInt := by
  unfold minInt
  by_cases h : a < b
  · rw [if_pos h]
    have := Int32.lt_iff_toInt_lt.mp h
    omega
  · rw [if_neg h]
    have := mt Int32.lt_iff_toInt_lt.mpr h
    omega

theorem toInt_maxInt (a b : Int32) : (maxInt a b).toInt = max a.toInt b.toInt := by
  unfold maxInt
  by_cases h : a > b
  · rw [if_pos h]
    have := Int32.lt_iff_toInt_lt.mp h
    omega
  · rw [if_neg h]
    have := mt Int32.lt_iff_toInt_lt.mpr h
    omega

/-- The two clamps as numbers, and when the length is not negative. -/
theorem clamp_toNat (left right size : Int32) (hsize : 0 ≤ size.toInt) :
    ((maxInt left 0).toUInt32.toNat : Int) = max left.toInt 0 ∧
      (left.toInt < right.toInt → right.toInt - left.toInt < 2 ^ 31 →
        ((minInt (right - left) size).toUInt32.toNat : Int) =
          min (right.toInt - left.toInt) size.toInt) ∧
      (2 ^ 31 ≤ right.toInt - left.toInt →
        2 ^ 31 ≤ ((minInt (right - left) size).toUInt32.toNat : Int)) := by
  have hx := toInt_eq_bmod (maxInt left 0)
  have hw := toInt_eq_bmod (minInt (right - left) size)
  have hxlt := (maxInt left 0).toUInt32.toNat_lt
  have hwlt := (minInt (right - left) size).toUInt32.toNat_lt
  have hl := left.toInt_lt
  have hl' := left.le_toInt
  have hr := right.toInt_lt
  have hr' := right.le_toInt
  have hs := size.toInt_lt
  rw [toInt_maxInt, Int32.toInt_zero, Int.bmod_def] at hx
  rw [toInt_minInt, Int32.toInt_sub, Int.bmod_def, Int.bmod_def] at hw
  refine ⟨?_, fun hlr hd => ?_, fun hd => ?_⟩
  · omega
  · omega
  · omega

/-- When the two clamps give the intersection. -/
theorem clamped_iff {left right size : Int32} (hlr : left.toInt < right.toInt)
    (hsize : 0 ≤ size.toInt) :
    Clamped left right size (maxInt left 0).toUInt32 (minInt (right - left) size).toUInt32 ↔
      InsideOrCovers left right size := by
  obtain ⟨hx, hw, hbig⟩ := clamp_toNat left right size hsize
  have hs := size.toInt_lt
  constructor
  · rintro ⟨hle, hmem⟩
    have hd : right.toInt - left.toInt < 2 ^ 31 := by
      by_contra hge
      have h := hbig (Int.not_lt.mp hge)
      omega
    rw [hx, hw hlr hd] at hle hmem
    by_cases hleft : left.toInt ≤ 0
    · by_cases hcover : size.toInt ≤ right.toInt ∨ size.toInt = 0
      · exact .inr ⟨hleft, hcover, hd⟩
      · by_cases hzero : left.toInt = 0
        · exact .inl ⟨by omega, by omega⟩
        · -- the first place behind the rectangle is in the result
          have hpoint := hmem (max right.toInt 0)
          omega
    · exact .inl ⟨by omega, by omega⟩
  · rintro (⟨hl, hr⟩ | ⟨hl, hcover, hd⟩)
    · have hwidth := hw hlr (by omega)
      refine ⟨by omega, fun p => ?_⟩
      rw [hx, hwidth]
      omega
    · have hwidth := hw hlr hd
      refine ⟨by omega, fun p => ?_⟩
      rw [hx, hwidth]
      omega

/-- The rectangles of a layer are the parts of the requested ones inside the buffer and the
framebuffer. -/
structure InBuffers (env : HwcEnv) (privateH : PrivateHandle) (l : SprdHWLayer) : Prop where
  srcX : Clamped l.mAndroidLayer.sourceCrop.left l.mAndroidLayer.sourceCrop.right privateH.width
    l.srcRect.x l.srcRect.w
  srcY : Clamped l.mAndroidLayer.sourceCrop.top l.mAndroidLayer.sourceCrop.bottom privateH.height
    l.srcRect.y l.srcRect.h
  fbX : Clamped l.mAndroidLayer.displayFrame.left l.mAndroidLayer.displayFrame.right env.fbWidth
    l.fbRect.x l.fbRect.w
  fbY : Clamped l.mAndroidLayer.displayFrame.top l.mAndroidLayer.displayFrame.bottom env.fbHeight
    l.fbRect.y l.fbRect.h

/-- Each side of the two requested rectangles lies inside or covers the whole. -/
structure RequestFits (env : HwcEnv) (privateH : PrivateHandle) (layer : HwcLayer) : Prop where
  srcX : InsideOrCovers layer.sourceCrop.left layer.sourceCrop.right privateH.width
  srcY : InsideOrCovers layer.sourceCrop.top layer.sourceCrop.bottom privateH.height
  fbX : InsideOrCovers layer.displayFrame.left layer.displayFrame.right env.fbWidth
  fbY : InsideOrCovers layer.displayFrame.top layer.displayFrame.bottom env.fbHeight

/-- What is asked for is not empty, and the sizes are not negative. -/
structure Sized (env : HwcEnv) (privateH : PrivateHandle) (layer : HwcLayer) : Prop where
  crop : layer.sourceCrop.Ordered
  frame : layer.displayFrame.Ordered
  width : 0 ≤ privateH.width.toInt
  height : 0 ≤ privateH.height.toInt
  fbWidth : 0 ≤ env.fbWidth.toInt
  fbHeight : 0 ≤ env.fbHeight.toInt

theorem Takes.inBuffers_iff {r : Prepared} (h : env.Takes t l r) (htaken : r.taken = true)
    (hh : l.mAndroidLayer.handle = some privateH) (hs : Sized env privateH l.mAndroidLayer) :
    InBuffers env privateH r.layer ↔ RequestFits env privateH l.mAndroidLayer := by
  obtain ⟨privateH', hh', hsrc, hfb⟩ := h.rects htaken
  obtain rfl : privateH = privateH' := Option.some.inj (hh.symm.trans hh')
  constructor
  · rintro ⟨h₁, h₂, h₃, h₄⟩
    rw [h.android, hsrc] at h₁ h₂
    rw [h.android, hfb] at h₃ h₄
    exact ⟨(clamped_iff hs.crop.1 hs.width).mp h₁, (clamped_iff hs.crop.2 hs.height).mp h₂,
      (clamped_iff hs.frame.1 hs.fbWidth).mp h₃, (clamped_iff hs.frame.2 hs.fbHeight).mp h₄⟩
  · rintro ⟨h₁, h₂, h₃, h₄⟩
    constructor
    · rw [h.android, hsrc]
      exact (clamped_iff hs.crop.1 hs.width).mpr h₁
    · rw [h.android, hsrc]
      exact (clamped_iff hs.crop.2 hs.height).mpr h₂
    · rw [h.android, hfb]
      exact (clamped_iff hs.frame.1 hs.fbWidth).mpr h₃
    · rw [h.android, hfb]
      exact (clamped_iff hs.frame.2 hs.fbHeight).mpr h₄

/-- The rectangles of the layers that go to the planes are right exactly where what is asked for lies
inside the buffers or covers them. -/
theorem rects_inBuffers_iff (env : HwcEnv) (l : SprdHWLayer) (privateH : PrivateHandle)
    (hh : l.mAndroidLayer.handle = some privateH) (hs : Sized env privateH l.mAndroidLayer) :
    (((env.prepareOSDLayer l).taken = true → InBuffers env privateH (env.prepareOSDLayer l).layer) ↔
        ((env.prepareOSDLayer l).taken = true → RequestFits env privateH l.mAndroidLayer)) ∧
      (((env.prepareVideoLayer l).taken = true →
          InBuffers env privateH (env.prepareVideoLayer l).layer) ↔
        ((env.prepareVideoLayer l).taken = true → RequestFits env privateH l.mAndroidLayer)) := by
  have hosd := fun h => (prepareOSDLayer_takes l).inBuffers_iff h hh hs
  have hvideo := fun h => (prepareVideoLayer_takes l).inBuffers_iff h hh hs
  exact ⟨forall_congr' hosd, forall_congr' hvideo⟩

/-- A layer of 100 by 100 at the given place. -/
def layerAt (left : Int32) : HwcLayer :=
  ⟨false, some ⟨.rgba8888, 100, 100, true, false, false, false⟩, 0, true, ⟨0, 0, 100, 100⟩,
    ⟨left, 0, left + 100, 100⟩⟩

/-- A device without accelerators, with a framebuffer of 100 by 100. -/
def plainEnv : HwcEnv := ⟨⟨false, false, false⟩, none, 100, 100⟩

theorem sized_layerAt {left : Int32} (h : left.toInt < (left + 100).toInt) :
    Sized plainEnv ⟨.rgba8888, 100, 100, true, false, false, false⟩ (layerAt left) :=
  have hside : (0 : Int32).toInt < (100 : Int32).toInt := by decide
  ⟨⟨hside, hside⟩, ⟨h, hside⟩, by decide, by decide, by decide, by decide⟩

theorem rects_inBuffers_whole :
    (plainEnv.prepareOSDLayer (.new (layerAt 0))).taken = true ∧
      InBuffers plainEnv ⟨.rgba8888, 100, 100, true, false, false, false⟩
        (plainEnv.prepareOSDLayer (.new (layerAt 0))).layer := by
  have htaken : (plainEnv.prepareOSDLayer (.new (layerAt 0))).taken = true := by decide
  refine ⟨htaken, ?_⟩
  exact (rects_inBuffers_iff plainEnv (.new (layerAt 0)) _ rfl (sized_layerAt (by decide))).1.mpr
    (fun _ => ⟨.inl (by decide), .inl (by decide), .inl (by decide), .inl (by decide)⟩) htaken

/-- A frame that sticks out to the right keeps its width. -/
theorem not_inBuffers_right :
    Sized plainEnv ⟨.rgba8888, 100, 100, true, false, false, false⟩ (layerAt 50) ∧
      (plainEnv.prepareOSDLayer (.new (layerAt 50))).taken = true ∧
      ¬ InBuffers plainEnv ⟨.rgba8888, 100, 100, true, false, false, false⟩
        (plainEnv.prepareOSDLayer (.new (layerAt 50))).layer := by
  refine ⟨sized_layerAt (by decide), by decide, fun h => ?_⟩
  have hle := h.fbX.le
  revert hle
  decide

end HwcEnv

end SprdHal.Hwc

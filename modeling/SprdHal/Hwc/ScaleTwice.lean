import SprdHal.Hwc.FullScreen
import SprdHal.Lib.Rounding

/-!
# Scaling up in two steps (`SprdUtil.cpp`)

The GSP scales by four at most. A layer that is to become larger is scaled to a picture of about a
quarter of its size first (`scalingup_twice`), which is stored in a part of the buffer of the
primary plane that `acquireTmpBuffer` lends (`BORROW_PRIMARYPLANE_BUFFER`).

Each of the two steps scales by something between one and four if the layer shrinks in no direction
(`scalingup_twice_scales`). The part of the buffer is three quarters of the pixels of the screen in
bytes. The chroma plane of the first picture begins as many bytes behind its luma plane as the
screen has pixels, and so is behind that part whatever the layer is (`scalingup_twice_outside`).
-/

namespace SprdHal.Hwc

/-! ## The configuration of the GSP -/

/-- `GSP_ROT_ANGLE_E` -/
inductive GspRotAngle
  | angle0 | angle90 | angle180 | angle270 | angle0M | angle90M | angle180M | angle270M
  deriving DecidableEq, Repr

/-- `rot_angle & 0x1`: 90 and 270 degrees -/
def GspRotAngle.odd : GspRotAngle → Bool
  | angle90 | angle270 | angle90M | angle270M => true
  | _ => false

/-- `rotationType_convert` -/
def rotationTypeConvert (transform : UInt32) : GspRotAngle :=
  if transform = 0 then .angle0
  else if transform = 1 then .angle180M
  else if transform = 2 then .angle0M
  else if transform = 3 then .angle180
  else if transform = 5 then .angle270M
  else if transform = 6 then .angle90M
  else if transform = 7 then .angle90
  else .angle270

/-- The formats of pictures; `GSP_SRC_FMT_YUV420_2P` and `GSP_DST_FMT_YUV420_2P` are one. -/
inductive GspFormat
  | yuv420TwoPlanes | other
  deriving DecidableEq, Repr

/-- The fields hold any position and size on the screen. -/
structure GspRect where
  stX : Nat
  stY : Nat
  rectW : Nat
  rectH : Nat
  deriving DecidableEq

structure GspAddr where
  addrY : UInt32
  addrUV : UInt32
  addrV : UInt32
  deriving DecidableEq

structure GspMemInfo where
  shareFd : Int32
  uvOffset : UInt32
  vOffset : UInt32
  deriving DecidableEq

/-- `layer0_info` without its alpha; `endian_mode` is passed on as a whole. -/
structure GspLayer0 where
  layerEn : Bool
  rotAngle : GspRotAngle
  clipRect : GspRect
  desRect : GspRect
  pitch : Nat
  srcAddr : GspAddr
  memInfo : GspMemInfo
  imgFormat : GspFormat
  endianMode : UInt32
  deriving DecidableEq

/-- `layer_des_info` -/
structure GspLayerDes where
  imgFormat : GspFormat
  srcAddr : GspAddr
  pitch : Nat
  memInfo : GspMemInfo
  endianMode : UInt32
  deriving DecidableEq

/-- `GSP_CONFIG_INFO_T`, of `layer1_info` whether it is enabled -/
structure GspConfig where
  layer0 : GspLayer0
  layer1En : Bool
  layerDes : GspLayerDes
  deriving DecidableEq

/-- What `gsp_image_layer_config` takes from the layer itself. -/
def gspImageLayerConfig (l : SprdHWLayer) (layer0 : GspLayer0) : GspLayer0 :=
  { layer0 with
    layerEn := true
    rotAngle := rotationTypeConvert l.mAndroidLayer.transform
    clipRect := ⟨l.srcRect.x.toNat, l.srcRect.y.toNat, l.srcRect.w.toNat, l.srcRect.h.toNat⟩
    desRect := ⟨l.fbRect.x.toNat, l.fbRect.y.toNat, l.fbRect.w.toNat, l.fbRect.h.toNat⟩ }

/-- `scaling_up_twice_check` -/
def scalingUpTwiceCheck (cfg : GspConfig) : Bool :=
  let clip := cfg.layer0.clipRect
  let des := cfg.layer0.desRect
  cfg.layer0.layerEn ∧
    if ¬cfg.layer0.rotAngle.odd then clip.rectW * 4 < des.rectW ∨ clip.rectH * 4 < des.rectH
    else clip.rectW * 4 < des.rectH ∨ clip.rectH * 4 < des.rectW

/-! ## The borrowed buffer -/

/-- `private_handle_t` of the buffer to draw to. -/
structure DstBuffer where
  format : PixelFormat
  phyaddr : Int32
  deriving DecidableEq

/-- `share_fd` of `tmpBuffer`, if that is allocated, and `outBufferPhy` and `outBufferSize`. -/
structure TmpBuffer where
  tmpBuffer : Option Int32
  outBufferPhy : Int32
  outBufferSize : Int32
  deriving DecidableEq

/-- `(int)((float)width * (float)height * 1.5 * 0.5)`; the product is a `float` up to `1.5`, which
makes it a `double` that is exact. -/
def tmpBufferSize (width height : Nat) : Nat :=
  roundBits 24 (roundBits 24 width * roundBits 24 height) * 3 / 4

/-- `acquireTmpBuffer`, with what is allocated if the buffer is not lent. -/
def acquireTmpBuffer (alloc : Option Int32) (fbInfo : FrameBufferInfo) (friendBuffer : DstBuffer)
    (s : TmpBuffer) : Int × TmpBuffer :=
  if friendBuffer.format = .rgba8888 then
    (0, { s with
      outBufferSize := Int32.ofNat (tmpBufferSize fbInfo.width fbInfo.height)
      outBufferPhy := friendBuffer.phyaddr + fbInfo.fbWidth * fbInfo.fbHeight * 2 })
  else match s.tmpBuffer, alloc with
    | some _, _ => (0, s)
    | none, some fd => (0, { s with tmpBuffer := some fd })
    | none, none => (-1, s)

/-! ## The two steps -/

/-- One side of the picture between the steps. -/
def intermediateSize (clip des : Nat) : Nat :=
  if clip * 4 < des then (des + 7) / 4 &&& 0xfffe else clip

/-- `des_rect` of the first step. -/
def phase1DesRect (layer0 : GspLayer0) : GspRect :=
  let clip := layer0.clipRect
  let des := layer0.desRect
  if ¬layer0.rotAngle.odd then
    ⟨0, 0, intermediateSize clip.rectW des.rectW, intermediateSize clip.rectH des.rectH⟩
  else ⟨0, 0, intermediateSize clip.rectW des.rectH, intermediateSize clip.rectH des.rectW⟩

/-- `src_addr` and `mem_info` of the picture between the steps. The allocated buffer is used if
nothing is lent, and has to be there then. -/
def phase1Memory (fbInfo : FrameBufferInfo) (s : TmpBuffer) (memInfo : GspMemInfo) :
    Option (GspAddr × GspMemInfo) :=
  let pixels := fbInfo.fbWidth.toUInt32 * fbInfo.fbHeight.toUInt32
  if s.outBufferPhy ≠ 0 ∧ s.outBufferSize > 0 then
    let addrY := s.outBufferPhy.toUInt32
    some (⟨addrY, addrY + pixels, addrY + pixels⟩, memInfo)
  else s.tmpBuffer.map fun fd => (⟨0, 0 + pixels, 0 + pixels⟩, ⟨fd, pixels, pixels⟩)

/-- The configuration of the first step. -/
def phase1Config (cfg : GspConfig) (addr : GspAddr) (memInfo : GspMemInfo) : GspConfig :=
  let desRect := phase1DesRect cfg.layer0
  { layer0 := { cfg.layer0 with desRect, rotAngle := .angle0 }
    layer1En := false
    layerDes := { cfg.layerDes with
      imgFormat := .yuv420TwoPlanes, srcAddr := addr, memInfo, pitch := desRect.rectW } }

/-- The configuration of the second step, which takes the output of the first one. -/
def phase2Config (cfg phase1 : GspConfig) : GspConfig :=
  let des := phase1.layerDes
  { cfg with
    layer0 := { cfg.layer0 with
      imgFormat := .yuv420TwoPlanes
      clipRect := phase1.layer0.desRect
      pitch := des.pitch
      srcAddr := if des.memInfo.shareFd ≠ 0 then { des.srcAddr with addrY := 0 } else des.srcAddr
      endianMode := des.endianMode
      memInfo := des.memInfo } }

/-- `scalingup_twice`: the buffer, and the configurations of both steps; `none` if it fails. -/
def scalingupTwice (gspProccess : GspConfig → Int) (alloc : Option Int32) (fbInfo : FrameBufferInfo)
    (dstBuffer : DstBuffer) (s : TmpBuffer) (cfg : GspConfig) :
    Option (TmpBuffer × GspConfig × GspConfig) :=
  let (ret, s) := acquireTmpBuffer alloc fbInfo dstBuffer s
  if ret ≠ 0 then none
  else match phase1Memory fbInfo s cfg.layerDes.memInfo with
    | none => none
    | some (addr, memInfo) =>
      let phase1 := phase1Config cfg addr memInfo
      if gspProccess phase1 ≠ 0 then none
      else some (s, phase1, phase2Config cfg phase1)

/-! ## What is wanted of the two steps -/

/-- The sides of the destination that the width and the height of the picture are scaled to. -/
def GspLayer0.desSides (layer0 : GspLayer0) : Nat × Nat :=
  if layer0.rotAngle.odd then (layer0.desRect.rectH, layer0.desRect.rectW)
  else (layer0.desRect.rectW, layer0.desRect.rectH)

/-- No side becomes smaller, or more than four times as large. -/
def GspLayer0.Scales (layer0 : GspLayer0) : Prop :=
  (layer0.clipRect.rectW ≤ layer0.desSides.1 ∧ layer0.desSides.1 ≤ 4 * layer0.clipRect.rectW) ∧
  layer0.clipRect.rectH ≤ layer0.desSides.2 ∧ layer0.desSides.2 ≤ 4 * layer0.clipRect.rectH

/-- So many bytes from an address on are in the buffer that is lent. -/
def TmpBuffer.Holds (s : TmpBuffer) (addr : UInt32) (len : Nat) : Prop :=
  s.outBufferPhy.toUInt32.toNat ≤ addr.toNat ∧
    addr.toNat + len ≤ s.outBufferPhy.toUInt32.toNat + s.outBufferSize.toInt.toNat

instance (s : TmpBuffer) (addr : UInt32) (len : Nat) : Decidable (s.Holds addr len) :=
  inferInstanceAs (Decidable (_ ∧ _))

/-- Both steps are possible, the second one takes what the first one leaves, and that is inside of
the buffer. The chroma plane has half as many lines as the luma plane. -/
structure TwoSteps (s : TmpBuffer) (phase1 phase2 : GspConfig) : Prop where
  scales1 : phase1.layer0.Scales
  scales2 : phase2.layer0.Scales
  source : phase2.layer0.clipRect = phase1.layer0.desRect
  pitch : phase2.layer0.pitch = phase1.layerDes.pitch
  planeY : s.Holds phase1.layerDes.srcAddr.addrY
    (phase1.layerDes.pitch * phase1.layer0.desRect.rectH)
  planeUV : s.Holds phase1.layerDes.srcAddr.addrUV
    (phase1.layerDes.pitch * phase1.layer0.desRect.rectH / 2)

variable {gspProccess : GspConfig → Int} {alloc : Option Int32} {fbInfo : FrameBufferInfo}
  {dstBuffer : DstBuffer} {s s' : TmpBuffer} {cfg phase1 phase2 : GspConfig}

/-- What is left in the end. -/
theorem scalingupTwice_some
    (h : scalingupTwice gspProccess alloc fbInfo dstBuffer s cfg = some (s', phase1, phase2)) :
    ∃ addr memInfo, s' = (acquireTmpBuffer alloc fbInfo dstBuffer s).2 ∧
      phase1Memory fbInfo s' cfg.layerDes.memInfo = some (addr, memInfo) ∧
      phase1 = phase1Config cfg addr memInfo ∧ phase2 = phase2Config cfg phase1 := by
  unfold scalingupTwice at h
  simp only at h
  split at h
  · cases h
  · split at h
    · cases h
    · rename_i addr memInfo hmem
      split at h
      · cases h
      · simp only [Option.some.injEq, Prod.mk.injEq] at h
        obtain ⟨rfl, rfl, rfl⟩ := h
        exact ⟨addr, memInfo, rfl, hmem, rfl, rfl⟩

/-! ## The buffer is too small -/

/-- Rounding does not make it as large as the screen. -/
theorem tmpBufferSize_lt {width height : Nat} (h : 0 < width * height) :
    tmpBufferSize width height < width * height := by
  have hw := roundBits_le (p := 24) (by decide) width
  have hh := roundBits_le (p := 24) (by decide) height
  have harea := roundBits_le (p := 24) (by decide) (roundBits 24 width * roundBits 24 height)
  have hprod := Nat.mul_le_mul hw hh
  unfold tmpBufferSize
  generalize roundBits 24 (roundBits 24 width * roundBits 24 height) = area at *
  generalize roundBits 24 width = w at *
  generalize roundBits 24 height = h' at *
  have hprod' : 2 ^ 24 * 2 ^ 24 * (w * h') ≤ (2 ^ 24 + 1) * (2 ^ 24 + 1) * (width * height) := by
    calc 2 ^ 24 * 2 ^ 24 * (w * h') = 2 ^ 24 * w * (2 ^ 24 * h') := by ac_rfl
      _ ≤ (2 ^ 24 + 1) * width * ((2 ^ 24 + 1) * height) := hprod
      _ = (2 ^ 24 + 1) * (2 ^ 24 + 1) * (width * height) := by ac_rfl
  omega

/-- The chroma plane begins behind as many bytes of luma as the screen has pixels. -/
theorem phase1Memory_addr {memInfo memInfo' : GspMemInfo} {addr : GspAddr}
    (h : phase1Memory fbInfo s memInfo = some (addr, memInfo')) :
    addr.addrUV = addr.addrY + fbInfo.fbWidth.toUInt32 * fbInfo.fbHeight.toUInt32 := by
  unfold phase1Memory at h
  simp only at h
  split at h
  · cases h
    rfl
  · rw [Option.map_eq_some_iff] at h
    obtain ⟨fd, -, h⟩ := h
    cases h
    rfl

/-- The planes of the first picture are not both in the buffer. -/
theorem not_holds_planes (hpos : 0 < fbInfo.width * fbInfo.height)
    (hbuffer : 4 * (fbInfo.width * fbInfo.height) < 2 ^ 32)
    (hsize : s.outBufferSize = Int32.ofNat (tmpBufferSize fbInfo.width fbInfo.height))
    {addr : GspAddr}
    (haddr : addr.addrUV = addr.addrY + fbInfo.fbWidth.toUInt32 * fbInfo.fbHeight.toUInt32)
    {m n : Nat} (hY : s.Holds addr.addrY m) (hUV : s.Holds addr.addrUV n) : False := by
  have hlt := tmpBufferSize_lt hpos
  have hpixels : (fbInfo.fbWidth.toUInt32 * fbInfo.fbHeight.toUInt32).toNat =
      fbInfo.width * fbInfo.height := by
    rw [UInt32.toNat_mul]
    exact Nat.mod_eq_of_lt (by unfold FrameBufferInfo.width FrameBufferInfo.height at hbuffer; omega)
  obtain ⟨hY1, hY2⟩ := hY
  obtain ⟨hUV1, hUV2⟩ := hUV
  rw [hsize, Int32.toInt_ofNat_of_lt (by omega), Int.toNat_natCast] at hY2 hUV2
  rw [haddr, UInt32.toNat_add, hpixels] at hUV1 hUV2
  -- the address of the chroma plane may wrap around
  have hwrap := addr.addrY.toNat_lt
  omega

/-- Whatever the layer is, the picture between the two steps is not inside of the buffer that is
lent for it. That buffer is in 32 bit memory, with four bytes for each pixel of the screen. -/
theorem scalingup_twice_outside (gspProccess : GspConfig → Int) (alloc : Option Int32)
    (fbInfo : FrameBufferInfo) (dstBuffer : DstBuffer) (s : TmpBuffer) (cfg : GspConfig)
    (hborrow : dstBuffer.format = .rgba8888) (hpos : 0 < fbInfo.width * fbInfo.height)
    (hbuffer : 4 * (fbInfo.width * fbInfo.height) < 2 ^ 32) :
    ¬∃ s' phase1 phase2,
      scalingupTwice gspProccess alloc fbInfo dstBuffer s cfg = some (s', phase1, phase2) ∧
      TwoSteps s' phase1 phase2 := by
  rintro ⟨s', phase1, phase2, hrun, hsteps⟩
  obtain ⟨addr, memInfo, rfl, hmem, rfl, rfl⟩ := scalingupTwice_some hrun
  have hsize : (acquireTmpBuffer alloc fbInfo dstBuffer s).2.outBufferSize =
      Int32.ofNat (tmpBufferSize fbInfo.width fbInfo.height) := by
    simp only [acquireTmpBuffer, hborrow, if_true]
  exact not_holds_planes hpos hbuffer hsize (phase1Memory_addr hmem) hsteps.planeY hsteps.planeUV

/-! ### A small video on a screen of 480 times 800 -/

def screen : FrameBufferInfo := ⟨480, 800⟩

/-- A GSP that scales by sixteen with two steps. -/
def gsp256 : GspCapability :=
  ⟨2, 2, 1, true, 1, ⟨4, 4⟩, ⟨4096, 4096⟩, ⟨4, 4⟩, ⟨4096, 4096⟩, 256, 1, 0, 0, 2⟩

def env256 : HwcEnv := ⟨⟨true, false, false⟩, some gsp256, 480, 800⟩

/-- 32 by 32 pixels that are shown as 256 by 256. -/
def smallVideo : SprdHWLayer :=
  { SprdHWLayer.new ⟨false, some ⟨.yCbCr420SP, 32, 32, true, false, false, false⟩, 0, true,
      ⟨0, 0, 32, 32⟩, ⟨0, 0, 256, 256⟩⟩ with
    srcRect := ⟨0, 0, 32, 32⟩
    fbRect := ⟨0, 0, 256, 256⟩
    mAccelerator := .gsp }

def smallConfig : GspConfig :=
  let noMemory : GspMemInfo := ⟨0, 0, 0⟩
  ⟨gspImageLayerConfig smallVideo ⟨false, .angle0, ⟨0, 0, 0, 0⟩, ⟨0, 0, 0, 0⟩, 32, ⟨0, 0, 0⟩,
    ⟨7, 1024, 1024⟩, .yuv420TwoPlanes, 0⟩, false, ⟨.other, ⟨0x10000000, 0x1005dc00, 0x1005dc00⟩, 480,
    noMemory, 0⟩⟩

theorem scalingup_twice_outside_small :
    ¬∃ s' phase1 phase2, scalingupTwice (fun _ => 0) none screen ⟨.rgba8888, 0x10000000⟩
      ⟨none, 0, 0⟩ smallConfig = some (s', phase1, phase2) ∧ TwoSteps s' phase1 phase2 :=
  scalingup_twice_outside _ _ screen _ _ _ rfl (by decide) (by decide)

/-- The GSP takes the layer, and needs two steps; the chroma plane of the picture between them lies
96000 bytes behind the end of the buffer. -/
theorem not_twoSteps_small :
    (env256.prepareForGXP smallVideo).2 = 0 ∧ smallVideo.checkYUVLayerFormat = true ∧
    scalingUpTwiceCheck smallConfig = true ∧
    ∃ s' phase1 phase2, scalingupTwice (fun _ => 0) none screen ⟨.rgba8888, 0x10000000⟩
        ⟨none, 0, 0⟩ smallConfig = some (s', phase1, phase2) ∧
      phase1.layerDes.srcAddr.addrUV.toNat =
        s'.outBufferPhy.toUInt32.toNat + s'.outBufferSize.toInt.toNat + 96000 ∧
      ¬TwoSteps s' phase1 phase2 := by
  refine ⟨by decide +kernel, by decide, by decide, _, _, _, rfl, by decide +kernel, fun h => ?_⟩
  exact absurd h.planeUV (by decide +kernel)

/-! ## The factors -/

theorem and_mask (n : Nat) (h : n < 2 ^ 16) : n &&& 0xfffe = n / 2 * 2 := by
  have hdiv : (n &&& 0xfffe) / 2 = n / 2 := by
    rw [Nat.and_div_two, show 0xfffe / 2 = 2 ^ 15 - 1 from rfl, Nat.and_two_pow_sub_one_eq_mod]
    omega
  have hmod : (n &&& 0xfffe) % 2 = 0 := by
    have := Nat.and_mod_two_pow (a := n) (b := 0xfffe) (n := 1)
    simpa using this
  omega

/-- The side between the steps: from the picture it is at most four times as large, and as much is
left to the destination. It becomes smaller only if the layer does. -/
theorem intermediateSize_spec {clip des : Nat} (hclip : clip % 2 = 0) (hdes : des % 2 = 0)
    (hlt : des < 2 ^ 16) (hup : des ≤ 16 * clip) :
    (clip ≤ intermediateSize clip des ∧ intermediateSize clip des ≤ 4 * clip) ∧
    des ≤ 4 * intermediateSize clip des ∧ (intermediateSize clip des ≤ des ↔ clip ≤ des) := by
  unfold intermediateSize
  split
  · rw [and_mask _ (by omega)]
    omega
  · omega

/-- The transforms with a quarter turn. -/
theorem odd_rotationTypeConvert {t : UInt32} (h : t < 8) :
    (rotationTypeConvert t).odd = true ↔
      t &&& transformRot90 = transformRot90 ∨ t &&& transformRot270 = transformRot270 := by
  have hall : ∀ n < 8, (rotationTypeConvert (UInt32.ofNat n)).odd = true ↔
      UInt32.ofNat n &&& transformRot90 = transformRot90 ∨
        UInt32.ofNat n &&& transformRot270 = transformRot270 := by
    decide
  have ht := hall t.toNat (UInt32.lt_iff_toNat_lt.1 h)
  rwa [UInt32.ofNat_toNat] at ht

theorem le_of_not_mul_lt {a b : UInt32} (h : ¬16 * a < b) : b.toNat ≤ 16 * a.toNat := by
  rw [UInt32.lt_iff_toNat_lt, UInt32.toNat_mul, Nat.not_lt] at h
  exact Nat.le_trans h (Nat.mod_le _ _)

/-- A layer that `prepareForGXP` takes: at most sixteen times the size, and, unless the GSP is
capable of it, not larger in one direction and smaller in the other. -/
theorem gxpAccepts_ratio {env : HwcEnv} {cap : GspCapability} {l : SprdHWLayer}
    (layer0 : GspLayer0) (hup : cap.scaleRangeUp = 256) (hrot : l.mAndroidLayer.transform < 8)
    (h : env.gxpAccepts cap l) :
    ((gspImageLayerConfig l layer0).desSides.1 ≤ 16 * l.srcRect.w.toNat ∧
      (gspImageLayerConfig l layer0).desSides.2 ≤ 16 * l.srcRect.h.toNat) ∧
    (cap.scaleUpdownSametime = 0 →
      ¬(l.srcRect.w.toNat < (gspImageLayerConfig l layer0).desSides.1 ∧
          (gspImageLayerConfig l layer0).desSides.2 < l.srcRect.h.toNat) ∧
      ¬((gspImageLayerConfig l layer0).desSides.1 < l.srcRect.w.toNat ∧
          l.srcRect.h.toNat < (gspImageLayerConfig l layer0).desSides.2)) := by
  simp only [HwcEnv.gxpAccepts, hup, decide_eq_true_eq, ← odd_rotationTypeConvert hrot,
    show (256 : UInt32) / 16 = 16 from rfl, not_or] at h
  obtain ⟨-, -, ⟨hw, -, hh, -⟩, -, hsame, -⟩ := h
  simp only [GspLayer0.desSides, gspImageLayerConfig]
  by_cases hodd : (rotationTypeConvert l.mAndroidLayer.transform).odd = true
  · simp only [hodd, if_true, UInt32.lt_iff_toNat_lt, gt_iff_lt] at hw hh hsame ⊢
    refine ⟨⟨le_of_not_mul_lt hh, le_of_not_mul_lt hw⟩, fun hcap => ?_⟩
    have hboth := hsame hcap
    omega
  · rw [Bool.not_eq_true] at hodd
    simp only [hodd, Bool.false_eq_true, if_false, UInt32.lt_iff_toNat_lt, gt_iff_lt]
      at hw hh hsame ⊢
    refine ⟨⟨le_of_not_mul_lt hw, le_of_not_mul_lt hh⟩, fun hcap => ?_⟩
    have hboth := hsame hcap
    omega

theorem scalingUpTwiceCheck_iff : scalingUpTwiceCheck cfg = true ↔ cfg.layer0.layerEn = true ∧
    (cfg.layer0.clipRect.rectW * 4 < cfg.layer0.desSides.1 ∨
      cfg.layer0.clipRect.rectH * 4 < cfg.layer0.desSides.2) := by
  unfold scalingUpTwiceCheck GspLayer0.desSides
  rcases hodd : cfg.layer0.rotAngle.odd with _ | _
  · simp
  · simp

theorem phase1DesRect_eq (layer0 : GspLayer0) : phase1DesRect layer0 =
    ⟨0, 0, intermediateSize layer0.clipRect.rectW layer0.desSides.1,
      intermediateSize layer0.clipRect.rectH layer0.desSides.2⟩ := by
  unfold phase1DesRect GspLayer0.desSides
  rcases hodd : layer0.rotAngle.odd with _ | _
  · simp
  · simp

theorem phase1_scales_iff {addr : GspAddr} {memInfo : GspMemInfo} :
    (phase1Config cfg addr memInfo).layer0.Scales ↔
      (cfg.layer0.clipRect.rectW ≤ (phase1DesRect cfg.layer0).rectW ∧
        (phase1DesRect cfg.layer0).rectW ≤ 4 * cfg.layer0.clipRect.rectW) ∧
      cfg.layer0.clipRect.rectH ≤ (phase1DesRect cfg.layer0).rectH ∧
        (phase1DesRect cfg.layer0).rectH ≤ 4 * cfg.layer0.clipRect.rectH := Iff.rfl

theorem phase2_scales_iff {addr : GspAddr} {memInfo : GspMemInfo} :
    (phase2Config cfg (phase1Config cfg addr memInfo)).layer0.Scales ↔
      ((phase1DesRect cfg.layer0).rectW ≤ cfg.layer0.desSides.1 ∧
        cfg.layer0.desSides.1 ≤ 4 * (phase1DesRect cfg.layer0).rectW) ∧
      (phase1DesRect cfg.layer0).rectH ≤ cfg.layer0.desSides.2 ∧
        cfg.layer0.desSides.2 ≤ 4 * (phase1DesRect cfg.layer0).rectH := Iff.rfl

/-- For a layer that `prepareForGXP` takes, the first step always scales by one to four. The second
one does so too if the layer shrinks in no direction, as it is if the GSP does not scale up and down
at the same time. It takes the rectangle and the pitch of the first one. -/
theorem scalingup_twice_scales (env : HwcEnv) (cap : GspCapability) (l : SprdHWLayer)
    (layer0 : GspLayer0) (hup : cap.scaleRangeUp = 256) (hrot : l.mAndroidLayer.transform < 8)
    (haccept : env.gxpAccepts cap l) (hcfg : cfg.layer0 = gspImageLayerConfig l layer0)
    (hsrc : l.srcRect.w.toNat % 2 = 0 ∧ l.srcRect.h.toNat % 2 = 0)
    (hfb : l.fbRect.w.toNat % 2 = 0 ∧ l.fbRect.h.toNat % 2 = 0)
    (hlt : l.fbRect.w.toNat < 2 ^ 16 ∧ l.fbRect.h.toNat < 2 ^ 16)
    (hcheck : scalingUpTwiceCheck cfg)
    (hrun : scalingupTwice gspProccess alloc fbInfo dstBuffer s cfg = some (s', phase1, phase2)) :
    phase1.layer0.Scales ∧
    (phase2.layer0.Scales ↔ cfg.layer0.clipRect.rectW ≤ cfg.layer0.desSides.1 ∧
      cfg.layer0.clipRect.rectH ≤ cfg.layer0.desSides.2) ∧
    (cap.scaleUpdownSametime = 0 → phase2.layer0.Scales) ∧
    phase2.layer0.clipRect = phase1.layer0.desRect ∧
    phase2.layer0.pitch = phase1.layerDes.pitch := by
  obtain ⟨addr, memInfo, -, -, rfl, rfl⟩ := scalingupTwice_some hrun
  obtain ⟨-, hcheck⟩ := scalingUpTwiceCheck_iff.1 hcheck
  obtain ⟨⟨hw, hh⟩, hsame⟩ := gxpAccepts_ratio layer0 hup hrot haccept
  have hclipW : cfg.layer0.clipRect.rectW = l.srcRect.w.toNat := by rw [hcfg]; rfl
  have hclipH : cfg.layer0.clipRect.rectH = l.srcRect.h.toNat := by rw [hcfg]; rfl
  have hsides : (cfg.layer0.desSides.1 % 2 = 0 ∧ cfg.layer0.desSides.1 < 2 ^ 16) ∧
      cfg.layer0.desSides.2 % 2 = 0 ∧ cfg.layer0.desSides.2 < 2 ^ 16 := by
    rw [hcfg]
    unfold GspLayer0.desSides
    split
    · exact ⟨⟨hfb.2, hlt.2⟩, hfb.1, hlt.1⟩
    · exact ⟨⟨hfb.1, hlt.1⟩, hfb.2, hlt.2⟩
  rw [← hcfg] at hw hh hsame
  rw [← hclipW] at hw hsame hsrc
  rw [← hclipH] at hh hsame hsrc
  have hspecW := intermediateSize_spec hsrc.1 hsides.1.1 hsides.1.2 hw
  have hspecH := intermediateSize_spec hsrc.2 hsides.2.1 hsides.2.2 hh
  have hphase2 : (phase2Config cfg (phase1Config cfg addr memInfo)).layer0.Scales ↔
      cfg.layer0.clipRect.rectW ≤ cfg.layer0.desSides.1 ∧
        cfg.layer0.clipRect.rectH ≤ cfg.layer0.desSides.2 := by
    rw [phase2_scales_iff, phase1DesRect_eq]
    tauto
  refine ⟨?_, hphase2, fun hcap => hphase2.2 ?_, rfl, rfl⟩
  · rw [phase1_scales_iff, phase1DesRect_eq]
    exact ⟨hspecW.1, hspecH.1⟩
  · have hdir := hsame hcap
    omega

/-- The small video is scaled by two in the first step and by four in the second one. -/
theorem scalingup_twice_scales_small :
    ∃ s' phase1 phase2, scalingupTwice (fun _ => 0) none screen ⟨.rgba8888, 0x10000000⟩
        ⟨none, 0, 0⟩ smallConfig = some (s', phase1, phase2) ∧
      phase1.layer0.Scales ∧ phase2.layer0.Scales := by
  refine ⟨_, _, _, rfl, ?_⟩
  have hscales := scalingup_twice_scales env256 gsp256 smallVideo _ rfl (by decide) (by decide) rfl
    (by decide) (by decide) (by decide) (by decide)
    (rfl : scalingupTwice (fun _ => 0) none screen ⟨.rgba8888, 0x10000000⟩ ⟨none, 0, 0⟩
      smallConfig = _)
  exact ⟨hscales.1, hscales.2.1.mpr (by decide)⟩

end SprdHal.Hwc

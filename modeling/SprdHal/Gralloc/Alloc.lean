import SprdHal.Lib.Overflow

/-!
# The sizes of buffers (`gralloc/sc8830/alloc_device.cpp`)

`alloc_device_alloc` computes the stride and the size of a buffer from its width, height and format
in 32-bit words. The path over the GSP (`SprdUtil.cpp`) finds the planes of the buffer again from
the stride and the height in its handle.
-/

namespace SprdHal.Gralloc

open SprdHal.Lib

/-- `HAL_PIXEL_FORMAT_*` -/
inductive PixelFormat where
  | rgba8888 | rgbx8888 | rgb888 | rgb565 | bgra8888
  | blob | implementationDefined | yCrCb420SP | yCbCr420SP | yCbCr420P | yCbCr422I | yv12
  | other (format : Int32)
deriving DecidableEq

/-- What `usage` is asked for. -/
structure Usage where
  hwFb : Bool
  private0 : Bool
  private1 : Bool

/-- `mali_gralloc_yuv_info` -/
inductive YuvInfo where
  | noInfo | bt601Narrow | bt601Wide | bt709Narrow | bt709Wide

/-- What `alloc_device_alloc` sets in a `private_handle_t`. -/
structure PrivateHandle where
  shareFd : Int32
  width : Int32
  height : Int32
  format : PixelFormat
  stride : Int32
  yuvInfo : YuvInfo

/-- `EINVAL` -/
def einval : Int32 := 22

/-! ## The size -/

/-- `GRALLOC_ALIGN` of an `int` -/
def grallocAlignInt (value base : Int32) : Tracked Int32 := do
  let up ← Tracked.addS value (base - 1)
  pure (up &&& ~~~(base - 1))

/-- `GRALLOC_ALIGN` of a `size_t` -/
def grallocAlignSize (value base : UInt32) : Tracked UInt32 := do
  let up ← Tracked.addU value (base - 1)
  pure (up &&& ~~~(base - 1))

structure Layout where
  stride : UInt32
  size : UInt32

/-- Two planes, lines and rows in multiples of 16. -/
def layout420SP (w h : Int32) : Tracked Layout := do
  let stride := (← grallocAlignInt w 16).toUInt32
  let rows := (← grallocAlignInt h 16).toUInt32
  let line ← Tracked.addU stride (← grallocAlignSize (stride / 2) 16)
  return ⟨stride, ← Tracked.mulU rows line⟩

/-- `HAL_PIXEL_FORMAT_IMPLEMENTATION_DEFINED`: two planes, the second one on a multiple of 64. -/
def layoutImplementationDefined (w h : Int32) : Tracked Layout := do
  let stride := w.toUInt32
  let y ← grallocAlignSize (← Tracked.mulU h.toUInt32 stride) 64
  let uv ← Tracked.mulU h.toUInt32 (← grallocAlignSize (stride / 2) 16)
  return ⟨stride, ← Tracked.addU y uv⟩

/-- Three planes, the second and the third one on multiples of 64. -/
def layout420P (stride : UInt32) (h : Int32) : Tracked Layout := do
  let y ← grallocAlignSize (← Tracked.mulU h.toUInt32 stride) 64
  let u ← grallocAlignSize
    (← Tracked.mulU (h / 2).toUInt32 (← grallocAlignSize (stride / 2) 16)) 64
  let v ← Tracked.mulU (h / 2).toUInt32 (← grallocAlignSize (stride / 2) 16)
  return ⟨stride, ← Tracked.addU (← Tracked.addU y u) v⟩

def layoutYv12 (w h : Int32) : Tracked Layout := do
  layout420P (← grallocAlignInt w 16).toUInt32 h

def layoutBlob (w h : Int32) : Tracked Layout := do
  let stride := (← grallocAlignInt w 16).toUInt32
  return ⟨stride, (← Tracked.mulS w h).toUInt32⟩

def layoutRgb (bpp w h : Int32) : Tracked Layout := do
  let bpr := (← grallocAlignInt (← Tracked.mulS w bpp) 8).toUInt32
  let size ← Tracked.mulU bpr h.toUInt32
  return ⟨bpr / bpp.toUInt32, size⟩

/-- The `switch` over the format. -/
def layoutOf (format : PixelFormat) (w h : Int32) : Option (Tracked Layout) :=
  match format with
  | .yCrCb420SP | .yCbCr420SP => some (layout420SP w h)
  | .implementationDefined => some (layoutImplementationDefined w h)
  | .yCbCr420P => some (layout420P w.toUInt32 h)
  | .yv12 => some (layoutYv12 w h)
  | .yCbCr422I => none
  | .blob => some (layoutBlob w h)
  | .rgba8888 | .rgbx8888 | .bgra8888 => some (layoutRgb 4 w h)
  | .rgb888 => some (layoutRgb 3 w h)
  | .rgb565 => some (layoutRgb 2 w h)
  | .other _ => none

/-! ## The allocation -/

/-- Where the memory comes from. -/
inductive Source where
  | buffer | framebuffer
deriving DecidableEq

/-- `gralloc_alloc_buffer` and `gralloc_alloc_framebuffer`: an error, or the `share_fd` of the new
handle. -/
abbrev Allocator := Source → UInt32 → Usage → Except Int32 Int32

/-- What a call leaves behind: the memory that was asked for, the handle and the stride that the
caller gets, and the value returned. -/
structure Outcome where
  request : Option (Source × UInt32)
  handle : Option PrivateHandle
  pStride : Option Int32
  ret : Int32

def Outcome.invalid : Outcome := ⟨none, none, none, -einval⟩

def yuvInfoOf (usage : Usage) : YuvInfo :=
  match usage.private0, usage.private1 with
  | false, false => .bt601Narrow
  | false, true => .bt601Wide
  | true, false => .bt709Narrow
  | true, true => .bt709Wide

/-- The handle of a buffer. `bits16` is `GRALLOC_16_BITS`. -/
def handleOf (bits16 : Bool) (w h : Int32) (format : PixelFormat) (usage : Usage) (layout : Layout)
    (shareFd : Int32) : PrivateHandle where
  shareFd := shareFd
  width := w
  height := h
  format := if usage.hwFb then (if bits16 then .rgb565 else .rgba8888) else format
  stride := layout.stride.toInt32
  yuvInfo := yuvInfoOf usage

/-- The allocation, once the layout is known. -/
def allocLayout (bits16 : Bool) (alloc : Allocator) (w h : Int32) (format : PixelFormat)
    (usage : Usage) (layout : Layout) : Outcome :=
  let source := if usage.hwFb then .framebuffer else .buffer
  match alloc source layout.size usage with
  | .error err => ⟨some (source, layout.size), none, none, err⟩
  | .ok shareFd =>
    let hnd := handleOf bits16 w h format usage layout shareFd
    ⟨some (source, layout.size), some hnd, some hnd.stride, 0⟩

/-- `alloc_device_alloc`, built without `MALI_600`. -/
def allocDeviceAlloc (bits16 : Bool) (alloc : Allocator) (pHandle pStride : Bool) (w h : Int32)
    (format : PixelFormat) (usage : Usage) : Tracked Outcome :=
  if !pHandle || !pStride then pure .invalid
  else if w < 1 ∨ h < 1 then pure .invalid
  else match layoutOf format w h with
    | none => pure .invalid
    | some calculation => do return allocLayout bits16 alloc w h format usage (← calculation)

/-! ## The planes as the GSP finds them -/

/-- `GSP_LAYER_SRC_DATA_FMT_E` -/
inductive GspSrcFmt where
  | yuv4202P | yuv4203P | argb888 | rgb888 | rgb565 | maxNum

/-- `formatType_convert` -/
def formatTypeConvert : PixelFormat → GspSrcFmt
  | .yCbCr420SP | .yCrCb420SP => .yuv4202P
  | .yv12 => .yuv4203P
  | .rgba8888 => .argb888
  | .rgbx8888 => .rgb888
  | .rgb565 => .rgb565
  | _ => .maxNum

/-- `mem_info` -/
structure MemInfo where
  shareFd : Int32
  uvOffset : UInt32
  vOffset : UInt32

/-- The `endian_mode` that depends on the format. -/
inductive EndianMode where
  | unchanged | yWordEndn1SwapRgba | uvWordEndn2 | rgbSwpRgb

/-- What `gsp_image_layer_config` takes from the handle for layer 0. -/
structure Layer0Info where
  memInfo : MemInfo
  imgFormat : GspSrcFmt
  endianMode : EndianMode

/-- `gsp_image_layer_config` -/
def gspImageLayerConfig (privateH : PrivateHandle) : Layer0Info :=
  let pixelCnt := privateH.stride.toUInt32 * privateH.height.toUInt32
  let memInfo : MemInfo := ⟨privateH.shareFd, pixelCnt, pixelCnt⟩
  let imgFormat := formatTypeConvert privateH.format
  match privateH.format with
  | .rgba8888 | .rgbx8888 => ⟨memInfo, imgFormat, .yWordEndn1SwapRgba⟩
  | .yv12 => ⟨{ memInfo with uvOffset := memInfo.uvOffset + pixelCnt >>> 2 }, imgFormat, .unchanged⟩
  | .yCrCb420SP => ⟨memInfo, imgFormat, .uvWordEndn2⟩
  | .rgb565 => ⟨memInfo, imgFormat, .rgbSwpRgb⟩
  | _ => ⟨memInfo, imgFormat, .unchanged⟩

end SprdHal.Gralloc

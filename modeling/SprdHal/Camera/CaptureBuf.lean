import SprdHal.Camera.Trim

/-!
# The memory of a capture (`cmr_mem.c`)

`camera_capture_buf_size` looks the size of the frame memory up in a table, and
`camera_arrange_capture_buf` divides this memory among the buffers of a capture. One function for
each format places the planes of the sensor's image and of the target, over each other where the
image is scaled in place; the others follow one behind the other, as far as there is memory left,
and are allocated otherwise. `Arrange` holds what the functions pass on: the end of what is placed
(`mem_end`) and what is left (`mem_res`).

Every address is a physical and a virtual one, which are computed alike; a ghost says where an
address comes from.
-/

namespace SprdHal.Camera

open SprdHal.Lib

/-! ## Frames -/

/-- Where an address comes from: none was set, the frame memory, or `alloc_mem`. -/
inductive Origin where
  | unset
  | frame
  | alloc
  deriving DecidableEq, Repr

/-- An address in `addr_phy` and in `addr_vir`. -/
structure Addr where
  phy : UInt32
  vir : UInt32
  origin : Origin
  deriving DecidableEq, Repr

def Addr.null : Addr := ⟨0, 0, .unset⟩

def Addr.add (a : Addr) (n : UInt32) : Addr := { a with phy := a.phy + n, vir := a.vir + n }

def Addr.sub (a : Addr) (n : UInt32) : Addr := { a with phy := a.phy - n, vir := a.vir - n }

/-- The formats `IMG_DATA_TYPE_*`. -/
inductive ImgDataType where
  | jpeg
  | yuv422
  | yuv420
  | rgb565
  | rgb888
  | raw
  deriving DecidableEq, Repr

/-- `struct img_frm`; `y` and `u` are `addr_y` and `addr_u`. -/
structure ImgFrm where
  fmt : ImgDataType
  bufSize : UInt32
  size : ImgSize
  y : Addr
  u : Addr
  deriving DecidableEq, Repr

def ImgFrm.zero : ImgFrm := ⟨.jpeg, 0, ⟨0, 0⟩, .null, .null⟩

/-- `struct cmr_cap_mem` -/
structure CapMem where
  capRaw : ImgFrm
  capYuv : ImgFrm
  targetYuv : ImgFrm
  targetJpeg : ImgFrm
  thumYuv : ImgFrm
  thumJpeg : ImgFrm
  jpegTmp : ImgFrm
  capYuvRot : ImgFrm
  deriving DecidableEq, Repr

def CapMem.zero : CapMem :=
  ⟨.zero, .zero, .zero, .zero, .zero, .zero, .zero, .zero⟩

/-! ## Sizes -/

/-- `CAMERA_ALIGNED_16` -/
def cameraAligned16 (w : UInt32) : UInt32 := ((w + 16 - 1) >>> 4) <<< 4

def aligned16 (z : ImgSize) : ImgSize := ⟨cameraAligned16 z.width, cameraAligned16 z.height⟩

/-- `width * height` -/
def ImgSize.area (z : ImgSize) : UInt32 := z.width * z.height

/-- `JPEG_SMALL_SIZE`, `JPEG_EXIF_SIZE`, `MIN_GAP_LINES`, `ALIGN_PAGE_SIZE`, `ISP_YUV_TO_RAW_GAP`,
`RAWRGB_BIT_WIDTH` -/
def jpegSmallSize : UInt32 := 300 * 1024
def jpegExifSize : UInt32 := 64 * 1024
def minGapLines : UInt32 := 0x80
def alignPageSize : UInt32 := 4096
def ispYuvToRawGap : UInt32 := 256
def rawrgbBitWidth : UInt32 := 10

/-- `ADDR_BY_WORD` -/
def addrByWord (a : UInt32) : UInt32 := (a + 3) &&& ~~~3

def getJpegSize (z : ImgSize) : UInt32 :=
  addrByWord (if z.area ≤ jpegSmallSize then z.area + jpegExifSize else z.area)

def getThumYuvSize (thum : ImgSize) : UInt32 := thum.area * 3 / 2

def getThumJpegSize (thum : ImgSize) : UInt32 := addrByWord thum.area

/-! ## The tables -/

/-- `struct cap_size_to_mem` -/
structure CapSizeToMem where
  pixelNum : UInt32
  memSize : UInt32
  deriving DecidableEq, Repr

/-- The rows of a table: an entry of so many million pixels gets so many MiB. A table has thirteen
entries, and those that are not given are zero. -/
def sizeTab (mega : List UInt32) : List CapSizeToMem :=
  let pixels : List UInt32 := 0x180000 :: (List.range 12).map fun i => UInt32.ofNat (i + 2) <<< 20
  let given := (pixels.zip mega).map fun row => ⟨row.1, row.2 <<< 20⟩
  given ++ List.replicate (13 - mega.length) ⟨0, 0⟩

def backCamMemSizeTab : List CapSizeToMem := sizeTab [6, 8, 13, 14, 20, 18, 21, 22]
def backCamRawMemSizeTab : List CapSizeToMem :=
  sizeTab [5, 8, 12, 13, 16, 19, 22, 25, 35, 35, 36, 36, 37]
def frontCamMemSizeTab : List CapSizeToMem := sizeTab [7, 9, 13, 18, 19, 19, 21, 22]
def frontCamRawMemSizeTab : List CapSizeToMem := sizeTab [9, 9, 13, 18, 19, 19, 21, 22]
def memSizeTab : List CapSizeToMem := sizeTab [4, 8, 16, 16, 16, 16, 16, 16]

def backCameraId : UInt32 := 0
def frontCameraId : UInt32 := 1

/-- The table for a camera; `raw` is whether the sensor's format is `SENSOR_IMAGE_FORMAT_RAW`. -/
def memTab (cameraId : UInt32) (raw : Bool) : List CapSizeToMem :=
  if raw then
    if cameraId = backCameraId then backCamRawMemSizeTab
    else if cameraId = frontCameraId then frontCamRawMemSizeTab
    else memSizeTab
  else
    if cameraId = backCameraId then backCamMemSizeTab
    else if cameraId = frontCameraId then frontCamMemSizeTab
    else memSizeTab

/-- `camera_capture_buf_size`; `none` is the return value -1. -/
def cameraCaptureBufSize (cameraId : UInt32) (raw : Bool) (imageSize : ImgSize) : Option UInt32 :=
  ((memTab cameraId raw).find? fun row => imageSize.area ≤ row.pixelNum).map CapSizeToMem.memSize

/-! ## The arrangement -/

/-- The arguments of `camera_arrange_capture_buf`. `allocMem n size` is the outcome of the `n`-th call
of `alloc_mem`. -/
structure CapReq where
  base : Addr
  bufSize : UInt32
  snSize : ImgSize
  snTrim : ImgRect
  imageSize : ImgSize
  origFmt : ImgDataType
  capSize : ImgSize
  thumSize : ImgSize
  needRot : Bool
  allocMem : Nat → UInt32 → Option (UInt32 × UInt32)
  base_frame : base.origin = .frame

/-- `mem_res`, `mem_end` and `channel_size` with the buffers placed so far, and the number of calls of
`alloc_mem`. -/
structure Arrange where
  mem : CapMem
  memRes : UInt32
  memEnd : UInt32
  channelSize : UInt32
  allocs : Nat

/-- `gap_size` of `arrange_jpeg_buf` for the distance of the source plane from the target plane:
scaling in place needs `MIN_GAP_LINES`. -/
def jpegGap (image : ImgSize) (distance : UInt32) : UInt32 :=
  if distance < minGapLines * image.width then
    (minGapLines * image.width - distance + alignPageSize - 1) &&& ~~~(alignPageSize - 1)
  else 0

/-- An entry of `img_frame` in `arrange_misc_buf`. -/
def miscFrm (size : UInt32) (y : Addr) : ImgFrm := ⟨.jpeg, size, ⟨0, 0⟩, y, y.add (size * 2 / 3)⟩

namespace CapReq

variable (r : CapReq)

/-- A call of `alloc_mem`. -/
def alloc (a : Arrange) (size : UInt32) : Option (Addr × Arrange) :=
  (r.allocMem a.allocs size).map fun addr =>
    (⟨addr.1, addr.2, .alloc⟩, { a with allocs := a.allocs + 1 })

/-- `target_jpeg`, if it is not placed over the rotation buffer. -/
def placeJpeg (a : Arrange) : Option Arrange :=
  if r.needRot then some a
  else if a.mem.targetJpeg.bufSize > a.memRes then none
  else some { a with
    mem.targetJpeg.y := r.base.add a.memEnd
    memEnd := a.memEnd + a.mem.targetJpeg.bufSize
    memRes := a.memRes - a.mem.targetJpeg.bufSize }

/-- `yy_to_y` and `useless_raw` of `arrange_raw_buf`: the distance of the sensor's plane from the
target's, and the bytes of raw data below which it may lie. -/
def rawGap : UInt32 × UInt32 :=
  let image := aligned16 r.imageSize
  let sn := aligned16 r.snSize
  let gap := ispYuvToRawGap * r.snSize.width
  if image.width ≠ sn.width ∨ image.height ≠ sn.height then
    if image.area > sn.area then
      let yyToY := image.area - sn.area
      let yyToY := if yyToY < gap then gap else yyToY
      (yyToY, sn.area * rawrgbBitWidth / 8 - sn.width * (sn.height - ispYuvToRawGap))
    else (gap, gap * rawrgbBitWidth / 8)
  else if r.snTrim.startY ≠ 0 then
    let yyToY2 := r.imageSize.area - r.capSize.area
    let yyToY2 := if yyToY2 < gap then gap else yyToY2
    let tmp := r.snSize.height - r.snTrim.height - r.snTrim.startY
    let yyToY := max yyToY2 (tmp * r.snSize.width)
    (yyToY, yyToY * rawrgbBitWidth / 8)
  else (0, 0)

/-- `arrange_raw_buf` -/
def arrangeRawBuf (a : Arrange) : Option Arrange := do
  let image := aligned16 r.imageSize
  let channelSize := r.snSize.area
  let rawSize := channelSize * rawrgbBitWidth / 8
  let yToRaw := ispYuvToRawGap * r.snSize.width
  let yyToY := r.rawGap.1
  let uselessRaw := r.rawGap.2
  let uvSize := (channelSize >>> 1) + (yyToY >>> 1)
  let capY := r.base.add yyToY
  let offset := rawSize + yToRaw + yyToY - uselessRaw
  if offset > a.memRes then none
  else
    let a := { a with memEnd := a.memEnd + offset, memRes := a.memRes - offset }
    let a ← r.placeJpeg a
    let (targetU, a) ← if uvSize < a.memRes then
        some (r.base.add a.memEnd, { a with memEnd := a.memEnd + uvSize, memRes := a.memRes - uvSize })
      else r.alloc a uvSize
    some { a with
      mem.targetYuv := ⟨.yuv420, (channelSize * 3) >>> 1, image, r.base, targetU⟩
      mem.capYuv := ⟨.yuv420, (channelSize * 3) >>> 1, r.snSize, capY, targetU.add (yyToY >>> 1)⟩
      mem.capRaw := ⟨.raw, rawSize, r.snSize, capY.add yToRaw, .null⟩
      channelSize := channelSize }

/-- `arrange_jpeg_buf` -/
def arrangeJpegBuf (a : Arrange) : Option Arrange := do
  let image := aligned16 r.imageSize
  let channelSize := image.area
  let yyToY := (r.snSize.height - r.snTrim.startY - r.snTrim.height) * r.snSize.width
  let tmp := r.snSize.area
  let yEnd := yyToY + max channelSize tmp
  let gapSize := jpegGap image (yEnd - tmp)
  let targetU := (r.base.add yEnd).add gapSize
  let capY := ((r.base.add yEnd).sub tmp).add gapSize
  let capU := ((targetU.add yEnd).sub tmp).add gapSize
  let offset := if r.needRot then ((yEnd * 3) >>> 1) + 2 * gapSize else (yEnd <<< 1) + 2 * gapSize
  if offset > a.memRes then none
  else
    let a ← r.placeJpeg { a with memEnd := offset, memRes := a.memRes - offset }
    some { a with
      mem.targetYuv := ⟨.yuv420, channelSize * 3 / 2, image, r.base, targetU⟩
      mem.capYuv := ⟨.yuv420, channelSize * 3 / 2, aligned16 r.capSize, capY, capU⟩
      channelSize := channelSize }

/-- `arrange_yuv_buf` -/
def arrangeYuvBuf (a : Arrange) : Option Arrange := do
  let image := aligned16 r.imageSize
  let tmp := r.capSize.area
  let up := image.area > tmp
  let channelSize := if up then image.area else tmp
  let targetU := r.base.add channelSize
  let capY := if up then targetU.sub tmp else r.base
  let capU := if up then targetU.add ((channelSize - tmp) >>> 1) else targetU
  let offset := (channelSize * 3) >>> 1
  if offset > a.memRes then none
  else
    let a ← r.placeJpeg { a with memEnd := offset, memRes := a.memRes - offset }
    some { a with
      mem.targetYuv := ⟨.yuv420, (channelSize * 3) >>> 1, image, r.base, targetU⟩
      mem.capYuv := ⟨.yuv420, (channelSize * 3) >>> 1, aligned16 r.capSize, capY, capU⟩
      channelSize := channelSize }

/-- The loops of `arrange_misc_buf`: the buffers are placed in the frame memory up to the first one
that does not fit. -/
def miscBufs : Bool → List UInt32 → Arrange → Option (List ImgFrm × Arrange)
  | _, [], a => some ([], a)
  | inFrame, size :: sizes, a =>
    if inFrame ∧ a.memRes ≥ size then do
      let y := r.base.add a.memEnd
      let (frms, a) ← miscBufs true sizes
        { a with memRes := a.memRes - size, memEnd := a.memEnd + size }
      some (miscFrm size y :: frms, a)
    else do
      let (y, a) ← r.alloc a size
      let (frms, a) ← miscBufs false sizes a
      some (miscFrm size y :: frms, a)

/-- `arrange_misc_buf` -/
def arrangeMiscBuf (a : Arrange) : Option Arrange := do
  match ← r.miscBufs true [getThumYuvSize r.thumSize, getThumJpegSize r.thumSize] a with
  | ([thumYuv, thumJpeg], a) =>
    some { a with
      mem.thumYuv := { thumYuv with size := r.thumSize }
      mem.thumJpeg := { thumJpeg with u := .null }
      mem.jpegTmp.bufSize := a.mem.capYuv.bufSize
      mem.jpegTmp.y := a.mem.capYuv.u }
  | _ => none

/-- `arrange_rot_buf` -/
def arrangeRotBuf (a : Arrange) : Option Arrange := do
  let image := aligned16 r.imageSize
  let sizePixel := if r.origFmt = .jpeg then a.channelSize <<< 1 else (a.channelSize * 3) >>> 1
  let (y, u, a) ← if a.memRes > sizePixel then
      let y := r.base.add a.memEnd
      some (y, y.add a.channelSize,
        { a with memRes := a.memRes - sizePixel, memEnd := a.memEnd + sizePixel })
    else do
      let (y, a) ← r.alloc a a.channelSize
      let (u, a) ← r.alloc a a.channelSize
      some (y, u, a)
  some { a with
    mem.capYuvRot := ⟨.yuv420, sizePixel, ⟨image.height, image.width⟩, y, u⟩
    mem.targetJpeg.y := y
    mem.jpegTmp.y := u }

/-- The function for the format. -/
def arrangeFmtBuf (a : Arrange) : Option Arrange :=
  match r.origFmt with
  | .raw => r.arrangeRawBuf a
  | .jpeg => r.arrangeJpegBuf a
  | _ => r.arrangeYuvBuf a

/-- What `camera_arrange_capture_buf` starts with. -/
def start : Arrange where
  mem := { CapMem.zero with
    targetJpeg := { ImgFrm.zero with bufSize := getJpegSize (aligned16 r.imageSize) } }
  memRes := r.bufSize
  memEnd := 0
  channelSize := (aligned16 r.imageSize).area
  allocs := 0

/-- `target_jpeg` without the room for the EXIF data. -/
def resizeJpeg (mem : CapMem) : CapMem :=
  { mem with
    targetJpeg.y := mem.targetJpeg.y.add jpegExifSize
    targetJpeg.bufSize := mem.targetJpeg.bufSize - jpegExifSize }

/-- `camera_arrange_capture_buf`: what it leaves in `capture_mem[0]`; `none` is the return value
-1. -/
def cameraArrangeCaptureBuf : Option CapMem := do
  let a ← r.arrangeFmtBuf r.start
  let a ← r.arrangeMiscBuf a
  let a ← if r.needRot then r.arrangeRotBuf a else some a
  some (resizeJpeg a.mem)

end CapReq

end SprdHal.Camera

import SprdHal.Camera.CaptureMem
import SprdHal.Lib.Regions

/-!
# The layout of a capture

Where the planes and the buffers of an arrangement lie in the frame memory, and when they lie inside
of it and clear of each other. The buffers that follow the main planes one behind the other always
do; what may go wrong is the captured UV plane of a JPEG sensor, which may reach behind the main
buffers if there is a rotation, the planes of the target of raw data, and the JPEG that is laid over
the rotation buffer (`capture_layout_iff`).
-/

namespace SprdHal.Camera

open SprdHal.Lib

/-! ## Regions of the frame memory -/

/-- The physical and the virtual address. -/
inductive Side where
  | phy
  | vir
  deriving DecidableEq, Repr

def Side.of : Side → Addr → UInt32
  | .phy => Addr.phy
  | .vir => Addr.vir

def ImgSize.pixels (z : ImgSize) : Nat := z.width.toNat * z.height.toNat

/-- Where the planes and the buffers lie. -/
structure Layout where
  y : List Region
  uv : List Region
  jpeg : Region
  bufs : List Region
  deriving DecidableEq, Repr

/-- The buffers that have to be clear of each other: with a rotation the JPEG is laid over the rotation
buffer. -/
def Layout.apart (l : Layout) (needRot : Bool) : List Region :=
  if needRot then l.bufs else l.jpeg :: l.bufs

/-- Everything is inside the memory, and the UV planes and the buffers are clear of each other. The UV
planes of the capture and of the target lie over each other where the image is scaled in place. -/
structure Layout.Ok (l : Layout) (needRot : Bool) (size : Nat) : Prop where
  y : ∀ p ∈ l.y, p.Inside size
  uv : ∀ p ∈ l.uv, p.Inside size
  jpeg : l.jpeg.Inside size
  bufs : ∀ p ∈ l.bufs, p.Inside size
  apart : (l.apart needRot).Pairwise Region.Apart
  clear : ∀ p ∈ l.uv, ∀ q ∈ l.apart needRot, p.Apart q

namespace CapReq

variable (r : CapReq)

/-- Where `len` bytes from an address on lie in the frame memory. -/
def region (s : Side) (a : Addr) (len : Nat) : Region :=
  ⟨if a.origin = .frame then some (s.of a - s.of r.base).toNat else none, len⟩

/-- The size of what the sensor writes into `cap_yuv`. -/
def capSource : ImgSize :=
  match r.origFmt with
  | .raw | .jpeg => r.snSize
  | _ => r.capSize

def layout (s : Side) (mem : CapMem) : Layout where
  y := [r.region s mem.targetYuv.y mem.targetYuv.size.pixels,
    r.region s mem.capYuv.y r.capSource.pixels]
  uv := [r.region s mem.targetYuv.u (mem.targetYuv.size.pixels / 2),
    r.region s mem.capYuv.u (r.capSource.pixels / 2)]
  jpeg := r.region s mem.targetJpeg.y mem.targetJpeg.bufSize.toNat
  bufs := r.region s mem.thumYuv.y mem.thumYuv.bufSize.toNat ::
    r.region s mem.thumJpeg.y mem.thumJpeg.bufSize.toNat ::
      if r.needRot then [r.region s mem.capYuvRot.y mem.capYuvRot.bufSize.toNat] else []

/-- The layout is in order, by the physical and by the virtual addresses. -/
def LayoutOk (mem : CapMem) : Prop :=
  ∀ s, (r.layout s mem).Ok r.needRot r.bufSize.toNat

/-! ## What the layout depends on -/

/-- The size of the image rounded up to a multiple of 16, and the JPEG's size. -/
def image : ImgSize := aligned16 r.imageSize
def jpegSize : Nat := (getJpegSize r.image).toNat

def thumSizes : List Nat := [(getThumYuvSize r.thumSize).toNat, (getThumJpegSize r.thumSize).toNat]

/-- `y_end` and `gap_size` of `arrange_jpeg_buf`. -/
def yEnd : Nat :=
  (r.snSize.height.toNat - r.snTrim.startY.toNat - r.snTrim.height.toNat) * r.snSize.width.toNat +
    max r.image.pixels r.snSize.pixels
def gapSize : Nat := (jpegGap r.image (UInt32.ofNat (r.yEnd - r.snSize.pixels))).toNat

/-- The end of the main buffers that hold the planes, without the UV planes of raw data. -/
def planesEnd : Nat :=
  match r.origFmt with
  | .raw =>
    (r.snSize.area * rawrgbBitWidth / 8 + ispYuvToRawGap * r.snSize.width + r.rawGap.1 -
      r.rawGap.2).toNat
  | .jpeg => if r.needRot then r.yEnd * 3 / 2 + 2 * r.gapSize else 2 * r.yEnd + 2 * r.gapSize
  | _ => max r.image.pixels r.capSize.pixels * 3 / 2

/-- The end of `target_jpeg` behind them. -/
def jpegEnd : Nat := if r.needRot then r.planesEnd else r.planesEnd + r.jpegSize

/-- The room for the UV planes of raw data, and the target's one. -/
def rawUvSize : Nat := r.snSize.pixels / 2 + r.rawGap.1.toNat / 2
def rawTargetUv : Region :=
  ⟨if r.rawUvSize < r.bufSize.toNat - r.jpegEnd then some r.jpegEnd else none, r.image.pixels / 2⟩

/-- The end of all main buffers. -/
def mainEnd : Nat :=
  if r.origFmt = .raw ∧ r.rawUvSize < r.bufSize.toNat - r.jpegEnd then r.jpegEnd + r.rawUvSize
  else r.jpegEnd

/-- The size of the rotation buffer. -/
def rotSize : UInt32 :=
  match r.origFmt with
  | .raw => (r.snSize.area * 3) >>> 1
  | .jpeg => r.image.area <<< 1
  | _ => ((if r.image.area > r.capSize.area then r.image.area else r.capSize.area) * 3) >>> 1

/-- Where the rotation buffer starts, if it lies in the frame memory. -/
def rotStart : Option Nat :=
  let e := fillEnd r.bufSize.toNat r.mainEnd r.thumSizes
  if r.needRot ∧ r.rotSize.toNat < r.bufSize.toNat - e then some e else none

/-- The buffers behind the main ones. -/
def behind : List Region :=
  fill r.bufSize.toNat r.mainEnd r.thumSizes ++
    if r.needRot then [⟨r.rotStart, r.rotSize.toNat⟩] else []

/-- `cap_yuv`'s UV plane of a JPEG sensor. -/
def jpegCapUv : Region :=
  ⟨some (2 * r.yEnd + 2 * r.gapSize - r.snSize.pixels), r.snSize.pixels / 2⟩

/-- `target_jpeg` over the rotation buffer, behind the room for the EXIF data. -/
def rotJpeg : Region :=
  ⟨r.rotStart.map fun e => (e + 65536) % 2 ^ 32, r.jpegSize - 65536⟩

/-- A region is inside the frame memory and clear of the buffers behind the main ones. -/
def Clear (p : Region) : Prop := p.Inside r.bufSize.toNat ∧ ∀ q ∈ r.behind, p.Apart q

/-- The planes and buffers that may be out of place are not. -/
structure Fits : Prop where
  raw : r.origFmt = .raw → r.image.pixels ≤ r.bufSize.toNat ∧
    r.rawGap.1.toNat + r.snSize.pixels ≤ r.bufSize.toNat ∧ r.Clear r.rawTargetUv
  jpeg : r.origFmt = .jpeg → r.needRot → r.Clear r.jpegCapUv
  rot : r.rotJpeg.Inside r.bufSize.toNat

/-- The products that are computed for a format fit into 32 bits, and the trim lies inside the sensor's
image. -/
structure ProductsFit : Prop where
  image : r.image.pixels * 3 < 2 ^ 32
  sensor : r.snSize.pixels * 3 < 2 ^ 32
  cap : r.capSize.pixels * 3 < 2 ^ 32
  trim : r.snTrim.startY.toNat + r.snTrim.height.toNat ≤ r.snSize.height.toNat
  yEnd : r.origFmt = .jpeg → r.yEnd * 3 < 2 ^ 32
  gap : r.origFmt = .jpeg → 2 * (r.yEnd + r.gapSize) < 2 ^ 32

end CapReq

/-! ## Addresses and regions -/

theorem toNat_jpegExifSize : jpegExifSize.toNat = 65536 := rfl

section Regions

variable {r : CapReq}

theorem Addr.add_add (a : Addr) (m n : UInt32) : (a.add m).add n = a.add (m + n) := by
  simp only [Addr.add, UInt32.add_assoc]

theorem Addr.add_sub (a : Addr) (m n : UInt32) : (a.add m).sub n = a.add (m - n) := by
  simp only [Addr.add, Addr.sub, UInt32.sub_eq_add_neg, UInt32.add_assoc]

theorem Addr.origin_add (a : Addr) (n : UInt32) : (a.add n).origin = a.origin := rfl

theorem region_add (s : Side) (o : UInt32) (len : Nat) :
    r.region s (r.base.add o) len = ⟨some o.toNat, len⟩ := by
  have hbase : (r.base.add o).origin = .frame := r.base_frame
  have hside : s.of (r.base.add o) - s.of r.base = o := by
    cases s <;> simp [Side.of, Addr.add, UInt32.add_comm]
  rw [CapReq.region, if_pos hbase, hside]

theorem region_base (s : Side) (len : Nat) : r.region s r.base len = ⟨some 0, len⟩ := by
  rw [CapReq.region, if_pos r.base_frame, UInt32.sub_self]
  rfl

theorem region_other (s : Side) {a : Addr} (h : a.origin ≠ .frame) (len : Nat) :
    r.region s a len = ⟨none, len⟩ := by
  rw [CapReq.region, if_neg h]

end Regions

/-! ## The end of what is placed -/

/-- `mem_end` is at `m`, and `mem_res` is what is left behind it. -/
structure CapReq.At (r : CapReq) (a : Arrange) (m : Nat) : Prop where
  memEnd : a.memEnd.toNat = m
  memRes : m + a.memRes.toNat = r.bufSize.toNat

section Cursor

variable {r : CapReq} {a : Arrange} {m : Nat}

theorem CapReq.At.le (h : r.At a m) : m ≤ r.bufSize.toNat := by
  have hres := h.memRes
  omega

/-- Placing `size` bytes. -/
theorem CapReq.At.place (h : r.At a m) {b : Arrange} {size : UInt32} (hle : size ≤ a.memRes)
    (hend : b.memEnd = a.memEnd + size) (hres : b.memRes = a.memRes - size) :
    r.At b (m + size.toNat) := by
  have hm := h.memEnd
  have hsum := h.memRes
  have hbuf := r.bufSize.toNat_lt
  have hnat := UInt32.le_iff_toNat_le.mp hle
  constructor
  · rw [hend, toNat_add_of_lt (by omega), hm]
  · rw [hres, UInt32.toNat_sub_of_le _ _ hle]
    omega

theorem CapReq.At.fits (h : r.At a m) (size : UInt32) :
    size ≤ a.memRes ↔ m + size.toNat ≤ r.bufSize.toNat := by
  have hsum := h.memRes
  rw [UInt32.le_iff_toNat_le]
  omega

theorem CapReq.At.lt_res (h : r.At a m) (size : UInt32) :
    size < a.memRes ↔ size.toNat < r.bufSize.toNat - m := by
  have hsum := h.memRes
  rw [UInt32.lt_iff_toNat_lt]
  omega

theorem CapReq.At.start (r : CapReq) : r.At r.start 0 :=
  ⟨rfl, Nat.zero_add _⟩

theorem alloc_spec {size : UInt32} {y : Addr} {b : Arrange} (h : r.alloc a size = some (y, b)) :
    y.origin ≠ .frame ∧ b = { a with allocs := a.allocs + 1 } := by
  obtain ⟨addr, -, heq⟩ := Option.map_eq_some_iff.mp h
  obtain ⟨rfl, rfl⟩ := Prod.mk.inj heq
  exact ⟨nofun, rfl⟩

end Cursor

/-! ## The buffers behind the main ones -/

section Behind

variable {r : CapReq}

/-- The loops of `arrange_misc_buf` fill the frame memory. -/
theorem miscBufs_fill (s : Side) (sizes : List UInt32) :
    ∀ {inFrame : Bool} {a b : Arrange} {m : Nat} {frms : List ImgFrm}, r.At a m →
      r.miscBufs inFrame sizes a = some (frms, b) →
      (frms.map fun f => r.region s f.y f.bufSize.toNat) =
          (if inFrame then fill r.bufSize.toNat m (sizes.map UInt32.toNat)
            else sizes.map fun size => ⟨none, size.toNat⟩) ∧
        r.At b (if inFrame then fillEnd r.bufSize.toNat m (sizes.map UInt32.toNat) else m) ∧
        b.mem = a.mem ∧ b.channelSize = a.channelSize := by
  induction sizes with
  | nil =>
    intro inFrame a b m frms hat h
    cases inFrame <;> obtain ⟨rfl, rfl⟩ := Prod.mk.inj (Option.some.inj h) <;>
      exact ⟨rfl, hat, rfl, rfl⟩
  | cons size sizes ih =>
    intro inFrame a b m frms hat h
    by_cases hfits : inFrame ∧ a.memRes ≥ size
    · rw [CapReq.miscBufs, if_pos hfits] at h
      obtain ⟨⟨rest, c⟩, hrest, heq⟩ := Option.bind_eq_some_iff.mp h
      obtain ⟨rfl, rfl⟩ := Prod.mk.inj (Option.some.inj heq)
      obtain ⟨hregions, hend, hmem, hchannel⟩ := ih (hat.place hfits.2 rfl rfl) hrest
      have hle : m + size.toNat ≤ r.bufSize.toNat := (hat.fits size).mp hfits.2
      simp only [if_true] at hregions hend
      rw [hfits.1]
      refine ⟨?_, ?_, hmem, hchannel⟩
      · rw [List.map_cons, hregions, if_pos rfl, List.map_cons, fill, if_pos hle]
        refine congrArg (· :: _) ?_
        rw [show (miscFrm size (r.base.add a.memEnd)).y = r.base.add a.memEnd from rfl, region_add,
          hat.memEnd]
        rfl
      · rw [if_pos rfl, List.map_cons, fillEnd, if_pos hle]
        exact hend
    · rw [CapReq.miscBufs, if_neg hfits] at h
      obtain ⟨⟨y, c⟩, halloc, h⟩ := Option.bind_eq_some_iff.mp h
      obtain ⟨⟨rest, d⟩, hrest, heq⟩ := Option.bind_eq_some_iff.mp h
      obtain ⟨rfl, rfl⟩ := Prod.mk.inj (Option.some.inj heq)
      obtain ⟨hy, rfl⟩ := alloc_spec halloc
      have hat' : r.At { a with allocs := a.allocs + 1 } m := ⟨hat.memEnd, hat.memRes⟩
      obtain ⟨hregions, hend, hmem, hchannel⟩ := ih hat' hrest
      simp only [Bool.false_eq_true, if_false] at hregions hend
      have hfirst : r.region s (miscFrm size y).y (miscFrm size y).bufSize.toNat =
          ⟨none, size.toNat⟩ := region_other s hy _
      cases hin : inFrame with
      | false => exact ⟨by rw [List.map_cons, hfirst, hregions]; rfl, hend, hmem, hchannel⟩
      | true =>
        have hle : ¬ m + size.toNat ≤ r.bufSize.toNat := fun hle =>
          hfits ⟨hin, (hat.fits size).mpr hle⟩
        refine ⟨?_, ?_, hmem, hchannel⟩
        · rw [List.map_cons, hfirst, hregions, if_pos rfl, List.map_cons, fill, if_neg hle]
          simp
        · rw [if_pos rfl, List.map_cons, fillEnd, if_neg hle]
          exact hend

/-- What `arrange_misc_buf` places, and what it leaves alone. -/
theorem arrangeMiscBuf_spec {a b : Arrange} {m : Nat} (hat : r.At a m)
    (h : r.arrangeMiscBuf a = some b) :
    (∀ s, [r.region s b.mem.thumYuv.y b.mem.thumYuv.bufSize.toNat,
        r.region s b.mem.thumJpeg.y b.mem.thumJpeg.bufSize.toNat] =
          fill r.bufSize.toNat m r.thumSizes) ∧
      r.At b (fillEnd r.bufSize.toNat m r.thumSizes) ∧ b.channelSize = a.channelSize ∧
      b.mem.targetYuv = a.mem.targetYuv ∧ b.mem.capYuv = a.mem.capYuv ∧
      b.mem.targetJpeg = a.mem.targetJpeg := by
  obtain ⟨⟨frms, c⟩, hmisc, h⟩ := Option.bind_eq_some_iff.mp h
  match frms, hmisc, h with
  | [thumYuv, thumJpeg], hmisc, h =>
    obtain rfl := Option.some.inj h
    have hspec := fun s => miscBufs_fill s _ hat hmisc
    obtain ⟨-, hend, hmem, hchannel⟩ := hspec .phy
    refine ⟨fun s => (hspec s).1, ⟨hend.memEnd, hend.memRes⟩, hchannel, ?_, ?_, ?_⟩ <;> rw [← hmem]

/-- What `arrange_rot_buf` places: the rotation buffer, and `target_jpeg` over it. -/
theorem arrangeRotBuf_spec {a b : Arrange} {e : Nat} (hat : r.At a e)
    (hsize : (if r.origFmt = .jpeg then a.channelSize <<< 1 else (a.channelSize * 3) >>> 1) =
      r.rotSize)
    (h : r.arrangeRotBuf a = some b) {start : Option Nat}
    (hstart : start = if r.rotSize.toNat < r.bufSize.toNat - e then some e else none) :
    (∀ s, r.region s b.mem.capYuvRot.y b.mem.capYuvRot.bufSize.toNat =
        ⟨start, r.rotSize.toNat⟩) ∧
      (∀ s len, r.region s (b.mem.targetJpeg.y.add jpegExifSize) len =
        ⟨start.map fun e => (e + 65536) % 2 ^ 32, len⟩) ∧
      b.mem.targetJpeg.bufSize = a.mem.targetJpeg.bufSize ∧
      b.mem.targetYuv = a.mem.targetYuv ∧ b.mem.capYuv = a.mem.capYuv ∧
      b.mem.thumYuv = a.mem.thumYuv ∧ b.mem.thumJpeg = a.mem.thumJpeg := by
  subst hstart
  rw [CapReq.arrangeRotBuf] at h
  simp only [hsize] at h
  by_cases hfits : a.memRes > r.rotSize
  · rw [if_pos hfits] at h
    obtain rfl := Option.some.inj h
    have hlt := (hat.lt_res _).mp hfits
    refine ⟨fun s => ?_, fun s len => ?_, rfl, rfl, rfl, rfl, rfl⟩
    · rw [region_add, hat.memEnd, if_pos hlt]
    · rw [if_pos hlt, Addr.add_add, region_add, UInt32.toNat_add, hat.memEnd, toNat_jpegExifSize,
        Option.map_some]
  · rw [if_neg hfits] at h
    obtain ⟨⟨y, c⟩, hfirst, h⟩ := Option.bind_eq_some_iff.mp h
    obtain ⟨⟨u, d⟩, hsecond, h⟩ := Option.bind_eq_some_iff.mp h
    obtain ⟨hy, rfl⟩ := alloc_spec hfirst
    obtain ⟨-, rfl⟩ := alloc_spec hsecond
    obtain rfl := Option.some.inj h
    have hlt : ¬ r.rotSize.toNat < r.bufSize.toNat - e := fun hlt => hfits ((hat.lt_res _).mpr hlt)
    refine ⟨fun s => ?_, fun s len => ?_, rfl, rfl, rfl, rfl, rfl⟩
    · rw [region_other s hy, if_neg hlt]
    · rw [if_neg hlt, Option.map_none]
      exact region_other s (by rw [Addr.origin_add]; exact hy) len

end Behind

/-! ## After the main buffers -/

/-- The main buffers are placed. -/
structure CapReq.MainAt (r : CapReq) (a : Arrange) : Prop where
  cursor : r.At a r.mainEnd
  channel : (if r.origFmt = .jpeg then a.channelSize <<< 1 else (a.channelSize * 3) >>> 1) =
    r.rotSize
  jpegSize : a.mem.targetJpeg.bufSize = getJpegSize r.image
  jpeg : r.needRot = false → ∃ o : UInt32, a.mem.targetJpeg.y = r.base.add o ∧
    o.toNat = r.planesEnd ∧ r.planesEnd + r.jpegSize ≤ r.mainEnd
  targetY : a.mem.targetYuv.y = r.base
  target : a.mem.targetYuv.size = r.image

section Main

variable {r : CapReq}

theorem le_getJpegSize {z : ImgSize} (h : z.area.toNat < 2 ^ 31) : 65536 ≤ (getJpegSize z).toNat := by
  have hsmall : jpegSmallSize.toNat = 307200 := rfl
  unfold getJpegSize
  split
  · next hle =>
    rw [UInt32.le_iff_toNat_le] at hle
    have hsum := toNat_add_of_lt (x := z.area) (y := jpegExifSize)
      (by rw [toNat_jpegExifSize]; omega)
    rw [toNat_jpegExifSize] at hsum
    rw [toNat_addrByWord (by omega), hsum]
    omega
  · next hlarge =>
    rw [UInt32.le_iff_toNat_le] at hlarge
    rw [toNat_addrByWord (by omega)]
    omega

/-- The layout in terms of the main buffers. -/
theorem layout_eq {a : Arrange} (hmain : r.MainAt a) (himage : r.image.area.toNat < 2 ^ 31)
    (hfmt : r.arrangeFmtBuf r.start = some a) {mem : CapMem}
    (h : r.cameraArrangeCaptureBuf = some mem) (s : Side) :
    r.layout s mem =
      { y := [⟨some 0, r.image.pixels⟩, r.region s a.mem.capYuv.y r.capSource.pixels]
        uv := [r.region s a.mem.targetYuv.u (r.image.pixels / 2),
          r.region s a.mem.capYuv.u (r.capSource.pixels / 2)]
        jpeg := if r.needRot then r.rotJpeg else ⟨some (r.planesEnd + 65536), r.jpegSize - 65536⟩
        bufs := r.behind } := by
  unfold CapReq.cameraArrangeCaptureBuf at h
  simp only [hfmt, Option.bind_eq_bind, Option.bind_some] at h
  obtain ⟨b, hmisc, h⟩ := Option.bind_eq_some_iff.mp h
  obtain ⟨hthum, hend, hchannel, htarget, hcap, hjpeg⟩ := arrangeMiscBuf_spec hmain.cursor hmisc
  have hjpegLe : jpegExifSize ≤ getJpegSize r.image :=
    UInt32.le_iff_toNat_le.mpr (le_getJpegSize himage)
  have hbufSize : (getJpegSize r.image - jpegExifSize).toNat = r.jpegSize - 65536 := by
    rw [UInt32.toNat_sub_of_le _ _ hjpegLe, toNat_jpegExifSize]
    rfl
  cases hrot : r.needRot with
  | false =>
    rw [hrot] at h
    obtain rfl := Option.some.inj h
    obtain ⟨o, hy, ho, hle⟩ := hmain.jpeg hrot
    have hjpegSize : 65536 ≤ r.jpegSize := le_getJpegSize himage
    have hbuf := r.bufSize.toNat_lt
    have hmainLe := hmain.cursor.le
    have hstart : (o + jpegExifSize).toNat = r.planesEnd + 65536 := by
      rw [toNat_add_of_lt (by rw [toNat_jpegExifSize]; omega), toNat_jpegExifSize, ho]
    have hthums := hthum s
    simp only [CapReq.layout, CapReq.resizeJpeg, CapReq.behind, htarget, hcap, hjpeg,
      hmain.targetY, hmain.target, hmain.jpegSize, hbufSize, hy, Addr.add_add, region_add, hstart,
      region_base, hrot, ← hthums]
    rfl
  | true =>
    rw [if_pos hrot] at h
    obtain ⟨c, hrotBuf, h⟩ := Option.bind_eq_some_iff.mp h
    obtain rfl := Option.some.inj h
    have hstart : r.rotStart = if r.rotSize.toNat < r.bufSize.toNat -
        fillEnd r.bufSize.toNat r.mainEnd r.thumSizes
          then some (fillEnd r.bufSize.toNat r.mainEnd r.thumSizes) else none := by
      simp only [CapReq.rotStart, hrot, true_and]
    obtain ⟨hrotRegion, hjpegRegion, hsize, htarget', hcap', hthumYuv, hthumJpeg⟩ :=
      arrangeRotBuf_spec hend (hchannel ▸ hmain.channel) hrotBuf hstart
    have hthums := hthum s
    simp only [CapReq.layout, CapReq.resizeJpeg, CapReq.behind, htarget', hcap', htarget, hcap,
      hjpeg, hsize, hthumYuv, hthumJpeg, hmain.targetY, hmain.target, hmain.jpegSize, hbufSize,
      hjpegRegion, hrotRegion, region_base, hrot, ← hthums]
    rfl

/-- The buffers behind the main ones are always in order. -/
theorem behind_ok (hle : r.mainEnd ≤ r.bufSize.toNat) :
    (∀ q ∈ r.behind, q.Inside r.bufSize.toNat ∧ q.Behind r.mainEnd) ∧
      r.behind.Pairwise Region.Apart := by
  have hfillEnd := fillEnd_le r.thumSizes r.mainEnd hle
  have hfill := fill_behind r.bufSize.toNat r.thumSizes r.mainEnd
  have hfront := fill_inside_end r.bufSize.toNat r.thumSizes r.mainEnd
  have hpairwise := fill_pairwise r.bufSize.toNat r.thumSizes r.mainEnd
  have hrot : ∀ e ∈ r.rotStart, e = fillEnd r.bufSize.toNat r.mainEnd r.thumSizes ∧
      e + r.rotSize.toNat ≤ r.bufSize.toNat := by
    intro e he
    simp only [CapReq.rotStart] at he
    split at he
    · next hfits =>
      obtain rfl := Option.some.inj he
      exact ⟨rfl, by have hlt := hfits.2; omega⟩
    · exact absurd he nofun
  have hmem : ∀ q ∈ r.behind, q ∈ fill r.bufSize.toNat r.mainEnd r.thumSizes ∨
      q = ⟨r.rotStart, r.rotSize.toNat⟩ := by
    intro q hq
    rcases List.mem_append.mp hq with hq | hq
    · exact .inl hq
    · split at hq
      · exact .inr (List.mem_singleton.mp hq)
      · exact absurd hq (List.not_mem_nil)
  constructor
  · intro q hq
    rcases hmem q hq with hq | rfl
    · exact ⟨(hfront q hq).mono hfillEnd, hfill q hq⟩
    · exact ⟨fun e he => (hrot e he).2, fun e he =>
        (hrot e he).1 ▸ le_fillEnd r.bufSize.toNat r.thumSizes r.mainEnd⟩
  · refine List.pairwise_append.mpr ⟨hpairwise, ?_, fun p hp q hq => ?_⟩
    · split
      · exact List.pairwise_singleton _ _
      · exact List.Pairwise.nil
    · refine Region.apart_of_behind (hfront p hp) fun e he => ?_
      split at hq
      · obtain rfl := List.mem_singleton.mp hq
        exact (hrot e he).1.ge
      · exact absurd hq (List.not_mem_nil)

theorem clear_of_front (hle : r.mainEnd ≤ r.bufSize.toNat) {p : Region}
    (hp : p.Inside r.mainEnd) : r.Clear p :=
  ⟨hp.mono hle, fun q hq => Region.apart_of_behind hp ((behind_ok hle).1 q hq).2⟩

/-- `target_jpeg` behind the planes. -/
def CapReq.planesJpeg (r : CapReq) : Region := ⟨some (r.planesEnd + 65536), r.jpegSize - 65536⟩

/-- The layout is in order if the planes are. -/
theorem layout_ok_iff {a : Arrange} (hmain : r.MainAt a) (himage : r.image.area.toNat < 2 ^ 31)
    (hfmt : r.arrangeFmtBuf r.start = some a) {mem : CapMem}
    (h : r.cameraArrangeCaptureBuf = some mem) {capY targetU capU : Region}
    (hcapY : ∀ s, r.region s a.mem.capYuv.y r.capSource.pixels = capY)
    (htargetU : ∀ s, r.region s a.mem.targetYuv.u (r.image.pixels / 2) = targetU)
    (hcapU : ∀ s, r.region s a.mem.capYuv.u (r.capSource.pixels / 2) = capU)
    (hjpegU : r.needRot = false → targetU.Apart r.planesJpeg ∧ capU.Apart r.planesJpeg) :
    r.LayoutOk mem ↔ (r.image.pixels ≤ r.bufSize.toNat ∧ capY.Inside r.bufSize.toNat) ∧
      (r.Clear targetU ∧ r.Clear capU) ∧ r.rotJpeg.Inside r.bufSize.toNat := by
  have hle := hmain.cursor.le
  obtain ⟨hbehind, hpairwise⟩ := behind_ok hle
  have heq := layout_eq hmain himage hfmt h
  simp only [hcapY, htargetU, hcapU] at heq
  have hjpegSize : 65536 ≤ r.jpegSize := le_getJpegSize himage
  constructor
  · intro hok
    obtain ⟨hy, huv, hjpeg, -, -, hclear⟩ := heq .phy ▸ hok .phy
    simp only [List.forall_mem_cons] at hy huv hclear
    have hsub : ∀ l : Layout, ∀ q ∈ l.bufs, q ∈ l.apart r.needRot := by
      intro l q hq
      unfold Layout.apart
      split
      · exact hq
      · exact List.mem_cons_of_mem _ hq
    refine ⟨⟨by simpa [Region.Inside] using hy.1, hy.2.1⟩, ⟨⟨huv.1, fun q hq => ?_⟩, huv.2.1,
      fun q hq => ?_⟩, ?_⟩
    · exact hclear.1 q (hsub _ q hq)
    · exact hclear.2.1 q (hsub _ q hq)
    · cases hrot : r.needRot with
      | true => rwa [hrot] at hjpeg
      | false => simp [CapReq.rotJpeg, CapReq.rotStart, hrot, Region.Inside]
  · rintro ⟨⟨htargetY, hcapYIn⟩, ⟨htarget, hcap⟩, hrotJpeg⟩ s
    rw [heq s]
    cases hrot : r.needRot with
    | true =>
      refine ⟨?_, ?_, hrotJpeg, fun q hq => (hbehind q hq).1, hpairwise, ?_⟩
      · simpa [Region.Inside] using ⟨htargetY, hcapYIn⟩
      · simpa using ⟨htarget.1, hcap.1⟩
      · simpa [Layout.apart] using ⟨htarget.2, hcap.2⟩
    | false =>
      obtain ⟨o, -, -, hend⟩ := hmain.jpeg hrot
      have hjpegIn : r.planesJpeg.Inside r.mainEnd := Region.inside_some.mpr (by omega)
      obtain ⟨htargetJ, hcapJ⟩ := hjpegU hrot
      refine ⟨?_, ?_, hjpegIn.mono hle, fun q hq => (hbehind q hq).1, ?_, ?_⟩
      · simpa [Region.Inside] using ⟨htargetY, hcapYIn⟩
      · simpa using ⟨htarget.1, hcap.1⟩
      · exact List.pairwise_cons.mpr ⟨fun q hq => (clear_of_front hle hjpegIn).2 q hq, hpairwise⟩
      · simpa [Layout.apart] using ⟨⟨htargetJ, htarget.2⟩, hcapJ, hcap.2⟩

end Main

/-! ## The main buffers -/

/-- A plane lies at an offset in front of `e`. -/
def CapReq.Front (r : CapReq) (e : Nat) (a : Addr) (len : Nat) : Prop :=
  ∃ o : UInt32, a = r.base.add o ∧ o.toNat + len ≤ e

section Planes

variable {r : CapReq}

theorem Addr.add_zero (a : Addr) : a.add 0 = a := by
  simp only [Addr.add, UInt32.add_zero]

theorem area_toNat {z : ImgSize} (h : z.pixels * 3 < 2 ^ 32) : z.area.toNat = z.pixels :=
  toNat_mul_of_lt (by unfold ImgSize.pixels at h; omega)

theorem mul_three_half {x : UInt32} (h : x.toNat * 3 < 2 ^ 32) :
    ((x * 3) >>> 1).toNat = x.toNat * 3 / 2 := by
  rw [toNat_half, toNat_mul_of_lt h]
  rfl

theorem placeJpeg_spec {a b : Arrange} {m : Nat} (hat : r.At a m)
    (hsize : a.mem.targetJpeg.bufSize = getJpegSize r.image) (h : r.placeJpeg a = some b) :
    r.At b (if r.needRot then m else m + r.jpegSize) ∧
      (r.needRot = false → b.mem.targetJpeg.y = r.base.add a.memEnd) ∧
      b.mem.targetJpeg.bufSize = getJpegSize r.image := by
  unfold CapReq.placeJpeg at h
  cases hrot : r.needRot with
  | true =>
    rw [if_pos hrot] at h
    obtain rfl := Option.some.inj h
    exact ⟨hat, nofun, hsize⟩
  | false =>
    rw [hrot] at h
    simp only [Bool.false_eq_true, if_false] at h
    split at h
    · exact absurd h nofun
    · next hfits =>
      obtain rfl := Option.some.inj h
      have hplace := hat.place (b := { a with
        mem.targetJpeg.y := r.base.add a.memEnd
        memEnd := a.memEnd + a.mem.targetJpeg.bufSize
        memRes := a.memRes - a.mem.targetJpeg.bufSize }) (UInt32.not_lt.mp hfits) rfl rfl
      rw [congrArg UInt32.toNat hsize] at hplace
      exact ⟨hplace, fun _ => rfl, hsize⟩

/-- The first buffers are placed, and `target_jpeg` behind them. -/
theorem place_start {offset : UInt32} {a b : Arrange} (hoffset : offset.toNat = r.planesEnd)
    (hle : ¬ offset > r.bufSize) (hend : a.memEnd = offset) (hres : a.memRes = r.bufSize - offset)
    (hsize : a.mem.targetJpeg.bufSize = getJpegSize r.image) (h : r.placeJpeg a = some b) :
    r.At b r.jpegEnd ∧ b.mem.targetJpeg.bufSize = getJpegSize r.image ∧
      (r.needRot = false → ∃ o : UInt32, b.mem.targetJpeg.y = r.base.add o ∧
        o.toNat = r.planesEnd ∧ r.planesEnd + r.jpegSize ≤ r.jpegEnd) := by
  have hat : r.At a r.planesEnd := by
    have hplace := (CapReq.At.start r).place (b := a) (UInt32.not_lt.mp hle)
      (by rw [hend, CapReq.start, UInt32.zero_add]) hres
    rwa [Nat.zero_add, hoffset] at hplace
  obtain ⟨hjpegEnd, hy, hbufSize⟩ := placeJpeg_spec hat hsize h
  refine ⟨hjpegEnd, hbufSize, fun hrot => ⟨offset, hend ▸ hy hrot, hoffset, ?_⟩⟩
  rw [CapReq.jpegEnd, hrot]
  exact Nat.le_refl _

theorem arrangeYuvBuf_spec (hfit : r.ProductsFit) (hraw : r.origFmt ≠ .raw)
    (hjpeg : r.origFmt ≠ .jpeg) {a : Arrange} (h : r.arrangeYuvBuf r.start = some a) :
    r.MainAt a ∧ r.Front r.planesEnd a.mem.capYuv.y r.capSource.pixels ∧
      r.Front r.planesEnd a.mem.targetYuv.u (r.image.pixels / 2) ∧
      r.Front r.planesEnd a.mem.capYuv.u (r.capSource.pixels / 2) ∧
      r.image.pixels ≤ r.planesEnd := by
  have himage := area_toNat hfit.image
  have hcap := area_toNat hfit.cap
  have himageLt := hfit.image
  have hcapLt := hfit.cap
  have hplanes : r.planesEnd = max r.image.pixels r.capSize.pixels * 3 / 2 := by
    unfold CapReq.planesEnd
    split <;> first | rfl | contradiction
  have hsource : r.capSource = r.capSize := by
    unfold CapReq.capSource
    split <;> first | rfl | contradiction
  have hrotSize : r.rotSize =
      ((if r.image.area > r.capSize.area then r.image.area else r.capSize.area) * 3) >>> 1 := by
    unfold CapReq.rotSize
    split <;> first | rfl | contradiction
  have hmainEnd : r.mainEnd = r.jpegEnd := if_neg fun h => hraw h.1
  have hup : r.image.area > r.capSize.area ↔ r.capSize.pixels < r.image.pixels := by
    rw [gt_iff_lt, UInt32.lt_iff_toNat_lt, himage, hcap]
  unfold CapReq.arrangeYuvBuf at h
  simp only [show aligned16 r.imageSize = r.image from rfl] at h
  rw [hsource]
  by_cases hlt : r.image.area > r.capSize.area
  -- scaling up: the capture ends where the target ends
  · simp only [if_pos hlt] at h hrotSize
    have hpixels := hup.mp hlt
    have hoffset : ((r.image.area * 3) >>> 1).toNat = r.planesEnd := by
      rw [mul_three_half (by rwa [himage]), himage, hplanes, max_eq_left (Nat.le_of_lt hpixels)]
    have hend : r.planesEnd = r.image.pixels * 3 / 2 := by
      rw [hplanes, max_eq_left (Nat.le_of_lt hpixels)]
    have hdiff : (r.image.area - r.capSize.area).toNat = r.image.pixels - r.capSize.pixels := by
      rw [UInt32.toNat_sub_of_le _ _ (UInt32.le_of_lt hlt), himage, hcap]
    split at h
    · exact absurd h nofun
    · next hle =>
      obtain ⟨b, hplace, h⟩ := Option.bind_eq_some_iff.mp h
      obtain rfl := Option.some.inj h
      obtain ⟨hat, hsize, hy⟩ := place_start hoffset hle rfl rfl rfl hplace
      refine ⟨⟨⟨hmainEnd ▸ hat.memEnd, hmainEnd ▸ hat.memRes⟩, ?_, hsize, hmainEnd ▸ hy, rfl, rfl⟩,
        ⟨_, Addr.add_sub _ _ _, ?_⟩, ⟨_, rfl, ?_⟩, ⟨_, Addr.add_add _ _ _, ?_⟩, by omega⟩
      · rw [if_neg hjpeg, hrotSize]
      · omega
      · omega
      · rw [toNat_add_of_lt (by rw [toNat_half]; omega), toNat_half, hdiff, himage]
        omega
  -- the target takes the place of the capture
  · simp only [if_neg hlt] at h hrotSize
    have hpixels := Nat.not_lt.mp fun hpixels => hlt (hup.mpr hpixels)
    have hend : r.planesEnd = r.capSize.pixels * 3 / 2 := by
      rw [hplanes, max_eq_right hpixels]
    have hoffset : ((r.capSize.area * 3) >>> 1).toNat = r.planesEnd := by
      rw [mul_three_half (by rwa [hcap]), hcap, hend]
    split at h
    · exact absurd h nofun
    · next hle =>
      obtain ⟨b, hplace, h⟩ := Option.bind_eq_some_iff.mp h
      obtain rfl := Option.some.inj h
      obtain ⟨hat, hsize, hy⟩ := place_start hoffset hle rfl rfl rfl hplace
      refine ⟨⟨⟨hmainEnd ▸ hat.memEnd, hmainEnd ▸ hat.memRes⟩, ?_, hsize, hmainEnd ▸ hy, rfl, rfl⟩,
        ⟨0, (Addr.add_zero _).symm, ?_⟩, ⟨_, rfl, ?_⟩, ⟨_, rfl, ?_⟩, by omega⟩
      · rw [if_neg hjpeg, hrotSize]
      · rw [hend, UInt32.toNat_zero]
        omega
      · omega
      · omega

/-- `y_end` and `gap_size` do not overflow. -/
theorem jpeg_yEnd (hfit : r.ProductsFit) (hjpeg : r.origFmt = .jpeg) :
    ((r.snSize.height - r.snTrim.startY - r.snTrim.height) * r.snSize.width +
      max r.image.area r.snSize.area).toNat = r.yEnd := by
  have htrim := hfit.trim
  have hyEnd := hfit.yEnd hjpeg
  have himage := area_toNat hfit.image
  have hsensor := area_toNat hfit.sensor
  have hstart : (r.snSize.height - r.snTrim.startY).toNat =
      r.snSize.height.toNat - r.snTrim.startY.toNat :=
    UInt32.toNat_sub_of_le _ _ (UInt32.le_iff_toNat_le.mpr (by omega))
  have hrows : (r.snSize.height - r.snTrim.startY - r.snTrim.height).toNat =
      r.snSize.height.toNat - r.snTrim.startY.toNat - r.snTrim.height.toNat := by
    rw [UInt32.toNat_sub_of_le _ _ (UInt32.le_iff_toNat_le.mpr (by omega)), hstart]
  have hmax : (max r.image.area r.snSize.area).toNat = max r.image.pixels r.snSize.pixels := by
    change (if r.image.area ≤ r.snSize.area then r.snSize.area else r.image.area).toNat = _
    have hle : r.image.area ≤ r.snSize.area ↔ r.image.pixels ≤ r.snSize.pixels := by
      rw [UInt32.le_iff_toNat_le, himage, hsensor]
    split
    · next himg => rw [hsensor, max_eq_right (hle.mp himg)]
    · next himg => rw [himage, max_eq_left (Nat.le_of_not_le fun h => himg (hle.mpr h))]
  unfold CapReq.yEnd at hyEnd
  have hskip : ((r.snSize.height - r.snTrim.startY - r.snTrim.height) * r.snSize.width).toNat =
      (r.snSize.height.toNat - r.snTrim.startY.toNat - r.snTrim.height.toNat) *
        r.snSize.width.toNat := by
    rw [toNat_mul_of_lt (by rw [hrows]; omega), hrows]
  rw [toNat_add_of_lt (by rw [hskip, hmax]; omega), hskip, hmax]
  rfl

theorem arrangeJpegBuf_spec (hfit : r.ProductsFit) (hjpeg : r.origFmt = .jpeg) {a : Arrange}
    (h : r.arrangeJpegBuf r.start = some a) :
    r.MainAt a ∧ r.Front r.planesEnd a.mem.capYuv.y r.snSize.pixels ∧
      r.Front r.planesEnd a.mem.targetYuv.u (r.image.pixels / 2) ∧
      (∃ o : UInt32, a.mem.capYuv.u = r.base.add o ∧
        o.toNat = 2 * r.yEnd + 2 * r.gapSize - r.snSize.pixels) ∧
      r.image.pixels ≤ r.planesEnd := by
  have hsensor := area_toNat hfit.sensor
  have hyEnd := jpeg_yEnd hfit hjpeg
  have hyEndLt := hfit.yEnd hjpeg
  have hgapLt := hfit.gap hjpeg
  have himageLe : r.image.pixels ≤ r.yEnd := Nat.le_trans (le_max_left _ _) (Nat.le_add_left _ _)
  have hsensorLe : r.snSize.pixels ≤ r.yEnd := Nat.le_trans (le_max_right _ _) (Nat.le_add_left _ _)
  have hmainEnd : r.mainEnd = r.jpegEnd := if_neg fun h => by simp [hjpeg] at h
  have hplanes : r.planesEnd =
      if r.needRot then r.yEnd * 3 / 2 + 2 * r.gapSize else 2 * r.yEnd + 2 * r.gapSize := by
    rw [CapReq.planesEnd, hjpeg]
  have hrotSize : r.rotSize = r.image.area <<< 1 := by rw [CapReq.rotSize, hjpeg]
  unfold CapReq.arrangeJpegBuf at h
  simp only [show aligned16 r.imageSize = r.image from rfl] at h
  generalize hy : (r.snSize.height - r.snTrim.startY - r.snTrim.height) * r.snSize.width +
    max r.image.area r.snSize.area = yEnd at h hyEnd
  have hdistance : (yEnd - r.snSize.area).toNat = r.yEnd - r.snSize.pixels := by
    rw [UInt32.toNat_sub_of_le _ _ (UInt32.le_iff_toNat_le.mpr (by omega)), hyEnd, hsensor]
  have hgap : (jpegGap r.image (yEnd - r.snSize.area)).toNat = r.gapSize := by
    rw [CapReq.gapSize, ← hdistance, UInt32.ofNat_toNat]
  generalize jpegGap r.image (yEnd - r.snSize.area) = gap at h hgap
  have htwo : (2 : UInt32).toNat = 2 := rfl
  have hgaps : (2 * gap).toNat = 2 * r.gapSize := by
    rw [toNat_mul_of_lt (by rw [htwo]; omega), htwo, hgap]
  have hoffset : (if r.needRot then ((yEnd * 3) >>> 1) + 2 * gap else (yEnd <<< 1) + 2 * gap).toNat =
      r.planesEnd := by
    rw [hplanes]
    split
    · rw [toNat_add_of_lt (by rw [hgaps, mul_three_half (by omega)]; omega), hgaps,
        mul_three_half (by omega), hyEnd]
    · rw [toNat_add_of_lt (by rw [hgaps, toNat_double (by omega)]; omega), hgaps,
        toNat_double (by omega), hyEnd]
      omega
  have hplanesLe : r.yEnd * 3 / 2 + 2 * r.gapSize ≤ r.planesEnd := by
    rw [hplanes]
    split <;> omega
  generalize (if r.needRot then ((yEnd * 3) >>> 1) + 2 * gap else (yEnd <<< 1) + 2 * gap) = offset
    at h hoffset
  split at h
  · exact absurd h nofun
  · next hle =>
    obtain ⟨b, hplace, h⟩ := Option.bind_eq_some_iff.mp h
    obtain rfl := Option.some.inj h
    obtain ⟨hat, hsize, hjpegY⟩ := place_start hoffset hle rfl rfl rfl hplace
    have hcapY : (yEnd - r.snSize.area + gap).toNat = r.yEnd - r.snSize.pixels + r.gapSize := by
      rw [toNat_add_of_lt (by omega), hdistance, hgap]
    have htargetU : (yEnd + gap).toNat = r.yEnd + r.gapSize := by
      rw [toNat_add_of_lt (by omega), hyEnd, hgap]
    refine ⟨⟨⟨hmainEnd ▸ hat.memEnd, hmainEnd ▸ hat.memRes⟩, ?_, hsize, hmainEnd ▸ hjpegY, rfl, rfl⟩,
      ⟨_, by rw [Addr.add_sub, Addr.add_add], ?_⟩, ⟨_, Addr.add_add _ _ _, ?_⟩,
      ⟨yEnd + gap + (yEnd - r.snSize.area) + gap, ?_, ?_⟩, by omega⟩
    · rw [if_pos hjpeg, hrotSize]
    · omega
    · omega
    · simp only [Addr.add_add, Addr.add_sub, UInt32.sub_eq_add_neg, UInt32.add_assoc]
    · rw [UInt32.add_assoc, toNat_add_of_lt (by omega), htargetU, hcapY]
      omega

theorem arrangeRawBuf_spec (hfit : r.ProductsFit) (hraw : r.origFmt = .raw) {a : Arrange}
    (h : r.arrangeRawBuf r.start = some a) :
    r.MainAt a ∧
      (∀ s len, r.region s a.mem.capYuv.y len = ⟨some r.rawGap.1.toNat, len⟩) ∧
      (∀ s, r.region s a.mem.targetYuv.u (r.image.pixels / 2) = r.rawTargetUv) ∧
      ∃ capU : Region, (∀ s, r.region s a.mem.capYuv.u (r.snSize.pixels / 2) = capU) ∧
        capU.Inside r.mainEnd ∧ capU.Behind r.jpegEnd := by
  have hsensor := area_toNat hfit.sensor
  have hrotSize : r.rotSize = (r.snSize.area * 3) >>> 1 := by rw [CapReq.rotSize, hraw]
  have hjpeg : r.origFmt ≠ .jpeg := by simp [hraw]
  have hoffset : (r.snSize.area * rawrgbBitWidth / 8 + ispYuvToRawGap * r.snSize.width + r.rawGap.1 -
      r.rawGap.2).toNat = r.planesEnd := by
    rw [CapReq.planesEnd, hraw]
  have hgapLt := r.rawGap.1.toNat_lt
  have huvSize : ((r.snSize.area >>> 1) + (r.rawGap.1 >>> 1)).toNat = r.rawUvSize := by
    have hsensorLt := r.snSize.area.toNat_lt
    rw [toNat_add_of_lt (by rw [toNat_half, toNat_half]; omega), toNat_half, toNat_half, hsensor]
    rfl
  unfold CapReq.arrangeRawBuf at h
  simp only [show aligned16 r.imageSize = r.image from rfl] at h
  generalize (r.snSize.area >>> 1) + (r.rawGap.1 >>> 1) = uvSize at h huvSize
  split at h
  · exact absurd h nofun
  · next hle =>
    obtain ⟨b, hplace, h⟩ := Option.bind_eq_some_iff.mp h
    obtain ⟨hat, hsize, hy⟩ := place_start hoffset hle (UInt32.zero_add _) rfl rfl hplace
    have hmainLe : r.jpegEnd ≤ r.mainEnd := by
      unfold CapReq.mainEnd
      split
      · exact Nat.le_add_right _ _
      · exact Nat.le_refl _
    have hyMain : r.needRot = false → ∃ o : UInt32, b.mem.targetJpeg.y = r.base.add o ∧
        o.toNat = r.planesEnd ∧ r.planesEnd + r.jpegSize ≤ r.mainEnd := by
      intro hrot
      obtain ⟨o, hbase, ho, hend⟩ := hy hrot
      exact ⟨o, hbase, ho, Nat.le_trans hend hmainLe⟩
    have hres := hat.lt_res uvSize
    rw [huvSize] at hres
    split at h
    -- the UV planes follow in the frame memory
    · next hin =>
      obtain rfl := Option.some.inj h
      have huv := hres.mp hin
      have hmainEnd : r.mainEnd = r.jpegEnd + r.rawUvSize := if_pos ⟨hraw, huv⟩
      have hcursor := hat.place (b := { b with
        memEnd := b.memEnd + uvSize, memRes := b.memRes - uvSize }) (UInt32.le_of_lt hin) rfl rfl
      rw [huvSize, ← hmainEnd] at hcursor
      have hbuf := r.bufSize.toNat_lt
      have hend := hcursor.le
      have hcapU : (b.memEnd + (r.rawGap.1 >>> 1)).toNat = r.jpegEnd + r.rawGap.1.toNat / 2 := by
        have huvEq : r.rawUvSize = r.snSize.pixels / 2 + r.rawGap.1.toNat / 2 := rfl
        rw [toNat_add_of_lt (by rw [toNat_half, hat.memEnd]; omega), toNat_half, hat.memEnd]
      refine ⟨⟨⟨hcursor.memEnd, hcursor.memRes⟩, by rw [if_neg hjpeg, hrotSize], hsize, hyMain, rfl,
        rfl⟩, fun s len => region_add s _ len, fun s => ?_,
        ⟨some (r.jpegEnd + r.rawGap.1.toNat / 2), r.snSize.pixels / 2⟩, fun s => ?_, ?_, ?_⟩
      · rw [CapReq.rawTargetUv, if_pos huv, ← hat.memEnd]
        exact region_add s b.memEnd _
      · have hcap := region_add (r := r) s (b.memEnd + (r.rawGap.1 >>> 1)) (r.snSize.pixels / 2)
        rw [hcapU, ← Addr.add_add] at hcap
        exact hcap
      · rw [Region.inside_some, hmainEnd, CapReq.rawUvSize]
        omega
      · simp [Region.Behind]
    -- the UV planes are allocated
    · next hin =>
      have huv : ¬ r.rawUvSize < r.bufSize.toNat - r.jpegEnd := fun hlt => hin (hres.mpr hlt)
      have hmainEnd : r.mainEnd = r.jpegEnd := if_neg fun h => huv h.2
      obtain ⟨⟨u, c⟩, halloc, h⟩ := Option.bind_eq_some_iff.mp h
      obtain ⟨hu, rfl⟩ := alloc_spec halloc
      obtain rfl := Option.some.inj h
      refine ⟨⟨⟨hmainEnd ▸ hat.memEnd, hmainEnd ▸ hat.memRes⟩, by rw [if_neg hjpeg, hrotSize], hsize,
        hyMain, rfl, rfl⟩, fun s len => region_add s _ len, fun s => ?_,
        ⟨none, r.snSize.pixels / 2⟩, fun s => ?_, Region.inside_none, ?_⟩
      · rw [region_other s hu, CapReq.rawTargetUv, if_neg huv]
      · rw [region_other s (by rw [Addr.origin_add]; exact hu)]
      · simp [Region.Behind]

end Planes

/-! ## The layout -/

section Layout

variable {r : CapReq}

theorem CapReq.Front.region {e : Nat} {a : Addr} {len : Nat} (h : r.Front e a len) :
    ∃ p : Region, (∀ s, r.region s a len = p) ∧ p.Inside e := by
  obtain ⟨o, rfl, hle⟩ := h
  exact ⟨_, fun s => region_add s o len, Region.inside_some.mpr hle⟩

theorem planesEnd_le_mainEnd : r.planesEnd ≤ r.mainEnd := by
  unfold CapReq.mainEnd CapReq.jpegEnd
  split_ifs <;> omega

/-- What lies in front of the main buffers' end is clear of `target_jpeg`. -/
theorem apart_planesJpeg {p : Region} (h : p.Inside r.planesEnd) : p.Apart r.planesJpeg :=
  Region.apart_of_behind h fun n hn => by
    obtain rfl := Option.some.inj hn
    exact Nat.le_add_right _ _

theorem layout_yuv (hfit : r.ProductsFit) (himage : r.image.area.toNat < 2 ^ 31)
    (hraw : r.origFmt ≠ .raw) (hjpeg : r.origFmt ≠ .jpeg) {mem : CapMem}
    (h : r.cameraArrangeCaptureBuf = some mem) : r.LayoutOk mem ↔ r.Fits := by
  obtain ⟨a, hfmt, -⟩ := Option.bind_eq_some_iff.mp h
  have harrange : r.arrangeYuvBuf r.start = some a := by
    unfold CapReq.arrangeFmtBuf at hfmt
    split at hfmt <;> first | contradiction | exact hfmt
  obtain ⟨hmain, hcapY, htargetU, hcapU, hy⟩ := arrangeYuvBuf_spec hfit hraw hjpeg harrange
  obtain ⟨capY, hcapY, hcapYIn⟩ := hcapY.region
  obtain ⟨targetU, htargetU, htargetIn⟩ := htargetU.region
  obtain ⟨capU, hcapU, hcapIn⟩ := hcapU.region
  have hle := hmain.cursor.le
  have hfront : r.planesEnd ≤ r.mainEnd := planesEnd_le_mainEnd
  rw [layout_ok_iff hmain himage hfmt h hcapY htargetU hcapU fun _ =>
    ⟨apart_planesJpeg htargetIn, apart_planesJpeg hcapIn⟩]
  constructor
  · rintro ⟨-, -, hrot⟩
    exact ⟨fun hfmt => absurd hfmt hraw, fun hfmt => absurd hfmt hjpeg, hrot⟩
  · intro hfits
    exact ⟨⟨by omega, hcapYIn.mono (Nat.le_trans hfront hle)⟩,
      ⟨clear_of_front hle (htargetIn.mono hfront), clear_of_front hle (hcapIn.mono hfront)⟩, hfits.rot⟩

theorem layout_jpeg (hfit : r.ProductsFit) (himage : r.image.area.toNat < 2 ^ 31)
    (hjpeg : r.origFmt = .jpeg) {mem : CapMem} (h : r.cameraArrangeCaptureBuf = some mem) :
    r.LayoutOk mem ↔ r.Fits := by
  obtain ⟨a, hfmt, -⟩ := Option.bind_eq_some_iff.mp h
  have harrange : r.arrangeJpegBuf r.start = some a := by
    rwa [CapReq.arrangeFmtBuf, hjpeg] at hfmt
  have hsource : r.capSource = r.snSize := by rw [CapReq.capSource, hjpeg]
  obtain ⟨hmain, hcapY, htargetU, ⟨o, hu, ho⟩, hy⟩ := arrangeJpegBuf_spec hfit hjpeg harrange
  obtain ⟨capY, hcapY, hcapYIn⟩ := hcapY.region
  obtain ⟨targetU, htargetU, htargetIn⟩ := htargetU.region
  have hcapU : ∀ s, r.region s a.mem.capYuv.u (r.snSize.pixels / 2) = r.jpegCapUv := fun s => by
    rw [hu, region_add, ho]
    rfl
  have hle := hmain.cursor.le
  have hfront : r.planesEnd ≤ r.mainEnd := planesEnd_le_mainEnd
  have hsensorLe : r.snSize.pixels ≤ r.yEnd := Nat.le_trans (le_max_right _ _) (Nat.le_add_left _ _)
  -- without a rotation there is as much room for the UV planes as for the Y planes
  have hcapIn : r.needRot = false → r.jpegCapUv.Inside r.planesEnd := by
    intro hrot
    rw [CapReq.planesEnd, hjpeg]
    simp only [hrot, Bool.false_eq_true, if_false]
    exact Region.inside_some.mpr (by omega)
  rw [← hsource] at hcapY hcapU
  rw [layout_ok_iff hmain himage hfmt h hcapY htargetU hcapU fun hrot =>
    ⟨apart_planesJpeg htargetIn, apart_planesJpeg (hcapIn hrot)⟩]
  constructor
  · rintro ⟨-, ⟨-, hclear⟩, hrot⟩
    exact ⟨fun hfmt => by simp [hjpeg] at hfmt, fun _ _ => hclear, hrot⟩
  · intro hfits
    refine ⟨⟨by omega, hcapYIn.mono (Nat.le_trans hfront hle)⟩,
      ⟨clear_of_front hle (htargetIn.mono hfront), ?_⟩, hfits.rot⟩
    cases hrot : r.needRot with
    | true => exact hfits.jpeg hjpeg hrot
    | false => exact clear_of_front hle ((hcapIn hrot).mono hfront)

theorem layout_raw (hfit : r.ProductsFit) (himage : r.image.area.toNat < 2 ^ 31)
    (hraw : r.origFmt = .raw) {mem : CapMem} (h : r.cameraArrangeCaptureBuf = some mem) :
    r.LayoutOk mem ↔ r.Fits := by
  obtain ⟨a, hfmt, -⟩ := Option.bind_eq_some_iff.mp h
  have harrange : r.arrangeRawBuf r.start = some a := by
    rwa [CapReq.arrangeFmtBuf, hraw] at hfmt
  have hsource : r.capSource = r.snSize := by rw [CapReq.capSource, hraw]
  obtain ⟨hmain, hcapY, htargetU, capU, hcapU, hcapIn, hcapBehind⟩ :=
    arrangeRawBuf_spec hfit hraw harrange
  have hle := hmain.cursor.le
  have hjpegSize : 65536 ≤ r.jpegSize := le_getJpegSize himage
  have hjpegU : r.needRot = false →
      r.rawTargetUv.Apart r.planesJpeg ∧ capU.Apart r.planesJpeg := by
    intro hrot
    have hjpegEnd : r.jpegEnd = r.planesEnd + r.jpegSize := by simp [CapReq.jpegEnd, hrot]
    have hjpegIn : r.planesJpeg.Inside r.jpegEnd := Region.inside_some.mpr (by omega)
    have htargetBehind : r.rawTargetUv.Behind r.jpegEnd := by
      intro n hn
      unfold CapReq.rawTargetUv at hn
      split at hn
      · exact (Option.some.inj hn).le
      · exact absurd hn nofun
    exact ⟨(Region.apart_of_behind hjpegIn htargetBehind).symm,
      (Region.apart_of_behind hjpegIn hcapBehind).symm⟩
  rw [← hsource] at hcapU
  rw [layout_ok_iff hmain himage hfmt h (fun s => hcapY s _) htargetU hcapU hjpegU,
    Region.inside_some, hsource]
  constructor
  · rintro ⟨⟨hy, hcapYIn⟩, ⟨htarget, -⟩, hrot⟩
    exact ⟨fun _ => ⟨hy, hcapYIn, htarget⟩, fun hfmt => by simp [hraw] at hfmt, hrot⟩
  · intro hfits
    obtain ⟨hy, hcapYIn, htarget⟩ := hfits.raw hraw
    exact ⟨⟨hy, hcapYIn⟩, ⟨htarget, clear_of_front hle hcapIn⟩, hfits.rot⟩

end Layout

/-- **The layout of a capture**: what the arrangement places is inside the frame memory, and the UV
planes and the buffers are clear of each other, exactly if the planes and buffers that may be out of
place are not. -/
theorem capture_layout_iff (r : CapReq) (hfit : r.ProductsFit) (mem : CapMem)
    (h : r.cameraArrangeCaptureBuf = some mem) : r.LayoutOk mem ↔ r.Fits := by
  have himage : r.image.area.toNat < 2 ^ 31 := by
    have hpixels := hfit.image
    rw [area_toNat hpixels]
    omega
  by_cases hraw : r.origFmt = .raw
  · exact layout_raw hfit himage hraw h
  · by_cases hjpeg : r.origFmt = .jpeg
    · exact layout_jpeg hfit himage hjpeg h
    · exact layout_yuv hfit himage hraw hjpeg h

/-- A capture of 2 million pixels with a rotation. -/
def rotatedYuv : CapReq where
  base := ⟨0x80000000, 0xb0000000, .frame⟩
  bufSize := 0x800000
  snSize := ⟨1600, 1200⟩
  snTrim := ⟨0, 0, 1600, 1200⟩
  imageSize := ⟨1600, 1200⟩
  origFmt := .yuv420
  capSize := ⟨1600, 1200⟩
  thumSize := ⟨320, 240⟩
  needRot := true
  allocMem := fun _ _ => none
  base_frame := rfl

theorem capture_layout_rotated : ∃ mem, rotatedYuv.cameraArrangeCaptureBuf = some mem ∧
    (rotatedYuv.LayoutOk mem ↔ rotatedYuv.Fits) := by
  obtain ⟨mem, hmem⟩ : ∃ mem, rotatedYuv.cameraArrangeCaptureBuf = some mem :=
    Option.isSome_iff_exists.mp (by decide)
  exact ⟨mem, hmem, capture_layout_iff rotatedYuv
    ⟨by decide, by decide, by decide, by decide, nofun, nofun⟩ mem hmem⟩

/-- A capture of 3 million pixels from a sensor that delivers JPEG, of the upper 1200 lines and with a
rotation. -/
def trimmedJpeg : CapReq where
  base := ⟨0x80000000, 0xb0000000, .frame⟩
  bufSize := 0xd00000
  snSize := ⟨2048, 1536⟩
  snTrim := ⟨0, 0, 2048, 1200⟩
  imageSize := ⟨2048, 1536⟩
  origFmt := .jpeg
  capSize := ⟨2048, 1200⟩
  thumSize := ⟨320, 240⟩
  needRot := true
  allocMem := fun _ _ => none
  base_frame := rfl

/-- Its UV plane ends at 6094848, and the thumbnail is placed from 5750784 on. -/
theorem not_capture_layout_trimmed : trimmedJpeg.ProductsFit ∧
    ∃ mem, trimmedJpeg.cameraArrangeCaptureBuf = some mem ∧ ¬ trimmedJpeg.LayoutOk mem := by
  have hfit : trimmedJpeg.ProductsFit :=
    ⟨by decide, by decide, by decide, by decide, fun _ => by decide, fun _ => by decide⟩
  obtain ⟨mem, hmem⟩ : ∃ mem, trimmedJpeg.cameraArrangeCaptureBuf = some mem :=
    Option.isSome_iff_exists.mp (by decide)
  have hlayout : trimmedJpeg.cameraArrangeCaptureBuf.map (trimmedJpeg.layout .phy) = some
      { y := [⟨some 0, 3145728⟩, ⟨some 688128, 3145728⟩]
        uv := [⟨some 3833856, 1572864⟩, ⟨some 4521984, 1572864⟩]
        jpeg := ⟨some 6008320, 3080192⟩
        bufs := [⟨some 5750784, 115200⟩, ⟨some 5865984, 76800⟩, ⟨some 5942784, 6291456⟩] } := by
    decide
  rw [hmem] at hlayout
  refine ⟨hfit, mem, hmem, fun hok => ?_⟩
  have hclear := (Option.some.inj hlayout ▸ hok .phy).clear ⟨some 4521984, 1572864⟩ (by decide)
    ⟨some 5750784, 115200⟩ (by decide) 4521984 rfl 5750784 rfl
  simp at hclear

end SprdHal.Camera

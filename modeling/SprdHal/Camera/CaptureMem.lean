import SprdHal.Camera.CaptureBuf
import Mathlib.Data.List.Basic

/-!
# The tables and the arrangement

The frame memory for a capture is taken from a table by the number of pixels, and the arrangement
computes what it needs of it. For an image as large as the sensor the two always agree if the sensor
delivers YUV; raw data and JPEG may need more than the table gives
(`capture_mem_sufficient_iff`).
-/

namespace SprdHal.Camera

open SprdHal.Lib

/-- A capture of the whole sensor. -/
def CapReq.full (base : Addr) (hbase : base.origin = .frame) (bufSize : UInt32) (fmt : ImgDataType)
    (z thum : ImgSize) (allocMem : Nat → UInt32 → Option (UInt32 × UInt32)) : CapReq where
  base := base
  bufSize := bufSize
  snSize := z
  snTrim := ⟨0, 0, z.width, z.height⟩
  imageSize := z
  origFmt := fmt
  capSize := z
  thumSize := thum
  needRot := false
  allocMem := allocMem
  base_frame := hbase

/-- The part of the frame memory in front of `target_jpeg` for such a capture. -/
def captureNeeds (fmt : ImgDataType) (z : ImgSize) : UInt32 :=
  match fmt with
  | .raw => z.area * rawrgbBitWidth / 8 + ispYuvToRawGap * z.width
  | .jpeg => (z.area <<< 1) + 2 * jpegGap z 0
  | _ => (z.area * 3) >>> 1

/-- `alloc_mem` always succeeds. -/
def CapReq.AllocTotal (r : CapReq) : Prop := ∀ n size, (r.allocMem n size).isSome

/-! ## The arrangement succeeds if the main buffers fit -/

section Success

variable {r : CapReq}

theorem CapReq.AllocTotal.alloc (h : r.AllocTotal) (a : Arrange) (size : UInt32) :
    ∃ y b, r.alloc a size = some (y, b) := by
  obtain ⟨addr, haddr⟩ := Option.isSome_iff_exists.mp (h a.allocs size)
  exact ⟨_, _, by rw [CapReq.alloc, haddr]; rfl⟩

theorem CapReq.AllocTotal.miscBufs (h : r.AllocTotal) (sizes : List UInt32) :
    ∀ (inFrame : Bool) (a : Arrange), ∃ frms b, r.miscBufs inFrame sizes a = some (frms, b) ∧
      frms.length = sizes.length := by
  induction sizes with
  | nil =>
    intro inFrame a
    cases inFrame <;> exact ⟨[], a, rfl, rfl⟩
  | cons size sizes ih =>
    intro inFrame a
    by_cases hfits : inFrame ∧ a.memRes ≥ size
    · obtain ⟨frms, b, hrest, hlen⟩ :=
        ih true { a with memRes := a.memRes - size, memEnd := a.memEnd + size }
      refine ⟨miscFrm size (r.base.add a.memEnd) :: frms, b, ?_, congrArg (· + 1) hlen⟩
      rw [CapReq.miscBufs, if_pos hfits, hrest]
      rfl
    · obtain ⟨y, b, halloc⟩ := h.alloc a size
      obtain ⟨frms, c, hrest, hlen⟩ := ih false b
      refine ⟨miscFrm size y :: frms, c, ?_, congrArg (· + 1) hlen⟩
      rw [CapReq.miscBufs, if_neg hfits, halloc]
      simp only [Option.bind_eq_bind, Option.bind_some, hrest]

theorem CapReq.AllocTotal.arrangeMiscBuf (h : r.AllocTotal) (a : Arrange) :
    (r.arrangeMiscBuf a).isSome := by
  obtain ⟨frms, b, hmisc, hlen⟩ :=
    h.miscBufs [getThumYuvSize r.thumSize, getThumJpegSize r.thumSize] true a
  obtain ⟨thumYuv, thumJpeg, rfl⟩ := List.length_eq_two.mp hlen
  rw [CapReq.arrangeMiscBuf, hmisc]
  rfl

/-- `target_jpeg` is placed behind the main buffers. -/
theorem placeJpeg_isSome (hrot : r.needRot = false) (a : Arrange) :
    (r.placeJpeg a).isSome ↔ a.mem.targetJpeg.bufSize ≤ a.memRes := by
  rw [CapReq.placeJpeg, hrot]
  simp only [Bool.false_eq_true, if_false]
  split
  · next h => simp [UInt32.not_le.mpr h]
  · next h => simp [UInt32.not_lt.mp h]

/-- The main buffers and `target_jpeg` fit. -/
def MainFits (r : CapReq) (needs : UInt32) : Prop :=
  needs ≤ r.bufSize ∧ getJpegSize (aligned16 r.imageSize) ≤ r.bufSize - needs

theorem mainFits_iff {r : CapReq} {needs : UInt32} :
    MainFits r needs ↔
      needs.toNat + (getJpegSize (aligned16 r.imageSize)).toNat ≤ r.bufSize.toNat := by
  unfold MainFits
  constructor
  · rintro ⟨hneeds, hjpeg⟩
    rw [UInt32.le_iff_toNat_le] at hneeds
    rw [UInt32.le_iff_toNat_le, UInt32.toNat_sub_of_le _ _ (UInt32.le_iff_toNat_le.mpr hneeds)]
      at hjpeg
    omega
  · intro h
    have hneeds : needs ≤ r.bufSize := UInt32.le_iff_toNat_le.mpr (by omega)
    refine ⟨hneeds, ?_⟩
    rw [UInt32.le_iff_toNat_le, UInt32.toNat_sub_of_le _ _ hneeds]
    omega

/-- Placing `target_jpeg` behind the first `needs` bytes, and whatever succeeds after it. -/
theorem place_isSome (hrot : r.needRot = false) (needs : UInt32) {a : Arrange}
    (hres : a.memRes = r.bufSize - needs)
    (hjpeg : a.mem.targetJpeg.bufSize = getJpegSize (aligned16 r.imageSize))
    {k : Arrange → Option Arrange} (hk : ∀ b, (k b).isSome) :
    (if needs > r.bufSize then none else (r.placeJpeg a).bind k).isSome ↔ MainFits r needs := by
  have hplace := placeJpeg_isSome hrot a
  rw [hres, hjpeg] at hplace
  unfold MainFits
  split
  · next h => simp [UInt32.not_le.mpr h]
  · next h =>
    rw [and_iff_right (UInt32.not_lt.mp h), ← hplace]
    cases r.placeJpeg a with
    | none => rfl
    | some b => simp [hk b]

end Success

/-! ## A capture of the whole sensor -/

theorem cameraAligned16_of_mod {w : UInt32} (h : w % 16 = 0) : cameraAligned16 w = w := by
  have hw := w.toNat_lt
  have hmod : w.toNat % 16 = 0 := by
    have hnat := congrArg UInt32.toNat h
    rwa [UInt32.toNat_mod] at hnat
  have hone : (1 : UInt32).toNat = 1 := rfl
  have hfour : (4 : UInt32).toNat % 32 = 4 := rfl
  have hsixteen : (16 : UInt32).toNat = 16 := rfl
  have hup : (w + 16 - 1).toNat = w.toNat + 15 := by
    rw [UInt32.toNat_sub, UInt32.toNat_add, hone, hsixteen]
    omega
  apply UInt32.toNat_inj.mp
  rw [cameraAligned16, UInt32.toNat_shiftLeft, UInt32.toNat_shiftRight, hup, hfour,
    Nat.shiftRight_eq_div_pow, Nat.shiftLeft_eq]
  omega

theorem aligned16_of_mod {z : ImgSize} (hw : z.width % 16 = 0) (hh : z.height % 16 = 0) :
    aligned16 z = z := by
  rw [aligned16, cameraAligned16_of_mod hw, cameraAligned16_of_mod hh]

section Full

variable {base : Addr} {hbase : base.origin = .frame} {m : UInt32} {z thum : ImgSize}
  {allocMem : Nat → UInt32 → Option (UInt32 × UInt32)}

theorem arrangeRawBuf_full
    (htotal : (CapReq.full base hbase m .raw z thum allocMem).AllocTotal) :
    ((CapReq.full base hbase m .raw z thum allocMem).arrangeRawBuf
        (CapReq.full base hbase m .raw z thum allocMem).start).isSome ↔
      MainFits (.full base hbase m .raw z thum allocMem) (captureNeeds .raw z) := by
  have hgap : (CapReq.full base hbase m .raw z thum allocMem).rawGap = (0, 0) := by
    simp [CapReq.rawGap, CapReq.full]
  have hoffset : z.area * rawrgbBitWidth / 8 + ispYuvToRawGap * z.width + 0 - 0 =
      captureNeeds .raw z := by
    rw [UInt32.add_zero, UInt32.sub_zero]
    rfl
  unfold CapReq.arrangeRawBuf
  simp only [hgap]
  rw [show (CapReq.full base hbase m .raw z thum allocMem).snSize = z from rfl, hoffset]
  refine place_isSome rfl (captureNeeds .raw z) rfl rfl fun b => ?_
  split
  · rfl
  · obtain ⟨y, c, halloc⟩ := htotal.alloc b ((z.area >>> 1) + ((0 : UInt32) >>> 1))
    rw [halloc]
    rfl

theorem arrangeJpegBuf_full (hz : aligned16 z = z) :
    ((CapReq.full base hbase m .jpeg z thum allocMem).arrangeJpegBuf
        (CapReq.full base hbase m .jpeg z thum allocMem).start).isSome ↔
      MainFits (.full base hbase m .jpeg z thum allocMem) (captureNeeds .jpeg z) := by
  have hyy : (z.height - 0 - z.height) * z.width = 0 := by
    rw [UInt32.sub_zero, UInt32.sub_self, UInt32.zero_mul]
  have hend : 0 + max z.area z.area = z.area := by
    rw [UInt32.zero_add]
    simp [max, Max.max]
  unfold CapReq.arrangeJpegBuf
  simp only [CapReq.full, hz, hyy, hend, UInt32.sub_self, Bool.false_eq_true, if_false]
  refine place_isSome (r := .full base hbase m .jpeg z thum allocMem) rfl (captureNeeds .jpeg z)
    ?_ ?_ fun b => ?_ <;> rfl

theorem arrangeYuvBuf_full {fmt : ImgDataType} (hneeds : captureNeeds fmt z = (z.area * 3) >>> 1)
    (hz : aligned16 z = z) :
    ((CapReq.full base hbase m fmt z thum allocMem).arrangeYuvBuf
        (CapReq.full base hbase m fmt z thum allocMem).start).isSome ↔
      MainFits (.full base hbase m fmt z thum allocMem) (captureNeeds fmt z) := by
  have hup : ¬ z.area > z.area := UInt32.lt_irrefl _
  unfold CapReq.arrangeYuvBuf
  simp only [CapReq.full, hz, hup, if_false, ← hneeds]
  refine place_isSome (r := .full base hbase m fmt z thum allocMem) rfl (captureNeeds fmt z)
    ?_ ?_ fun b => ?_ <;> rfl

/-- The arrangement succeeds if the main buffers and `target_jpeg` fit. -/
theorem cameraArrangeCaptureBuf_full (hz : aligned16 z = z) (fmt : ImgDataType)
    (htotal : (CapReq.full base hbase m fmt z thum allocMem).AllocTotal) :
    (CapReq.full base hbase m fmt z thum allocMem).cameraArrangeCaptureBuf.isSome ↔
      (captureNeeds fmt z).toNat + (getJpegSize z).toNat ≤ m.toNat := by
  have hfmt : ((CapReq.full base hbase m fmt z thum allocMem).arrangeFmtBuf
      (CapReq.full base hbase m fmt z thum allocMem).start).isSome ↔
        MainFits (.full base hbase m fmt z thum allocMem) (captureNeeds fmt z) := by
    cases fmt with
    | raw => exact arrangeRawBuf_full htotal
    | jpeg => exact arrangeJpegBuf_full hz
    | yuv422 | yuv420 | rgb565 | rgb888 => exact arrangeYuvBuf_full rfl hz
  rw [mainFits_iff] at hfmt
  have hsize : getJpegSize (aligned16 (CapReq.full base hbase m fmt z thum allocMem).imageSize) =
      getJpegSize z := congrArg getJpegSize hz
  rw [hsize] at hfmt
  rw [← (show _ ↔ (captureNeeds fmt z).toNat + (getJpegSize z).toNat ≤ m.toNat from hfmt)]
  unfold CapReq.cameraArrangeCaptureBuf
  cases (CapReq.full base hbase m fmt z thum allocMem).arrangeFmtBuf
      (CapReq.full base hbase m fmt z thum allocMem).start with
  | none => rfl
  | some a =>
    obtain ⟨b, hmisc⟩ := Option.isSome_iff_exists.mp (htotal.arrangeMiscBuf a)
    simp only [Option.bind_eq_bind, Option.bind_some, hmisc]
    rfl

end Full

/-! ## The tables -/

/-- Every entry of the tables for YUV has room for the planes and the JPEG of its pixels. -/
theorem yuv_rows_suffice : ∀ row ∈ backCamMemSizeTab ++ frontCamMemSizeTab,
    row.pixelNum = 0 ∨
      row.pixelNum.toNat ≤ 2 ^ 23 ∧ row.pixelNum.toNat * 5 / 2 + 65540 ≤ row.memSize.toNat := by
  decide

theorem toNat_addrByWord {a : UInt32} (h : a.toNat < 2 ^ 31) :
    (addrByWord a).toNat = (a.toNat + 3) / 4 * 4 := by
  have hthree : (3 : UInt32).toNat = 3 := rfl
  have hround : ((a + 3) &&& ~~~3).toNat = (a + 3).toNat / 4 * 4 :=
    toNat_and_not (k := 2) (by decide) (by decide) _
  rw [addrByWord, hround, toNat_add_of_lt (by omega), hthree]

theorem getJpegSize_le {z : ImgSize} (h : z.area.toNat < 2 ^ 30) :
    (getJpegSize z).toNat ≤ z.area.toNat + 65539 := by
  have hexif : jpegExifSize.toNat = 65536 := rfl
  unfold getJpegSize
  split
  · have hsum : (z.area + jpegExifSize).toNat = z.area.toNat + 65536 :=
      toNat_add_of_lt (by omega)
    rw [toNat_addrByWord (by omega), hsum]
    omega
  · rw [toNat_addrByWord (by omega)]
    omega

/-- Every table has an entry for the smallest images first. -/
theorem memTab_cons (cameraId : UInt32) (raw : Bool) :
    ∃ m rest, memTab cameraId raw = ⟨0x180000, m⟩ :: rest := by
  unfold memTab
  split_ifs <;> exact ⟨_, _, rfl⟩

/-- The entry that is found is not one of those that are zero. -/
theorem captureBufSize_row {cameraId : UInt32} {raw : Bool} {z : ImgSize} {m : UInt32}
    (h : cameraCaptureBufSize cameraId raw z = some m) :
    ∃ row ∈ memTab cameraId raw, z.area ≤ row.pixelNum ∧ row.pixelNum ≠ 0 ∧ row.memSize = m := by
  obtain ⟨row, hfind, hm⟩ := Option.map_eq_some_iff.mp h
  have hle := List.find?_some hfind
  refine ⟨row, List.mem_of_find?_eq_some hfind, of_decide_eq_true hle, fun hzero => ?_, hm⟩
  obtain ⟨first, rest, htab⟩ := memTab_cons cameraId raw
  have hsmall : z.area ≤ 0x180000 :=
    UInt32.le_trans (of_decide_eq_true hle) (hzero ▸ by decide)
  rw [htab, List.find?_cons_of_pos (by exact decide_eq_true hsmall)] at hfind
  cases hfind
  have hnone : (0x180000 : UInt32) = 0 := hzero
  exact absurd hnone (by decide)

theorem yuv_suffices {cameraId : UInt32} (hcam : cameraId = 0 ∨ cameraId = 1) {z : ImgSize}
    {m : UInt32} (hm : cameraCaptureBufSize cameraId false z = some m) :
    ((z.area * 3) >>> 1).toNat + (getJpegSize z).toNat ≤ m.toNat := by
  obtain ⟨row, hrow, hle, hne, rfl⟩ := captureBufSize_row hm
  have hmem : row ∈ backCamMemSizeTab ++ frontCamMemSizeTab := by
    rcases hcam with rfl | rfl
    · exact List.mem_append_left _ hrow
    · exact List.mem_append_right _ hrow
  obtain ⟨hsmall, hsuff⟩ := (yuv_rows_suffice row hmem).resolve_left hne
  rw [UInt32.le_iff_toNat_le] at hle
  have hthree : (3 : UInt32).toNat = 3 := rfl
  have hjpeg := getJpegSize_le (z := z) (by omega)
  have hone : (1 : UInt32).toNat % 32 = 1 := rfl
  rw [UInt32.toNat_shiftRight, toNat_mul_of_lt (by rw [hthree]; omega), hthree, hone,
    Nat.shiftRight_eq_div_pow]
  omega

/-- **The tables suffice** for YUV; for raw data and JPEG exactly if the main buffers and the JPEG
fit. -/
theorem capture_mem_sufficient_iff (cameraId : UInt32) (hcam : cameraId = 0 ∨ cameraId = 1)
    (fmt : ImgDataType) (z thum : ImgSize) (hw : z.width % 16 = 0) (hh : z.height % 16 = 0)
    (m : UInt32) (hm : cameraCaptureBufSize cameraId (fmt == .raw) z = some m) (base : Addr)
    (hbase : base.origin = .frame) (allocMem : Nat → UInt32 → Option (UInt32 × UInt32))
    (htotal : ∀ n size, (allocMem n size).isSome) :
    (CapReq.full base hbase m fmt z thum allocMem).cameraArrangeCaptureBuf.isSome ↔
      (fmt = .raw ∨ fmt = .jpeg →
        (captureNeeds fmt z).toNat + (getJpegSize z).toNat ≤ m.toNat) := by
  rw [cameraArrangeCaptureBuf_full (aligned16_of_mod hw hh) fmt htotal]
  constructor
  · exact fun h _ => h
  · intro h
    cases fmt with
    | raw => exact h (.inl rfl)
    | jpeg => exact h (.inr rfl)
    | yuv422 | yuv420 | rgb565 | rgb888 => exact yuv_suffices hcam hm

/-- An image of 8 million pixels from a sensor that delivers raw data. -/
theorem capture_mem_sufficient_raw :
    (CapReq.full ⟨0x80000000, 0xb0000000, .frame⟩ rfl 0x1900000 .raw ⟨3264, 2448⟩ ⟨320, 240⟩
      fun _ _ => some (0, 0)).cameraArrangeCaptureBuf.isSome :=
  (capture_mem_sufficient_iff 0 (.inl rfl) .raw ⟨3264, 2448⟩ ⟨320, 240⟩ (by decide) (by decide)
    0x1900000 (by decide) ⟨0x80000000, 0xb0000000, .frame⟩ rfl (fun _ _ => some (0, 0))
    (fun _ _ => rfl)).mpr fun _ => by decide

/-- The same image from a sensor that delivers JPEG does not fit into the memory of the tables. -/
theorem not_capture_mem_sufficient_jpeg :
    cameraCaptureBufSize 1 false ⟨3264, 2448⟩ = some 0x1600000 ∧
      (CapReq.full ⟨0x80000000, 0xb0000000, .frame⟩ rfl 0x1600000 .jpeg ⟨3264, 2448⟩ ⟨320, 240⟩
        fun _ _ => some (0, 0)).cameraArrangeCaptureBuf = none := by
  decide

end SprdHal.Camera

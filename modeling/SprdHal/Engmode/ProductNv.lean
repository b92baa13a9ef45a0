import SprdHal.Engmode.UserHandle

/-!
# Product NV data (`eng_diag_product_ctrl`, `eng_productdata.c`)

A request names an offset and a length. The partition is read and written from its beginning,
whatever the offset; a write copies its data to the offset in a buffer that holds the beginning of
the partition, and writes `data_len` bytes of the buffer back. What `read` and `write` return is
looked at for being positive only.
-/

namespace SprdHal.Engmode

open SprdHal.Lib

/-- The contents of `PRODUCTINFO_FILE`, a partition, and of `PRODUCTINFO_FILE0`. -/
structure ProductInfo where
  miscdata : List UInt8
  productinfo : List UInt8
  deriving DecidableEq

/-- `eng_read_productnvdata`: its result and `databuf`. -/
def engReadProductnvdata (info : ProductInfo) (databuf : List UInt8) (dataLen : Nat)
    (res : Option Nat) : UInt8 × List UInt8 :=
  let len := moved res dataLen
  if len = 0 then (1, databuf) else (0, patch databuf 0 (info.miscdata.take len))

/-- `eng_write_productnvdata`. The result of the second write is not looked at. -/
def engWriteProductnvdata (info : ProductInfo) (databuf : List UInt8) (dataLen : Nat)
    (res res0 : Option Nat) : UInt8 × ProductInfo :=
  let len := moved res dataLen
  if len = 0 then (1, info)
  else
    let len0 := moved res0 dataLen
    (0, ⟨patch info.miscdata 0 (databuf.take len),
      databuf.take len0 ++ info.productinfo.drop len0⟩)

/-- A request: the header, the offset, `data_len` and as many bytes behind them. A read looks at
their number only. -/
structure ProductReq where
  head : MsgHead
  offset : UInt16
  dataLen : UInt16
  data : List UInt8
  length_data : data.length = dataLen.toNat
  deriving DecidableEq

/-- The first `head_len` bytes. -/
def ProductReq.headBytes (req : ProductReq) : List UInt8 :=
  req.head.bytes ++ leHalfBytes req.offset ++ leHalfBytes req.dataLen

/-- `head_len` -/
def productHeadLen : Nat := 8 + 2 * 2

/-- What the calls on the files return. -/
structure ProductIo where
  read : Option Nat
  write : Option Nat
  write0 : Option Nat
  deriving DecidableEq

/-- `NVITEM_PRODUCT_CTRL_READ` and `NVITEM_PRODUCT_CTRL_WRITE` -/
def nvitemProductCtrlRead : UInt8 := 2
def nvitemProductCtrlWrite : UInt8 := 3

/-- `eng_diag_product_ctrl`: what is passed to `translate_packet`, if anything is, and the files.
`garbage` is what `malloc` returns. The result is `none` if `memcpy` leaves the allocated block. -/
def engDiagProductCtrl (info : ProductInfo) (req : ProductReq) (garbage : Nat → UInt8)
    (io : ProductIo) : Option (Option (List UInt8) × ProductInfo) :=
  let rsplen := engDiagBufSize
  let dataLen := req.dataLen.toNat
  if rsplen < productHeadLen + dataLen + 2 then some (none, info)
  else if req.head.subtype = nvitemProductCtrlRead then
    let nv := engReadProductnvdata info ((List.range dataLen).map garbage) dataLen io.read
    let dataLen := if nv.1 ≠ 0 then 0 else dataLen
    let head := { req.head with subtype := nv.1, len := UInt16.ofNat (productHeadLen + dataLen) }
    some (some ({ req with head := head }.headBytes ++ nv.2.take dataLen), info)
  else if req.head.subtype = nvitemProductCtrlWrite then
    let nv := engReadProductnvdata info ((List.range rsplen).map garbage) dataLen io.read
    if nv.1 ≠ 0 then some (some { req.head with subtype := nv.1, len := 8 }.bytes, info)
    else if rsplen < req.offset.toNat + dataLen then none
    else
      let w := engWriteProductnvdata info (patch nv.2 req.offset.toNat req.data) dataLen io.write
        io.write0
      some (some { req.head with subtype := w.1, len := 8 }.bytes, w.2)
  else some (none, info)

namespace ProductReq

variable (req : ProductReq)

/-- The request is not turned down for its length. -/
def Accepted : Prop := productHeadLen + req.dataLen.toNat + 2 ≤ engDiagBufSize

instance : Decidable req.Accepted := inferInstanceAs (Decidable (_ ≤ _))

/-- The request as a read, and as a write. -/
def asRead : ProductReq := { req with head.subtype := nvitemProductCtrlRead }
def asWrite : ProductReq := { req with head.subtype := nvitemProductCtrlWrite }

/-- The bytes that the request is about. -/
def stored (info : ProductInfo) : List UInt8 :=
  (info.miscdata.drop req.offset.toNat).take req.dataLen.toNat

/-- The partition is large enough. -/
def Fits (info : ProductInfo) : Prop :=
  req.offset.toNat + req.dataLen.toNat ≤ info.miscdata.length

end ProductReq

theorem ProductReq.Accepted.not_lt {req : ProductReq} (h : req.Accepted) :
    ¬ engDiagBufSize < productHeadLen + req.dataLen.toNat + 2 :=
  Nat.not_lt.mpr h

/-- A response with `NVERR_NONE`. -/
def NverrNone (rsp : List UInt8) : Prop := rsp[7]? = some 0

instance (rsp : List UInt8) : Decidable (NverrNone rsp) := inferInstanceAs (Decidable (_ = _))

/-- What the PC expects of reads and writes at one offset. -/
structure ProductOk (req : ProductReq) (ior iow : ProductIo) : Prop where
  read : ∀ info garbage, req.Fits info → ∃ rsp info',
    engDiagProductCtrl info req.asRead garbage ior = some (some rsp, info') ∧
      (NverrNone rsp → rsp.drop productHeadLen = req.stored info)
  write : ∀ info garbage, req.Fits info → ∃ rsp info',
    engDiagProductCtrl info req.asWrite garbage iow = some (some rsp, info') ∧
      (NverrNone rsp → info'.miscdata = patch info.miscdata req.offset.toNat req.data)
  readWritten : ∀ info garbage rsp info' garbage' rsp' info'', req.Fits info →
    engDiagProductCtrl info req.asWrite garbage iow = some (some rsp, info') → NverrNone rsp →
    engDiagProductCtrl info' req.asRead garbage' ior = some (some rsp', info'') → NverrNone rsp' →
    rsp'.drop productHeadLen = req.data

/-! ## The outcomes of a request -/

/-- The buffer that a write writes back. -/
def nvdata (info : ProductInfo) (req : ProductReq) (garbage : Nat → UInt8) (io : ProductIo) :
    List UInt8 :=
  patch (patch ((List.range engDiagBufSize).map garbage) 0
    (info.miscdata.take (moved io.read req.dataLen.toNat))) req.offset.toNat req.data

section Outcomes

variable (info : ProductInfo) {req : ProductReq} (garbage : Nat → UInt8) {io : ProductIo}

theorem nverrNone_head (h : MsgHead) (more : List UInt8) :
    NverrNone (h.bytes ++ more) ↔ h.subtype = 0 :=
  Option.some.injEq _ _ ▸ Iff.rfl

theorem headBytes_eq (r : ProductReq) :
    r.headBytes = r.head.bytes ++ (leHalfBytes r.offset ++ leHalfBytes r.dataLen) :=
  List.append_assoc _ _ _

theorem drop_headBytes (r : ProductReq) (more : List UInt8) :
    (r.headBytes ++ more).drop productHeadLen = more := by
  have hdrop : (r.headBytes ++ more).drop r.headBytes.length = more := List.drop_left
  exact hdrop

variable (hacc : req.Accepted)

include hacc

theorem read_failed (hread : moved io.read req.dataLen.toNat = 0) :
    ∃ rsp, engDiagProductCtrl info req.asRead garbage io = some (some rsp, info) ∧
      ¬ NverrNone rsp := by
  unfold engDiagProductCtrl engReadProductnvdata ProductReq.asRead
  simp only [if_neg hacc.not_lt, hread, if_true]
  refine ⟨_, rfl, ?_⟩
  rw [headBytes_eq, List.append_assoc, nverrNone_head]
  exact (by decide : ¬ (1 : UInt8) = 0)

/-- A read returns the beginning of the partition. -/
theorem read_done (hread : moved io.read req.dataLen.toNat ≠ 0) :
    ∃ rsp, engDiagProductCtrl info req.asRead garbage io = some (some rsp, info) ∧
      NverrNone rsp ∧
      rsp.drop productHeadLen =
        (patch ((List.range req.dataLen.toNat).map garbage) 0
          (info.miscdata.take (moved io.read req.dataLen.toNat))).take req.dataLen.toNat := by
  unfold engDiagProductCtrl engReadProductnvdata ProductReq.asRead
  simp only [if_neg hacc.not_lt, if_neg hread, if_true]
  refine ⟨_, rfl, ?_, drop_headBytes _ _⟩
  rw [headBytes_eq, List.append_assoc, nverrNone_head]

/-- A write whose read fails. -/
theorem write_unread (hread : moved io.read req.dataLen.toNat = 0) :
    engDiagProductCtrl info req.asWrite garbage io =
      some (some { req.head with subtype := 1, len := 8 }.bytes, info) := by
  have hsub : nvitemProductCtrlWrite ≠ nvitemProductCtrlRead := by decide
  unfold engDiagProductCtrl engReadProductnvdata ProductReq.asWrite
  simp only [if_neg hacc.not_lt, if_neg hsub, if_true, hread]
  rfl

/-- A write whose read succeeds goes on to the copy and to `eng_write_productnvdata`. -/
theorem write_after_read (hread : moved io.read req.dataLen.toNat ≠ 0) :
    engDiagProductCtrl info req.asWrite garbage io =
      if engDiagBufSize < req.offset.toNat + req.dataLen.toNat then none
      else
        let w := engWriteProductnvdata info (nvdata info req garbage io) req.dataLen.toNat io.write
          io.write0
        some (some { req.head with subtype := w.1, len := 8 }.bytes, w.2) := by
  have hsub : nvitemProductCtrlWrite ≠ nvitemProductCtrlRead := by decide
  unfold engDiagProductCtrl engReadProductnvdata ProductReq.asWrite
  simp only [if_neg hacc.not_lt, if_neg hsub, if_true, if_neg hread]
  rfl

theorem write_failed (hfail : moved io.read req.dataLen.toNat = 0 ∨
      req.offset.toNat + req.dataLen.toNat ≤ engDiagBufSize ∧
        moved io.write req.dataLen.toNat = 0) :
    ∃ rsp, engDiagProductCtrl info req.asWrite garbage io = some (some rsp, info) ∧
      ¬ NverrNone rsp := by
  have hone : ¬ some (1 : UInt8) = some 0 := by decide
  by_cases hread : moved io.read req.dataLen.toNat = 0
  · exact ⟨_, write_unread info garbage hacc hread, hone⟩
  · obtain ⟨hin, hwrite⟩ := hfail.resolve_left hread
    rw [write_after_read info garbage hacc hread, if_neg (Nat.not_lt.mpr hin),
      engWriteProductnvdata, if_pos hwrite]
    exact ⟨_, rfl, hone⟩

theorem write_outside (hread : moved io.read req.dataLen.toNat ≠ 0)
    (hout : engDiagBufSize < req.offset.toNat + req.dataLen.toNat) :
    engDiagProductCtrl info req.asWrite garbage io = none := by
  rw [write_after_read info garbage hacc hread, if_pos hout]

theorem write_done (hread : moved io.read req.dataLen.toNat ≠ 0)
    (hin : req.offset.toNat + req.dataLen.toNat ≤ engDiagBufSize)
    (hwrite : moved io.write req.dataLen.toNat ≠ 0) :
    ∃ rsp info', engDiagProductCtrl info req.asWrite garbage io = some (some rsp, info') ∧
      NverrNone rsp ∧
      info'.miscdata = patch info.miscdata 0
        ((nvdata info req garbage io).take (moved io.write req.dataLen.toNat)) := by
  rw [write_after_read info garbage hacc hread, if_neg (Nat.not_lt.mpr hin),
    engWriteProductnvdata, if_neg hwrite]
  exact ⟨_, _, rfl, rfl, rfl⟩

end Outcomes

/-! ## Offsets -/

section Offsets

variable {req : ProductReq} {ior iow : ProductIo} (hacc : req.Accepted)

include hacc

/-- What is read is the beginning of the partition. -/
theorem ProductOk.read_eq (h : ProductOk req ior iow)
    (hread : moved ior.read req.dataLen.toNat ≠ 0) (info : ProductInfo) (garbage : Nat → UInt8)
    (hfits : req.Fits info) :
    (patch ((List.range req.dataLen.toNat).map garbage) 0
        (info.miscdata.take (moved ior.read req.dataLen.toNat))).take req.dataLen.toNat =
      req.stored info := by
  obtain ⟨rsp, info', hrun, hok⟩ := h.read info garbage hfits
  obtain ⟨rsp', hrun', hnone, hdata⟩ := read_done info garbage hacc hread
  rw [hrun] at hrun'
  cases hrun'
  rw [← hdata, hok hnone]

theorem ProductOk.write_eq (h : ProductOk req ior iow)
    (hread : moved iow.read req.dataLen.toNat ≠ 0)
    (hin : req.offset.toNat + req.dataLen.toNat ≤ engDiagBufSize)
    (hwrite : moved iow.write req.dataLen.toNat ≠ 0) (info : ProductInfo) (garbage : Nat → UInt8)
    (hfits : req.Fits info) :
    patch info.miscdata 0
        ((nvdata info req garbage iow).take (moved iow.write req.dataLen.toNat)) =
      patch info.miscdata req.offset.toNat req.data := by
  obtain ⟨rsp, info', hrun, hok⟩ := h.write info garbage hfits
  obtain ⟨rsp', info'', hrun', hnone, hdata⟩ := write_done info garbage hacc hread hin hwrite
  rw [hrun] at hrun'
  cases hrun'
  rw [← hdata, hok hnone]

/-- Reads are right only at the offset 0, and if nothing is missing. -/
theorem ProductOk.read_complete (h : ProductOk req ior iow)
    (hread : moved ior.read req.dataLen.toNat ≠ 0) :
    req.offset.toNat = 0 ∧ moved ior.read req.dataLen.toNat = req.dataLen.toNat := by
  have hle := moved_le ior.read req.dataLen.toNat
  have hsame := h.read_eq hacc hread
  unfold ProductReq.stored ProductReq.Fits at hsame
  generalize req.dataLen.toNat = n at *
  generalize req.offset.toNat = o at *
  generalize moved ior.read n = k at *
  constructor
  · -- a partition whose first byte differs from the others
    by_contra ho
    have hfirst := congrArg (·[0]?) (hsame ⟨1 :: List.replicate (o + n) 0, []⟩ (fun _ => 0) (by simp))
    obtain ⟨o, rfl⟩ : ∃ o', o = o' + 1 := ⟨o - 1, by omega⟩
    obtain ⟨k, rfl⟩ : ∃ k', k = k' + 1 := ⟨k - 1, by omega⟩
    simp only [List.getElem?_take_of_lt (show 0 < n by omega), getElem?_patch, List.getElem?_drop,
      List.getElem?_map, List.getElem?_range (show 0 < n by omega), List.take_succ_cons,
      List.drop_succ_cons, List.getElem?_replicate] at hfirst
    rw [if_pos (by omega)] at hfirst
    cases hfirst
  · -- the bytes that were not read are those of the allocated block
    by_contra hk
    have hlt : k < n := by omega
    have hlast := congrArg (·[k]?) (hsame ⟨List.replicate (o + n) 0, []⟩ (fun _ => 1) (by simp))
    have hout : 0 + (List.take k (List.replicate (o + n) (0 : UInt8))).length ≤ k := by
      rw [List.length_take]
      omega
    simp only [List.getElem?_take_of_lt hlt, getElem?_patch_of_out _ _ _ (Or.inr hout),
      List.getElem?_map, List.getElem?_range hlt, List.getElem?_drop,
      List.getElem?_replicate] at hlast
    rw [if_pos (by omega)] at hlast
    cases hlast

/-- Writes are right only at the offset 0, and if nothing is missing. -/
theorem ProductOk.write_complete (h : ProductOk req ior iow)
    (hread : moved iow.read req.dataLen.toNat ≠ 0)
    (hin : req.offset.toNat + req.dataLen.toNat ≤ engDiagBufSize)
    (hwrite : moved iow.write req.dataLen.toNat ≠ 0) :
    req.offset.toNat = 0 ∧ moved iow.write req.dataLen.toNat = req.dataLen.toNat := by
  have hle := moved_le iow.write req.dataLen.toNat
  have hlen := req.length_data
  by_contra hnot
  have hlt : req.dataLen.toNat - 1 < req.data.length := by omega
  -- a partition that holds another byte where the last one belongs
  have hsame := h.write_eq hacc hread hin hwrite
    ⟨List.replicate (req.offset.toNat + req.dataLen.toNat) (req.data[req.dataLen.toNat - 1] + 1), []⟩
    (fun _ => 0) (Nat.le_of_eq List.length_replicate.symm)
  have hlast := congrArg (·[req.offset.toNat + req.dataLen.toNat - 1]?) hsame
  have hout : ∀ l : List UInt8, 0 + (l.take (moved iow.write req.dataLen.toNat)).length ≤
      req.offset.toNat + req.dataLen.toNat - 1 := by
    intro l
    rw [List.length_take]
    omega
  have hpos : req.offset.toNat + req.dataLen.toNat - 1 - req.offset.toNat = req.dataLen.toNat - 1 := by
    omega
  simp only [getElem?_patch_of_out _ _ _ (Or.inr (hout _))] at hlast
  rw [getElem?_patch, List.getElem?_replicate, if_pos (by omega), Option.map_some,
    if_pos (by omega), hpos, List.getD_eq_getElem?_getD, List.getElem?_eq_getElem hlt,
    Option.getD_some, Option.some.injEq] at hlast
  have hnat := congrArg UInt8.toNat hlast
  rw [UInt8.toNat_add] at hnat
  have := (req.data[req.dataLen.toNat - 1]).toNat_lt
  simp only [UInt8.reduceToNat] at hnat
  omega

theorem read_front (hread : moved ior.read req.dataLen.toNat = req.dataLen.toNat)
    (hne : moved ior.read req.dataLen.toNat ≠ 0) (ho : req.offset.toNat = 0) (info : ProductInfo)
    (garbage : Nat → UInt8) (hfits : req.Fits info) :
    ∃ rsp, engDiagProductCtrl info req.asRead garbage ior = some (some rsp, info) ∧
      rsp.drop productHeadLen = req.stored info := by
  obtain ⟨rsp, hrun, -, hdata⟩ := read_done info garbage hacc hne
  unfold ProductReq.Fits at hfits
  have hlen : (info.miscdata.take req.dataLen.toNat).length = req.dataLen.toNat := by
    rw [List.length_take]
    omega
  refine ⟨rsp, hrun, ?_⟩
  rw [hdata, hread, patch_front (by simp [hlen]), List.take_append_of_le_length (by omega),
    List.take_of_length_le (by omega), ProductReq.stored, ho, List.drop_zero]

theorem write_front (hwrite : moved iow.write req.dataLen.toNat = req.dataLen.toNat)
    (hread : moved iow.read req.dataLen.toNat ≠ 0) (hne : moved iow.write req.dataLen.toNat ≠ 0)
    (ho : req.offset.toNat = 0) (info : ProductInfo) (garbage : Nat → UInt8) :
    ∃ rsp info', engDiagProductCtrl info req.asWrite garbage iow = some (some rsp, info') ∧
      info'.miscdata = patch info.miscdata req.offset.toNat req.data := by
  have hroom : req.dataLen.toNat ≤ engDiagBufSize := by
    unfold ProductReq.Accepted at hacc
    omega
  obtain ⟨rsp, info', hrun, -, hdata⟩ :=
    write_done info garbage hacc hread (by rw [ho, Nat.zero_add]; exact hroom) hne
  have hlen := req.length_data
  have hroom' : ∀ src : List UInt8, req.data.length ≤
      (patch ((List.range engDiagBufSize).map garbage) 0 src).length := by
    intro src
    rw [length_patch, List.length_map, List.length_range]
    omega
  refine ⟨rsp, info', hrun, ?_⟩
  rw [hdata, hwrite, nvdata, ho, patch_front (hroom' _),
    List.take_append_of_le_length (by omega), List.take_of_length_le (by omega)]

theorem read_right (hr : moved ior.read req.dataLen.toNat = 0 ∨
      req.offset.toNat = 0 ∧ moved ior.read req.dataLen.toNat = req.dataLen.toNat)
    (info : ProductInfo) (garbage : Nat → UInt8) (hfits : req.Fits info) :
    ∃ rsp, engDiagProductCtrl info req.asRead garbage ior = some (some rsp, info) ∧
      (NverrNone rsp → rsp.drop productHeadLen = req.stored info) := by
  by_cases hzero : moved ior.read req.dataLen.toNat = 0
  · obtain ⟨rsp, hrun, hfail⟩ := read_failed info garbage hacc hzero
    exact ⟨rsp, hrun, fun h => absurd h hfail⟩
  · obtain ⟨ho, hall⟩ := hr.resolve_left hzero
    obtain ⟨rsp, hrun, hdata⟩ := read_front hacc hall hzero ho info garbage hfits
    exact ⟨rsp, hrun, fun _ => hdata⟩

theorem write_right (hw : moved iow.read req.dataLen.toNat = 0 ∨
      req.offset.toNat + req.dataLen.toNat ≤ engDiagBufSize ∧
        moved iow.write req.dataLen.toNat = 0 ∨
      req.offset.toNat = 0 ∧ moved iow.write req.dataLen.toNat = req.dataLen.toNat)
    (info : ProductInfo) (garbage : Nat → UInt8) :
    ∃ rsp info', engDiagProductCtrl info req.asWrite garbage iow = some (some rsp, info') ∧
      (NverrNone rsp → req.offset.toNat = 0 ∧
        info'.miscdata = patch info.miscdata req.offset.toNat req.data) := by
  by_cases hfail : moved iow.read req.dataLen.toNat = 0 ∨
      req.offset.toNat + req.dataLen.toNat ≤ engDiagBufSize ∧
        moved iow.write req.dataLen.toNat = 0
  · obtain ⟨rsp, hrun, hnot⟩ := write_failed info garbage hacc hfail
    exact ⟨rsp, info, hrun, fun h => absurd h hnot⟩
  · obtain ⟨hzero, hfail⟩ := not_or.mp hfail
    obtain ⟨ho, hall⟩ := (hw.resolve_left hzero).resolve_left hfail
    have hne : moved iow.write req.dataLen.toNat ≠ 0 := by
      intro hnone
      unfold ProductReq.Accepted at hacc
      exact hfail ⟨by omega, hnone⟩
    obtain ⟨rsp, info', hrun, hdata⟩ := write_front hacc hall hzero hne ho info garbage
    exact ⟨rsp, info', hrun, fun _ => ⟨ho, hdata⟩⟩

end Offsets

/-- **Reads and writes of the product data are right exactly if they fail, or are at the offset 0 and
move all bytes.** -/
theorem productOk_iff (req : ProductReq) (ior iow : ProductIo) (hacc : req.Accepted) :
    ProductOk req ior iow ↔
      (moved ior.read req.dataLen.toNat = 0 ∨
        req.offset.toNat = 0 ∧ moved ior.read req.dataLen.toNat = req.dataLen.toNat) ∧
      (moved iow.read req.dataLen.toNat = 0 ∨
        req.offset.toNat + req.dataLen.toNat ≤ engDiagBufSize ∧
          moved iow.write req.dataLen.toNat = 0 ∨
        req.offset.toNat = 0 ∧ moved iow.write req.dataLen.toNat = req.dataLen.toNat) := by
  constructor
  · intro h
    constructor
    · by_cases hread : moved ior.read req.dataLen.toNat = 0
      · exact Or.inl hread
      · exact Or.inr (h.read_complete hacc hread)
    · by_cases hread : moved iow.read req.dataLen.toNat = 0
      · exact Or.inl hread
      · have hin : req.offset.toNat + req.dataLen.toNat ≤ engDiagBufSize := by
          by_contra hout
          obtain ⟨rsp, info', hrun, -⟩ := h.write
            ⟨List.replicate (req.offset.toNat + req.dataLen.toNat) 0, []⟩ (fun _ => 0)
            (Nat.le_of_eq List.length_replicate.symm)
          rw [write_outside _ _ hacc hread (Nat.not_le.mp hout)] at hrun
          cases hrun
        by_cases hwrite : moved iow.write req.dataLen.toNat = 0
        · exact Or.inr (Or.inl ⟨hin, hwrite⟩)
        · exact Or.inr (Or.inr (h.write_complete hacc hread hin hwrite))
  · rintro ⟨hr, hw⟩
    refine ⟨fun info garbage hfits => ?_, fun info garbage _ => ?_, ?_⟩
    · obtain ⟨rsp, hrun, hdata⟩ := read_right hacc hr info garbage hfits
      exact ⟨rsp, info, hrun, hdata⟩
    · obtain ⟨rsp, info', hrun, hdata⟩ := write_right hacc hw info garbage
      exact ⟨rsp, info', hrun, fun h => (hdata h).2⟩
    · intro info garbage rsp info' garbage' rsp' info'' hfits hrun hnone hrun' hnone'
      obtain ⟨_, _, hwritten, hdata⟩ := write_right hacc hw info garbage
      cases hrun.symm.trans hwritten
      obtain ⟨ho, hdata⟩ := hdata hnone
      have hfits' : req.Fits info' := by
        unfold ProductReq.Fits
        rwa [hdata, length_patch]
      obtain ⟨_, hback, hstored⟩ := read_right hacc hr info' garbage' hfits'
      cases hrun'.symm.trans hback
      have hlen := req.length_data
      unfold ProductReq.Fits at hfits
      rw [hstored hnone', ProductReq.stored, hdata, ho, List.drop_zero, patch_front (by omega),
        List.take_append_of_le_length (by omega), List.take_of_length_le (by omega)]

/-- A request of one byte at an offset. -/
def oneByteReq (offset : UInt16) (b : UInt8) : ProductReq where
  head := ⟨1, 13, diagCmdFactorymode, nvitemProductCtrlWrite⟩
  offset := offset
  dataLen := 1
  data := [b]
  length_data := rfl

def oneByteIo : ProductIo := ⟨some 1, some 1, some 1⟩

theorem productOk_first_byte : ProductOk (oneByteReq 0 0xaa) oneByteIo oneByteIo :=
  (productOk_iff (oneByteReq 0 0xaa) oneByteIo oneByteIo (by decide)).mpr (by decide)

/-- A byte at the offset 1 is read from the offset 0. -/
theorem not_productOk_second_byte :
    (oneByteReq 1 0xaa).Accepted ∧ ¬ ProductOk (oneByteReq 1 0xaa) oneByteIo oneByteIo := by
  refine ⟨by decide, fun h => ?_⟩
  have hsame := h.read_eq (by decide) (by decide) ⟨[1, 0], []⟩ (fun _ => 0) (Nat.le_refl 2)
  exact absurd hsame (by decide)

end SprdHal.Engmode

import SprdHal.Isp.Diag
import SprdHal.Lib.Bytes
import SprdHal.Lib.Pieces

/-!
# Images for the tuning tool (`isp_video.c`)

`handle_img_data` sends the three planes of an image in frames of at most `SEND_IMAGE_SIZE` bytes,
built one after the other in `eng_rsp_diag`. A frame holds a flag, the message head, a head of the
image with the number of the frame, a piece of a plane and a flag. What has been sent at any time is
described by `Progress`, whose data grow with each frame by the piece that it carries.
-/

namespace SprdHal.Isp

open SprdHal.Lib

/-- `SEND_IMAGE_SIZE` -/
def sendImageSize : Int32 := 64512

/-- `DATA_BUF_SIZE` -/
def dataBufSize : Nat := 65536

/-- `ISP_IMAGE_HEADER_T` -/
structure ImageHeader where
  headlen : UInt32
  imgFormat : UInt32
  imgSize : UInt32
  totalpacket : UInt32
  packetsn : UInt32

def ImageHeader.bytes (h : ImageHeader) : List UInt8 :=
  leBytes h.headlen ++ leBytes h.imgFormat ++ leBytes h.imgSize ++ leBytes h.totalpacket ++
    leBytes h.packetsn

@[simp] theorem ImageHeader.length_bytes (h : ImageHeader) : h.bytes.length = 20 := rfl

/-- A plane of an image: the bytes at `ch_ptr` and their number `ch_len`. -/
structure Plane where
  bytes : List UInt8
  len : Int32
  len_eq : len.toInt = bytes.length

/-- `eng_rsp_diag`, `sequence_num`, `send_number`, what `send` has been called with, and whether
something was written or sent beyond the end of `eng_rsp_diag`. -/
structure Sending where
  engRspDiag : List UInt8
  sequenceNum : Int32
  sendNumber : Int32
  sent : List (List UInt8)
  overrun : Bool

/-- `chn_number`; the sum wraps. -/
def chnNumber (chLen : Int32) : Int32 := (chLen + sendImageSize - 1) / sendImageSize

/-- What the frames of one call have in common. -/
structure ImageInfo where
  format : UInt32
  width : UInt32
  height : UInt32
  totalNumber : Int32

/-- A frame is put together in `eng_rsp_diag`: the head of the image, the piece `d` of a plane, the
flag, and the fields `len` and `seq_num` of the message head. -/
def fillRsp (eng : List UInt8) (ispMsg : ImageHeader) (d : List UInt8) (rspLen : Nat)
    (seq : UInt32) : List UInt8 :=
  let eng := patch eng 9 ispMsg.bytes
  let eng := patch eng (9 + 20) d
  let eng := patch eng rspLen [0x7e]
  let eng := patch eng 5 (leHalfBytes (UInt16.ofNat (rspLen - 1)))
  patch eng 1 (leBytes seq)

/-- The body of the three loops, for the piece with number `i`. -/
def sendPiece (im : ImageInfo) (ch : Plane) (s : Sending) (i : Nat) : Sending :=
  let len :=
    if Int32.ofNat i < chnNumber ch.len - 1 then sendImageSize
    else ch.len - sendImageSize * Int32.ofNat i
  let ispMsg : ImageHeader := ⟨12, im.format, im.width <<< 16 ||| im.height,
    im.totalNumber.toUInt32, (s.sendNumber + 1).toUInt32⟩
  let d := (ch.bytes.drop (sendImageSize.toNatClampNeg * i)).take len.toNatClampNeg
  let rspLen := 9 + 20 + len.toNatClampNeg
  let eng := fillRsp s.engRspDiag ispMsg d rspLen s.sequenceNum.toUInt32
  { engRspDiag := eng
    sequenceNum := s.sequenceNum + 1
    sendNumber := s.sendNumber + 1
    sent := s.sent ++ [eng.take (rspLen + 1)]
    overrun := s.overrun || decide (dataBufSize < rspLen + 1) }

/-- One of the three loops. -/
def sendPlane (im : ImageInfo) (ch : Plane) (s : Sending) : Sending :=
  (List.range (chnNumber ch.len).toNatClampNeg).foldl (sendPiece im ch) s

/-- `handle_img_data`; `eng` is `eng_rsp_diag` and `seq` is `sequence_num` before the call. -/
def handleImgData (eng : List UInt8) (seq : Int32) (format width height : UInt32)
    (ch0 ch1 ch2 : Plane) : Sending :=
  let im : ImageInfo :=
    ⟨format, width, height, chnNumber ch0.len + chnNumber ch1.len + chnNumber ch2.len⟩
  sendPlane im ch2 (sendPlane im ch1 (sendPlane im ch0 ⟨eng, seq, 0, [], false⟩))

/-! ## Frames -/

/-- The field `totalpacket` of a frame. -/
def totalpacketOf (f : List UInt8) : UInt32 := leWord f 21

/-- The field `packetsn` of a frame. -/
def packetsnOf (f : List UInt8) : UInt32 := leWord f 25

/-- What a frame holds between the head of the image and the last flag. -/
def payloadOf (f : List UInt8) : List UInt8 := (f.drop 29).dropLast

/-- A frame of an image with `total` packets: number `sn`, with the piece `d`. -/
structure IsImgFrame (total sn : UInt32) (d f : List UInt8) : Prop where
  totalpacket : totalpacketOf f = total
  packetsn : packetsnOf f = sn
  payload : payloadOf f = d
  length : f.length = d.length + 30
  len : lenField f + 2 = f.length

/-- The image arrives: the frames are numbered from 1 to `totalpacket`, which all of them hold, their
pieces are not empty and together the planes, the field `len` counts all bytes but the flags, and no
frame is longer than `eng_rsp_diag`. -/
structure Transferred (ch0 ch1 ch2 : Plane) (s : Sending) : Prop where
  packetsn : (s.sent.map fun f => (packetsnOf f).toNat) = List.range' 1 s.sent.length
  totalpacket : ∀ f ∈ s.sent, (totalpacketOf f).toNat = s.sent.length
  payloads : (s.sent.map payloadOf).flatten = ch0.bytes ++ ch1.bytes ++ ch2.bytes
  size : ∀ f ∈ s.sent, 1 ≤ (payloadOf f).length ∧ (payloadOf f).length ≤ 64512
  len : ∀ f ∈ s.sent, lenField f + 2 = f.length
  fits : s.overrun = false

/-! ## One frame -/

/-- A patch of a part of a buffer. -/
theorem patch_part {α : Type} (pre old post src : List α) (start : Nat)
    (hs : start = pre.length) (hl : old.length = src.length) :
    patch (pre ++ (old ++ post)) start src = pre ++ (src ++ post) := by
  subst hs
  have hle : src.length ≤ (old ++ post).length := by
    rw [List.length_append, hl]
    exact Nat.le_add_right _ _
  rw [patch_length_append pre hle, ← hl, List.drop_left]

/-- A list with at least `n` elements is cut after them. -/
theorem exists_cut {α : Type} (n : Nat) {l : List α} {k : Nat} (h : n + k ≤ l.length) :
    ∃ a b, l = a ++ b ∧ a.length = n ∧ k ≤ b.length := by
  refine ⟨l.take n, l.drop n, (List.take_append_drop n l).symm, List.length_take_of_le (by omega), ?_⟩
  rw [List.length_drop]
  omega

section Frame

variable {eng d : List UInt8} (h : ImageHeader) (seq : UInt32) {rspLen : Nat}

@[simp] theorem length_fillRsp : (fillRsp eng h d rspLen seq).length = eng.length := by
  simp [fillRsp]

/-- The buffer begins with the frame afterwards. -/
theorem exists_fillRsp (hlen : d.length + 30 ≤ eng.length) (hr : rspLen = 29 + d.length) :
    ∃ flag tag rest, flag.length = 1 ∧ tag.length = 2 ∧
      fillRsp eng h d rspLen seq =
        flag ++ leBytes seq ++ leHalfBytes (UInt16.ofNat (rspLen - 1)) ++ tag ++ h.bytes ++ d ++
          [0x7e] ++ rest := by
  subst hr
  have hsum : 1 + (4 + (2 + (2 + (20 + (d.length + (1 + 0)))))) ≤ eng.length := by omega
  obtain ⟨flag, eng, rfl, hflag, hsum⟩ := exists_cut 1 hsum
  obtain ⟨num, eng, rfl, hnum, hsum⟩ := exists_cut 4 hsum
  obtain ⟨half, eng, rfl, hhalf, hsum⟩ := exists_cut 2 hsum
  obtain ⟨tag, eng, rfl, htag, hsum⟩ := exists_cut 2 hsum
  obtain ⟨head, eng, rfl, hhead, hsum⟩ := exists_cut 20 hsum
  obtain ⟨old, eng, rfl, hold, hsum⟩ := exists_cut d.length hsum
  obtain ⟨last, rest, rfl, hlast, -⟩ := exists_cut 1 hsum
  refine ⟨flag, tag, rest, hflag, htag, ?_⟩
  have hhead9 : 9 = (flag ++ num ++ half ++ tag).length := by simp [hflag, hnum, hhalf, htag]
  have hp1 := patch_part (flag ++ num ++ half ++ tag) head (old ++ (last ++ rest)) h.bytes 9 hhead9
    (by simp [hhead])
  have hhead29 : 29 = (flag ++ num ++ half ++ tag ++ h.bytes).length := by
    rw [List.length_append, ← hhead9, h.length_bytes]
  have hp2 := patch_part (flag ++ num ++ half ++ tag ++ h.bytes) old (last ++ rest) d 29 hhead29 hold
  have hp3 := patch_part (flag ++ num ++ half ++ tag ++ h.bytes ++ d) last rest [0x7e]
    (29 + d.length) (by rw [List.length_append, ← hhead29]) hlast
  let len := leHalfBytes (UInt16.ofNat (29 + d.length - 1))
  have hp4 := patch_part (flag ++ num) half (tag ++ (h.bytes ++ (d ++ ([0x7e] ++ rest)))) len 5
    (by simp [hflag, hnum]) hhalf
  have hp5 := patch_part flag num (len ++ (tag ++ (h.bytes ++ (d ++ ([0x7e] ++ rest)))))
    (leBytes seq) 1 hflag.symm hnum
  simp only [List.append_assoc] at hp1 hp2 hp3 hp4 hp5 ⊢
  rw [fillRsp, hp1, hp2, hp3, hp4, hp5]

/-- What is sent of it is a frame of the image. -/
theorem isImgFrame_fillRsp (hlen : d.length + 30 ≤ eng.length) (hd : d.length ≤ 64512)
    (hr : rspLen = 29 + d.length) :
    IsImgFrame h.totalpacket h.packetsn d ((fillRsp eng h d rspLen seq).take (rspLen + 1)) := by
  obtain ⟨flag, tag, rest, hflag, htag, hw⟩ := exists_fillRsp h seq hlen hr
  have hhalf : (UInt16.ofNat (rspLen - 1)).toNat = 28 + d.length := by
    rw [UInt16.toNat_ofNat']
    omega
  generalize UInt16.ofNat (rspLen - 1) = len at hw hhalf
  have htake : (fillRsp eng h d rspLen seq).take (rspLen + 1) =
      flag ++ leBytes seq ++ leHalfBytes len ++ tag ++ h.bytes ++ d ++ [0x7e] := by
    rw [hw]
    refine List.take_left' ?_
    simp [hflag, htag]
    omega
  rw [htake]
  have hpre : (flag ++ leBytes seq ++ leHalfBytes len ++ tag).length = 9 := by simp [hflag, htag]
  have hlength : (flag ++ leBytes seq ++ leHalfBytes len ++ tag ++ h.bytes ++ d ++ [0x7e]).length =
      d.length + 30 := by
    simp [hflag, htag]
    omega
  refine ⟨?_, ?_, ?_, hlength, ?_⟩
  · have hword := leWord_leBytes (flag ++ leBytes seq ++ leHalfBytes len ++ tag ++
      (leBytes h.headlen ++ leBytes h.imgFormat ++ leBytes h.imgSize)) h.totalpacket
      (leBytes h.packetsn ++ (d ++ [0x7e]))
    rw [List.length_append, hpre] at hword
    simpa [ImageHeader.bytes, totalpacketOf] using hword
  · have hword := leWord_leBytes (flag ++ leBytes seq ++ leHalfBytes len ++ tag ++
      (leBytes h.headlen ++ leBytes h.imgFormat ++ leBytes h.imgSize ++ leBytes h.totalpacket))
      h.packetsn (d ++ [0x7e])
    rw [List.length_append, hpre] at hword
    simpa [ImageHeader.bytes, packetsnOf] using hword
  · rw [payloadOf, List.append_assoc _ d, List.drop_left' (by rw [List.length_append, hpre]; rfl),
      List.dropLast_concat]
  · rw [hlength]
    obtain ⟨b, rfl⟩ := List.length_eq_one_iff.mp hflag
    simp [lenField, leBytes, leHalfBytes]
    omega

end Frame

/-! ## The course of a call -/

/-- The image up to now: `data` has been sent in frames that say `total`. -/
structure Progress (total : UInt32) (data : List UInt8) (s : Sending) : Prop where
  buf : s.engRspDiag.length = dataBufSize
  count : s.sendNumber = Int32.ofNat s.sent.length
  packetsn : s.sent.map packetsnOf = (List.range s.sent.length).map fun k => UInt32.ofNat (k + 1)
  totalpacket : ∀ f ∈ s.sent, totalpacketOf f = total
  payloads : (s.sent.map payloadOf).flatten = data
  size : ∀ f ∈ s.sent, 1 ≤ (payloadOf f).length ∧ (payloadOf f).length ≤ 64512
  len : ∀ f ∈ s.sent, lenField f + 2 = f.length
  fits : s.overrun = false

/-- The state after a frame with the piece `d`. -/
structure SentPiece (total : UInt32) (d : List UInt8) (s s' : Sending) : Prop where
  buf : s'.engRspDiag.length = s.engRspDiag.length
  sendNumber : s'.sendNumber = s.sendNumber + 1
  sent : ∃ f, s'.sent = s.sent ++ [f] ∧ IsImgFrame total (s.sendNumber + 1).toUInt32 d f
  overrun : s'.overrun = s.overrun

theorem Progress.sentPiece {total : UInt32} {data d : List UInt8} {s s' : Sending}
    (h : Progress total data s) (hs : SentPiece total d s s') (hd : 1 ≤ d.length)
    (hle : d.length ≤ 64512) :
    Progress total (data ++ d) s' ∧ s'.sent.length = s.sent.length + 1 := by
  obtain ⟨f, hsent, hf⟩ := hs.sent
  have hlen : s'.sent.length = s.sent.length + 1 := by rw [hsent, List.length_append]; rfl
  have hone : Int32.ofNat (s.sent.length + 1) = Int32.ofNat s.sent.length + 1 := Int32.ofNat_add _ _
  refine ⟨⟨hs.buf.trans h.buf, ?_, ?_, ?_, ?_, ?_, ?_, hs.overrun.trans h.fits⟩, hlen⟩
  · rw [hs.sendNumber, h.count, hlen, hone]
  · have hsn : packetsnOf f = UInt32.ofNat (s.sent.length + 1) := by
      rw [hf.packetsn, h.count, ← hone]
      rfl
    rw [hlen, hsent, List.map_append, h.packetsn, List.range_succ, List.map_append]
    simp [hsn]
  · rw [hsent]
    exact List.forall_mem_append.mpr ⟨h.totalpacket, List.forall_mem_singleton.mpr hf.totalpacket⟩
  · rw [hsent, List.map_append, List.flatten_append, h.payloads]
    simp [hf.payload]
  · rw [hsent]
    refine List.forall_mem_append.mpr ⟨h.size, List.forall_mem_singleton.mpr ?_⟩
    rw [hf.payload]
    exact ⟨hd, hle⟩
  · rw [hsent]
    exact List.forall_mem_append.mpr ⟨h.len, List.forall_mem_singleton.mpr hf.len⟩

section Plane

variable (ch : Plane)

theorem Plane.length_lt : ch.bytes.length < 2147483648 := by
  have hlt := ch.len.toInt_lt
  rw [ch.len_eq] at hlt
  omega

/-- The sum that is divided by the size of a packet. -/
theorem toInt_rounding :
    (ch.len + sendImageSize - 1).toInt = ((ch.bytes.length : Int) + 64511).bmod (2 ^ 32) := by
  have hsize : sendImageSize.toInt = 64512 := rfl
  have hone : (1 : Int32).toInt = 1 := rfl
  have hsum : (ch.bytes.length : Int) + 64512 - 1 = ch.bytes.length + 64511 := by omega
  rw [Int32.toInt_sub, Int32.toInt_add, ch.len_eq, hsize, hone, Int.bmod_sub_bmod, hsum]

/-- The number of packets of a plane, unless the sum wraps. -/
theorem toInt_chnNumber (h : ch.bytes.length ≤ 2147419136) :
    (chnNumber ch.len).toInt = pieceCount 64512 ch.bytes.length := by
  have hsize : sendImageSize.toInt = 64512 := rfl
  have hfit : ((ch.bytes.length : Int) + 64511).bmod (2 ^ 32) = (ch.bytes.length + 64511 : Nat) :=
    Int.bmod_eq_of_le (by omega) (by omega)
  have hdiv : ((ch.bytes.length + 64511 : Nat) : Int).tdiv 64512 =
      (pieceCount 64512 ch.bytes.length : Nat) := Int.ofNat_tdiv _ _
  have hle : pieceCount 64512 ch.bytes.length ≤ ch.bytes.length + 64511 := Nat.div_le_self _ _
  rw [chnNumber, Int32.toInt_div, toInt_rounding, hfit, hsize, hdiv]
  exact Int.bmod_eq_of_le (by omega) (by omega)

/-- No packet if the sum wraps. -/
theorem chnNumber_of_gt (h : 2147419136 < ch.bytes.length) :
    (chnNumber ch.len).toNatClampNeg = 0 := by
  have hlt := ch.length_lt
  have hsize : sendImageSize.toInt = 64512 := rfl
  obtain ⟨m, hm⟩ : ∃ m : Nat, ch.bytes.length + 64511 + m = 4294967296 :=
    ⟨4294967296 - (ch.bytes.length + 64511), by omega⟩
  have hwrap : ((ch.bytes.length : Int) + 64511).bmod (2 ^ 32) = -(m : Int) := by
    have hshift : (ch.bytes.length : Int) + 64511 = -(m : Int) + 1 * (2 ^ 32 : Nat) := by omega
    rw [hshift, Int.add_mul_bmod_self_right]
    exact Int.bmod_eq_of_le (by omega) (by omega)
  have hdiv : (-(m : Int)).tdiv 64512 = -((m / 64512 : Nat) : Int) := by
    rw [Int.neg_tdiv]
    rfl
  have hle : m / 64512 ≤ m := Nat.div_le_self _ _
  have hneg : (chnNumber ch.len).toInt = -((m / 64512 : Nat) : Int) := by
    rw [chnNumber, Int32.toInt_div, toInt_rounding, hwrap, hsize, hdiv]
    exact Int.bmod_eq_of_le (by omega) (by omega)
  rw [Int32.toNatClampNeg_eq_zero_iff, Int32.le_iff_toInt_le, hneg]
  exact Int.neg_nonpos_of_nonneg (Int.natCast_nonneg _)

theorem Plane.toNatClampNeg_chnNumber (h : ch.bytes.length ≤ 2147419136) :
    (chnNumber ch.len).toNatClampNeg = pieceCount 64512 ch.bytes.length := by
  rw [← Int32.toNat_toInt, toInt_chnNumber ch h, Int.toNat_natCast]

theorem Plane.pieceCount_lt : pieceCount 64512 ch.bytes.length < 65536 := by
  have hlt := ch.length_lt
  have hle : pieceCount 64512 ch.bytes.length ≤ ch.bytes.length / 64512 + 1 :=
    pieceCount_le (by decide)
  omega

/-- The length of a piece, as the loops compute it. -/
theorem toNatClampNeg_pieceLen {i : Nat} (h : ch.bytes.length ≤ 2147419136)
    (hi : i < pieceCount 64512 ch.bytes.length) :
    (if Int32.ofNat i < chnNumber ch.len - 1 then sendImageSize
      else ch.len - sendImageSize * Int32.ofNat i).toNatClampNeg =
      (piece 64512 ch.bytes i).length := by
  have hn := toInt_chnNumber ch h
  have hcount : pieceCount 64512 ch.bytes.length ≤ ch.bytes.length / 64512 + 1 :=
    pieceCount_le (by decide)
  have hbegin := mul_lt_of_lt_pieceCount (by decide : 0 < 64512) hi
  have hi32 : (Int32.ofNat i).toInt = i := Int32.toInt_ofNat_of_lt (by omega)
  have hlast : (chnNumber ch.len - 1).toInt = pieceCount 64512 ch.bytes.length - 1 := by
    have hone : (1 : Int32).toInt = 1 := rfl
    rw [Int32.toInt_sub, hn, hone]
    exact Int.bmod_eq_of_le (by omega) (by omega)
  have hlt : Int32.ofNat i < chnNumber ch.len - 1 ↔ i + 1 < pieceCount 64512 ch.bytes.length := by
    rw [Int32.lt_iff_toInt_lt, hi32, hlast]
    omega
  rw [length_piece ch.bytes (by decide) hi]
  by_cases hfull : i + 1 < pieceCount 64512 ch.bytes.length
  · rw [if_pos (hlt.mpr hfull), if_pos hfull]
    rfl
  · rw [if_neg (hlt.not.mpr hfull), if_neg hfull]
    have hmul : (sendImageSize * Int32.ofNat i).toInt = 64512 * i := by
      have hsize : sendImageSize.toInt = 64512 := rfl
      rw [Int32.toInt_mul, hi32, hsize]
      exact Int.bmod_eq_of_le (by omega) (by omega)
    have hsub : (ch.len - sendImageSize * Int32.ofNat i).toInt =
        (ch.bytes.length - 64512 * i : Nat) := by
      rw [Int32.toInt_sub, ch.len_eq, hmul, Int.natCast_sub (Nat.le_of_lt hbegin)]
      exact Int.bmod_eq_of_le (by omega) (by omega)
    rw [← Int32.toNat_toInt, hsub, Int.toNat_natCast]

end Plane

/-! ## Planes -/

section Run

variable {im : ImageInfo} {ch : Plane} {s : Sending} {data : List UInt8}

/-- One round of a loop. -/
theorem sentPiece_sendPiece (h : ch.bytes.length ≤ 2147419136)
    (hbuf : s.engRspDiag.length = dataBufSize) {i : Nat}
    (hi : i < pieceCount 64512 ch.bytes.length) :
    SentPiece im.totalNumber.toUInt32 (piece 64512 ch.bytes i) s (sendPiece im ch s i) := by
  have hle : (piece 64512 ch.bytes i).length ≤ 64512 := length_piece_le ch.bytes
  have hpiece : (ch.bytes.drop (sendImageSize.toNatClampNeg * i)).take
      (piece 64512 ch.bytes i).length = piece 64512 ch.bytes i := by
    have hsize : sendImageSize.toNatClampNeg = 64512 := rfl
    refine List.take_eq_take_iff.mpr ?_
    rw [hsize, piece, List.length_take, Nat.min_assoc, Nat.min_self]
  let ispMsg : ImageHeader := ⟨12, im.format, im.width <<< 16 ||| im.height,
    im.totalNumber.toUInt32, (s.sendNumber + 1).toUInt32⟩
  rw [sendPiece, toNatClampNeg_pieceLen ch h hi, hpiece]
  refine ⟨length_fillRsp _ _, rfl, ⟨_, rfl, isImgFrame_fillRsp ispMsg _ ?_ hle rfl⟩, ?_⟩
  · rw [hbuf, dataBufSize]
    omega
  · have hfit : ¬dataBufSize < 9 + 20 + (piece 64512 ch.bytes i).length + 1 := by
      rw [dataBufSize]
      omega
    simp [hfit]

/-- A plane is sent, or nothing of it if the rounding wraps. -/
def Plane.sentBytes (ch : Plane) : List UInt8 :=
  if ch.bytes.length ≤ 2147419136 then ch.bytes else []

theorem Progress.rounds (h : Progress im.totalNumber.toUInt32 data s)
    (hfit : ch.bytes.length ≤ 2147419136) {n : Nat} (hn : n ≤ pieceCount 64512 ch.bytes.length) :
    Progress im.totalNumber.toUInt32 (data ++ ch.bytes.take (64512 * n))
        ((List.range n).foldl (sendPiece im ch) s) ∧
      ((List.range n).foldl (sendPiece im ch) s).sent.length = s.sent.length + n := by
  induction n with
  | zero => exact ⟨by simpa using h, rfl⟩
  | succ n ih =>
    obtain ⟨hp, hlen⟩ := ih (by omega)
    have hpos : 0 < (piece 64512 ch.bytes n).length := length_piece_pos ch.bytes (by decide) hn
    have hround := hp.sentPiece (sentPiece_sendPiece hfit hp.buf hn) hpos (length_piece_le ch.bytes)
    rw [List.append_assoc, take_append_piece] at hround
    rw [List.range_succ, List.foldl_append]
    refine ⟨hround.1, ?_⟩
    rw [← Nat.add_assoc, ← hlen]
    exact hround.2

theorem Progress.sendPlane (h : Progress im.totalNumber.toUInt32 data s) (ch : Plane) :
    Progress im.totalNumber.toUInt32 (data ++ ch.sentBytes) (sendPlane im ch s) ∧
      (sendPlane im ch s).sent.length = s.sent.length + (chnNumber ch.len).toNatClampNeg := by
  by_cases hfit : ch.bytes.length ≤ 2147419136
  · have hn := ch.toNatClampNeg_chnNumber hfit
    have hrounds := h.rounds hfit (Nat.le_refl _)
    rw [take_pieceCount ch.bytes (by decide)] at hrounds
    rw [Plane.sentBytes, if_pos hfit, SprdHal.Isp.sendPlane, hn]
    exact hrounds
  · rw [Plane.sentBytes, if_neg hfit, SprdHal.Isp.sendPlane, chnNumber_of_gt ch (by omega),
      List.append_nil]
    exact ⟨h, rfl⟩

end Run

/-! ## The image -/

/-- The frames of a call, whether or not a rounding wraps. -/
theorem progress_handleImgData {eng : List UInt8} (heng : eng.length = dataBufSize) (seq : Int32)
    (format width height : UInt32) (ch0 ch1 ch2 : Plane) :
    Progress (chnNumber ch0.len + chnNumber ch1.len + chnNumber ch2.len).toUInt32
        (ch0.sentBytes ++ ch1.sentBytes ++ ch2.sentBytes)
        (handleImgData eng seq format width height ch0 ch1 ch2) ∧
      (handleImgData eng seq format width height ch0 ch1 ch2).sent.length =
        (chnNumber ch0.len).toNatClampNeg + (chnNumber ch1.len).toNatClampNeg +
          (chnNumber ch2.len).toNatClampNeg := by
  let im : ImageInfo :=
    ⟨format, width, height, chnNumber ch0.len + chnNumber ch1.len + chnNumber ch2.len⟩
  have hstart : Progress im.totalNumber.toUInt32 [] ⟨eng, seq, 0, [], false⟩ :=
    ⟨heng, rfl, rfl, nofun, rfl, nofun, nofun, rfl⟩
  obtain ⟨h0, hlen0⟩ := hstart.sendPlane ch0
  obtain ⟨h1, hlen1⟩ := h0.sendPlane ch1
  obtain ⟨h2, hlen2⟩ := h1.sendPlane ch2
  refine ⟨h2, ?_⟩
  rw [hlen1, hlen0] at hlen2
  exact hlen2.trans (by rw [List.length_nil, Nat.zero_add])

theorem Plane.length_sentBytes_le (ch : Plane) : ch.sentBytes.length ≤ ch.bytes.length := by
  unfold Plane.sentBytes
  split
  · exact Nat.le_refl _
  · exact Nat.zero_le _

theorem Plane.sentBytes_eq_iff (ch : Plane) :
    ch.sentBytes.length = ch.bytes.length ↔ ch.bytes.length ≤ 2147419136 := by
  unfold Plane.sentBytes
  split
  · next h => exact ⟨fun _ => h, fun _ => rfl⟩
  · next h =>
    rw [List.length_nil]
    omega

/-- Nothing is sent of a plane that is too long. -/
theorem le_of_transferred {eng : List UInt8} (heng : eng.length = dataBufSize) {seq : Int32}
    {format width height : UInt32} {ch0 ch1 ch2 : Plane}
    (ht : Transferred ch0 ch1 ch2 (handleImgData eng seq format width height ch0 ch1 ch2)) :
    ch0.bytes.length ≤ 2147419136 ∧ ch1.bytes.length ≤ 2147419136 ∧
      ch2.bytes.length ≤ 2147419136 := by
  obtain ⟨hp, -⟩ := progress_handleImgData heng seq format width height ch0 ch1 ch2
  have hbytes := congrArg List.length (hp.payloads.symm.trans ht.payloads)
  simp only [List.length_append] at hbytes
  have h0 := ch0.length_sentBytes_le
  have h1 := ch1.length_sentBytes_le
  have h2 := ch2.length_sentBytes_le
  exact ⟨ch0.sentBytes_eq_iff.mp (by omega), ch1.sentBytes_eq_iff.mp (by omega),
    ch2.sentBytes_eq_iff.mp (by omega)⟩

/-- **An image arrives completely** exactly if the number of packets is rounded up without a wrap
for each plane: if a plane is too long for that, nothing of it is sent. -/
theorem transferred_iff {eng : List UInt8} (heng : eng.length = dataBufSize) (seq : Int32)
    (format width height : UInt32) (ch0 ch1 ch2 : Plane) :
    Transferred ch0 ch1 ch2 (handleImgData eng seq format width height ch0 ch1 ch2) ↔
      ch0.bytes.length ≤ 2147483647 - 64511 ∧ ch1.bytes.length ≤ 2147483647 - 64511 ∧
        ch2.bytes.length ≤ 2147483647 - 64511 := by
  constructor
  · exact le_of_transferred heng
  · rintro ⟨h0, h1, h2⟩
    obtain ⟨hp, hlen⟩ := progress_handleImgData heng seq format width height ch0 ch1 ch2
    generalize handleImgData eng seq format width height ch0 ch1 ch2 = s at hp hlen
    rw [ch0.toNatClampNeg_chnNumber h0, ch1.toNatClampNeg_chnNumber h1,
      ch2.toNatClampNeg_chnNumber h2] at hlen
    have hc0 := ch0.pieceCount_lt
    have hc1 := ch1.pieceCount_lt
    have hc2 := ch2.pieceCount_lt
    have htotal : (chnNumber ch0.len + chnNumber ch1.len + chnNumber ch2.len).toUInt32.toNat =
        s.sent.length := by
      refine toNat_toUInt32 ?_
      have hsum : (chnNumber ch0.len + chnNumber ch1.len).toInt =
          pieceCount 64512 ch0.bytes.length + pieceCount 64512 ch1.bytes.length := by
        rw [Int32.toInt_add, toInt_chnNumber ch0 h0, toInt_chnNumber ch1 h1]
        exact Int.bmod_eq_of_le (by omega) (by omega)
      rw [Int32.toInt_add, hsum, toInt_chnNumber ch2 h2, hlen]
      exact Int.bmod_eq_of_le (by omega) (by omega)
    refine ⟨?_, ?_, ?_, hp.size, hp.len, hp.fits⟩
    · have hnum := congrArg (List.map UInt32.toNat) hp.packetsn
      rw [List.map_map, List.map_map] at hnum
      rw [List.range'_eq_map_range]
      refine hnum.trans (List.map_congr_left fun k hk => ?_)
      have hk : k < s.sent.length := List.mem_range.mp hk
      rw [Function.comp_apply, UInt32.toNat_ofNat', Nat.mod_eq_of_lt (by omega), Nat.add_comm]
    · intro f hf
      rw [hp.totalpacket f hf, htotal]
    · rw [hp.payloads, Plane.sentBytes, Plane.sentBytes, Plane.sentBytes, if_pos h0, if_pos h1,
        if_pos h2]

/-- Two full packets, no second plane, and a packet of three bytes. -/
theorem transferred_three_planes :
    Transferred ⟨List.replicate 129024 7, 129024, by rw [List.length_replicate]; rfl⟩ ⟨[], 0, rfl⟩
      ⟨[1, 2, 3], 3, rfl⟩
      (handleImgData (List.replicate dataBufSize 0) 0 2 320 240
        ⟨List.replicate 129024 7, 129024, by rw [List.length_replicate]; rfl⟩ ⟨[], 0, rfl⟩
        ⟨[1, 2, 3], 3, rfl⟩) :=
  (transferred_iff List.length_replicate 0 2 320 240 _ _ _).mpr
    ⟨by rw [List.length_replicate]; decide, by decide, by decide⟩

/-- The longest plane that `ch0_len` can describe. -/
theorem not_transferred_longest :
    ¬Transferred ⟨List.replicate 2147483647 0, 2147483647, by rw [List.length_replicate]; rfl⟩
      ⟨[], 0, rfl⟩ ⟨[], 0, rfl⟩
      (handleImgData (List.replicate dataBufSize 0) 0 2 320 240
        ⟨List.replicate 2147483647 0, 2147483647, by rw [List.length_replicate]; rfl⟩ ⟨[], 0, rfl⟩
        ⟨[], 0, rfl⟩) := by
  intro ht
  have hle := (le_of_transferred List.length_replicate ht).1
  rw [List.length_replicate] at hle
  omega

end SprdHal.Isp

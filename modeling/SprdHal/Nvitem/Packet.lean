import SprdHal.Lib.Bytes

/-!
# The packet layer (`nvitem_packet.c`, `nvitem_channe_spipe.c`)

A packet is read whole into `packeBuf`: a header of five words and the payload. The layer keeps
the group and the sub-index of the last packet it let through. Only sub-index 0 of a group other
than the current one starts a group, and only the next sub-index of the current group continues
it; everything else is skipped.
-/

namespace SprdHal.Nvitem

open SprdHal.Lib

/-- `_MAGICNUM`, "RMNV" -/
def magicNum : UInt32 := 0x524d4e56

/-- `sizeof(PACKET_HEAD)` -/
def packetHeadSize : UInt32 := 20

/-- `PACKETSIZE` -/
def packetSize : UInt32 := 1024

/-- `PACKET_HEAD` -/
structure PacketHead where
  magicnum : UInt32
  ecc : UInt32
  idxGrp : UInt32
  idxSub : UInt32
  sizeOfPacket : UInt32
  deriving DecidableEq

/-- One `read` on the channel: its result and what `packeBuf` then holds, `body` being the bytes
from `_packetBody` on. -/
structure ChannelRead where
  ret : Int
  head : PacketHead
  body : List UInt8
  deriving DecidableEq

/-- `*hasRead = read(...)`: the error result -1 becomes the largest `uint32`. -/
def ChannelRead.hasRead (r : ChannelRead) : UInt32 := UInt32.ofInt r.ret

/-- `channel_read` fails on a short read. -/
def channelRead (r : ChannelRead) : Bool := ¬ r.hasRead < packetHeadSize + packetSize

/-- The bytes `*buf .. *buf + *size` handed to the analyser. -/
def ChannelRead.payload (r : ChannelRead) : List UInt8 := r.body.take r.head.sizeOfPacket.toNat

/-- `_PACKET_START`, `_PACKET_CONTINUE`, `_PACKET_SKIP`, `_PACKET_FAIL` -/
inductive PacketResult
  | start | cont | skip | fail
  deriving DecidableEq, Repr

/-- `_idxGrp`, `_idxSub` -/
structure PacketState where
  idxGrp : UInt32
  idxSub : UInt32
  deriving DecidableEq

/-- `_initPacket` -/
def initPacket : PacketState := ⟨0xFFFFFFFF, 0⟩

/-- `_getPacket`. `__chkEcc` accepts every packet; the sum with `sizeOfPacket` wraps. -/
def getPacket (s : PacketState) (r : ChannelRead) : PacketResult × PacketState :=
  if !channelRead r then (.fail, s)
  else if r.hasRead < packetHeadSize then (.skip, s)
  else if r.head.magicnum ≠ magicNum then (.skip, s)
  else if r.hasRead < packetHeadSize + r.head.sizeOfPacket then (.skip, s)
  else if s.idxGrp = r.head.idxGrp then
    if s.idxSub + 1 = r.head.idxSub then (.cont, { s with idxSub := s.idxSub + 1 })
    else (.skip, s)
  else if r.head.idxSub = 0 then (.start, ⟨r.head.idxGrp, 0⟩)
  else (.skip, s)

/-- A response: its header and the first byte of its body; the other body bytes are zero. -/
structure PacketRsp where
  head : PacketHead
  rsp : UInt8
  deriving DecidableEq

/-- `__makeEcc` -/
def makeEcc : UInt32 := 0

/-- `__sendPacketRsp`: the request's header with the size set to 1 and a fresh `ecc`. -/
def sendPacketRsp (header : PacketHead) (rsp : UInt8) : PacketRsp :=
  ⟨{ header with sizeOfPacket := 1, ecc := makeEcc }, rsp⟩

/-- The read of a whole packet, as a sender makes it: the payload, and zeros up to the size of the
packet buffer. -/
def packetOf (idxGrp idxSub : UInt32) (payload : List UInt8) : ChannelRead where
  ret := 1044
  head := ⟨magicNum, makeEcc, idxGrp, idxSub, UInt32.ofNat payload.length⟩
  body := payload ++ List.replicate (1024 - payload.length) 0

/-! ## What the layer lets through -/

/-- The packet layer starts a group exactly at sub-index 0 of another group. -/
theorem getPacket_start {s s' : PacketState} {r : ChannelRead}
    (h : getPacket s r = (.start, s')) :
    s.idxGrp ≠ r.head.idxGrp ∧ r.head.idxSub = 0 ∧ s' = ⟨r.head.idxGrp, 0⟩ := by
  unfold getPacket at h
  split at h
  · cases h
  split at h
  · cases h
  split at h
  · cases h
  split at h
  · cases h
  split at h
  · split at h <;> cases h
  · rename_i hgrp
    split at h
    · rename_i hsub
      cases h
      exact ⟨hgrp, hsub, rfl⟩
    · cases h

/-- It continues a group exactly at the next sub-index. -/
theorem getPacket_cont {s s' : PacketState} {r : ChannelRead}
    (h : getPacket s r = (.cont, s')) :
    r.head.idxGrp = s.idxGrp ∧ r.head.idxSub = s.idxSub + 1 ∧ s' = ⟨s.idxGrp, s.idxSub + 1⟩ := by
  unfold getPacket at h
  split at h
  · cases h
  split at h
  · cases h
  split at h
  · cases h
  split at h
  · cases h
  split at h
  · rename_i hgrp
    split at h
    · rename_i hsub
      cases h
      exact ⟨hgrp.symm, hsub.symm, rfl⟩
    · cases h
  · split at h <;> cases h

/-- A skipped or failed packet leaves the layer as it was. -/
theorem getPacket_state_of_skip {s s' : PacketState} {r : ChannelRead} {res : PacketResult}
    (h : getPacket s r = (res, s')) (hres : res = .skip ∨ res = .fail) : s' = s := by
  unfold getPacket at h
  repeat' split at h
  all_goals cases h
  all_goals first | rfl | simp at hres

/-- A complete read of a packet with the magic number and a payload that fits. -/
structure ChannelRead.WellFormed (r : ChannelRead) : Prop where
  complete : r.ret = 1044
  magic : r.head.magicnum = magicNum
  fits : r.head.sizeOfPacket ≤ packetSize

theorem ChannelRead.WellFormed.accepted {r : ChannelRead} (h : r.WellFormed) (s : PacketState) :
    getPacket s r =
      if s.idxGrp = r.head.idxGrp then
        if s.idxSub + 1 = r.head.idxSub then (.cont, { s with idxSub := s.idxSub + 1 })
        else (.skip, s)
      else if r.head.idxSub = 0 then (.start, ⟨r.head.idxGrp, 0⟩)
      else (.skip, s) := by
  have hr : r.hasRead = 1044 := by rw [ChannelRead.hasRead, h.complete]; rfl
  have hfits := UInt32.le_iff_toNat_le.mp h.fits
  have hsize : ¬ r.hasRead < packetHeadSize + r.head.sizeOfPacket := by
    rw [hr, UInt32.lt_iff_toNat_lt, UInt32.toNat_add]
    simp only [packetHeadSize, packetSize, UInt32.reduceToNat] at hfits ⊢
    omega
  have hread : channelRead r = true := by rw [channelRead, hr]; rfl
  have hhead : ¬ r.hasRead < packetHeadSize := by rw [hr]; decide
  simp only [getPacket, hread, hhead, hsize, h.magic, Bool.not_true, Bool.false_eq_true, ne_eq,
    not_true_eq_false, if_false]

theorem packetOf_wellFormed (idxGrp idxSub : UInt32) {payload : List UInt8}
    (h : payload.length ≤ 1024) : (packetOf idxGrp idxSub payload).WellFormed where
  complete := rfl
  magic := rfl
  fits := by
    rw [UInt32.le_iff_toNat_le]
    simp only [packetOf, packetSize, UInt32.toNat_ofNat', UInt32.reduceToNat]
    omega

theorem payload_packetOf (idxGrp idxSub : UInt32) {payload : List UInt8}
    (h : payload.length ≤ 1024) : (packetOf idxGrp idxSub payload).payload = payload := by
  have hl : (UInt32.ofNat payload.length).toNat = payload.length := by
    rw [UInt32.toNat_ofNat']
    omega
  simp only [ChannelRead.payload, packetOf, hl, List.take_left]

/-! ## What the layer hands to the analyser -/

/-- A read into `packeBuf`, from the contents of the buffer. -/
def readInto (packeBuf : Vector UInt8 1044) (hasRead : Nat) : ChannelRead where
  ret := hasRead
  head := ⟨leWord packeBuf.toList 0, leWord packeBuf.toList 4, leWord packeBuf.toList 8,
    leWord packeBuf.toList 12, leWord packeBuf.toList 16⟩
  body := packeBuf.toList.drop 20

/-- `*buf`, as an offset into `packeBuf`, and `*size`: set when a packet is let through. -/
def handedOver (s : PacketState) (r : ChannelRead) : Option (Nat × UInt32) :=
  match (getPacket s r).1 with
  | .start | .cont => some (packetHeadSize.toNat, r.head.sizeOfPacket)
  | .skip | .fail => none

/-- A header that comes next: the next one of its group, or the first one of another group. -/
def PacketHead.Follows (h : PacketHead) (s : PacketState) : Prop :=
  s.idxGrp = h.idxGrp ∧ s.idxSub + 1 = h.idxSub ∨ s.idxGrp ≠ h.idxGrp ∧ h.idxSub = 0

/-- A packet is let through when it passes all checks. The size check is the wrapping one. -/
theorem handedOver_isSome_iff (s : PacketState) (r : ChannelRead) :
    (handedOver s r).isSome ↔ channelRead r = true ∧ packetHeadSize ≤ r.hasRead ∧
      r.head.magicnum = magicNum ∧ packetHeadSize + r.head.sizeOfPacket ≤ r.hasRead ∧
      r.head.Follows s := by
  unfold handedOver getPacket PacketHead.Follows
  cases hread : channelRead r with
  | false => simp
  | true =>
    by_cases hhead : r.hasRead < packetHeadSize
    · simp [hhead, UInt32.not_le.mpr hhead]
    by_cases hmagic : r.head.magicnum = magicNum
    · by_cases hsize : r.hasRead < packetHeadSize + r.head.sizeOfPacket
      · simp [hhead, hmagic, hsize, UInt32.not_le.mpr hsize]
      · by_cases hgrp : s.idxGrp = r.head.idxGrp
        · by_cases hsub : s.idxSub + 1 = r.head.idxSub <;>
            simp [hhead, hmagic, hsize, hgrp, hsub, UInt32.not_lt.mp hhead, UInt32.not_lt.mp hsize]
        · by_cases hsub : r.head.idxSub = 0 <;>
            simp [hhead, hmagic, hsize, hgrp, hsub, UInt32.not_lt.mp hhead, UInt32.not_lt.mp hsize]
    · simp [hhead, hmagic]

theorem handedOver_eq_some {s : PacketState} {r : ChannelRead} {buf : Nat} {size : UInt32}
    (h : handedOver s r = some (buf, size)) : buf = 20 ∧ size = r.head.sizeOfPacket := by
  unfold handedOver at h
  split at h
  · cases h
    exact ⟨rfl, rfl⟩
  · cases h
    exact ⟨rfl, rfl⟩
  · cases h
  · cases h

theorem hasRead_readInto (packeBuf : Vector UInt8 1044) (hasRead : Fin 1045) :
    (readInto packeBuf hasRead).hasRead.toNat = hasRead.val := by
  have hlt := hasRead.isLt
  show (UInt32.ofInt (hasRead.val : Int)).toNat = hasRead.val
  rw [UInt32.ofInt, UInt32.toNat_ofNat']
  omega

/-- What is handed over lies inside what was received, and a packet that is skipped or could not
be read changes nothing. -/
def InsideRead (s : PacketState) (r : ChannelRead) (hasRead : Nat) : Prop :=
  (∀ buf size, handedOver s r = some (buf, size) → buf + size.toNat ≤ hasRead) ∧
    ∀ res s', getPacket s r = (res, s') → res = .skip ∨ res = .fail → s' = s

/-- **The analyser is kept inside the packet, unless the size in the header makes the check of the
size wrap** and nothing else is wrong with the packet. -/
theorem insideRead_iff (s : PacketState) (packeBuf : Vector UInt8 1044) (hasRead : Fin 1045) :
    InsideRead s (readInto packeBuf hasRead) hasRead ↔
      ¬ (hasRead.val = 1044 ∧ (readInto packeBuf hasRead).head.magicnum = magicNum ∧
        0xFFFFFFEC ≤ (readInto packeBuf hasRead).head.sizeOfPacket ∧
        (readInto packeBuf hasRead).head.Follows s) := by
  have hhas := hasRead_readInto packeBuf hasRead
  have hle : hasRead.val ≤ 1044 := by omega
  generalize readInto packeBuf hasRead = r at hhas
  generalize hasRead.val = n at hhas hle
  have hread : channelRead r = true ↔ n = 1044 := by
    simp only [channelRead, UInt32.lt_iff_toNat_lt, hhas, decide_eq_true_iff]
    show ¬ n < 1044 ↔ n = 1044
    omega
  have hsome := handedOver_isSome_iff s r
  simp only [UInt32.le_iff_toNat_le, UInt32.toNat_add, packetHeadSize, UInt32.reduceToNat, hhas,
    hread] at hsome ⊢
  constructor
  · rintro ⟨hin, -⟩ ⟨hn, hmagic, hsize, hfollows⟩
    have hlt := r.head.sizeOfPacket.toNat_lt
    obtain ⟨⟨buf, size⟩, hout⟩ := Option.isSome_iff_exists.mp
      (hsome.mpr ⟨hn, by omega, hmagic, by omega, hfollows⟩)
    obtain ⟨rfl, rfl⟩ := handedOver_eq_some hout
    have := hin _ _ hout
    omega
  · intro hok
    refine ⟨fun buf size hout => ?_, fun res s' => getPacket_state_of_skip⟩
    obtain ⟨rfl, rfl⟩ := handedOver_eq_some hout
    obtain ⟨hn, -, hmagic, hfit, hfollows⟩ := hsome.mp (by rw [hout]; rfl)
    have hsize : ¬ 4294967276 ≤ r.head.sizeOfPacket.toNat := fun h =>
      hok ⟨hn, hmagic, h, hfollows⟩
    omega

/-- The header of a first packet that announces `0xFFFFFFF0` bytes. -/
theorem not_insideRead_wrap :
    ¬ InsideRead initPacket (readInto
      (.ofFn fun i => (leBytes magicNum ++ leBytes 0 ++ leBytes 5 ++ leBytes 0 ++
        leBytes 0xFFFFFFF0).getD i 0) 1044) 1044 := by
  rintro ⟨hin, -⟩
  have h := hin 20 0xFFFFFFF0 (by decide +kernel)
  exact absurd h (by decide)

end SprdHal.Nvitem

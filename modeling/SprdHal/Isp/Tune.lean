import SprdHal.Lib.Bytes
import SprdHal.Lib.Memory

/-!
# Upload and download of the tune structure (`isp_param_tune_com.c`)

`ispParser(ISP_PARSER_UP_PARAM)` puts the tune structure of the sensor behind two headers, and
`ispParser(ISP_PARSER_DOWN)` copies it back. The inner header holds `packet_len`, which counts the
header; on the way up the same number is the length of the copy out of the structure, and on the way
down the header is subtracted first.
-/

namespace SprdHal.Isp

open SprdHal.Lib

/-! ## Memory and buffers -/

/-- `sizeof(struct sensor_raw_tune_info)`: 35 words, the parts from `blc` to `special_effect`, each
of whole words, and 256 reserved words. -/
def tuneInfoSize : Nat :=
  35 * 4 +
  (68 + 232 + 188 + 544 + 8 + 344 + 4 + 4 + 164 + 624 + 24 + 88 + 84 + 16 + 16 + 8 + 4 + 16 + 296 +
    172 + 64 + 4 + 84 + 212 + 208 + 16 * 24) +
  256 * 4

/-- `ISP_VERSION_0000_ID` -/
def version0000 : UInt32 := 0x00000000

/-- `ISP_VERSION_0001_ID` -/
def version0001 : UInt32 := 0x00010000

/-- `ISP_PACKET_VERIFY_ID` -/
def verifyId : UInt32 := 0x71717567

/-- `ISP_PACKET_END_ID` -/
def endId : UInt32 := 0x69656e64

/-- `ISP_TYPE_PARAM` -/
def typeParam : UInt32 := 0x0001

/-- `ISP_PACKET_ALL` -/
def packetAll : UInt32 := 0x0000

/-- What `Sensor_GetInfo` leads to; a null pointer is `0`. -/
structure Sensor where
  /-- `raw_info_ptr->version_info->version_id` -/
  versionId : UInt32
  /-- `raw_info_ptr->tune_ptr` -/
  tunePtr : Nat
  /-- `param_addr` and `len` of `fix_ptr->lnc.map[size_id][awb_id]` -/
  lncMap : UInt32 → UInt32 → Nat × UInt32
  /-- `addr` and `len` of `fix_ptr->awb` -/
  awbMap : Nat × UInt32

/-- A range of memory that is copied: its address and length. -/
abbrev Range := Nat × Nat

/-- `struct isp_parser_buf_rtn`; a buffer is shown with its contents. -/
structure BufRtn where
  bufAddr : Option (List UInt8)
  bufLen : UInt32

/-- `ispParserAlloc`; `block` is what `malloc` finds. -/
def ispParserAlloc (block : Option Mem) (size : UInt32) : Option (List UInt8) :=
  if size ≠ 0 then block.map fun m => m.bytes 0 size.toNat else none

/-- `data_addr[i] = w` -/
def putWord (buf : List UInt8) (i : Nat) (w : UInt32) : List UInt8 := patch buf (4 * i) (leBytes w)

/-- `param_ptr[i]` for a pointer to words. -/
def word (m : Mem) (p i : Nat) : UInt32 := leWord (m.bytes (p + 4 * i) 4) 0

/-! ## Upload -/

/-- What an upload returns, and what it has copied out of the tune structure. -/
structure Up where
  rtn : BufRtn
  reads : List Range

/-- `ispGetParamSizeV0000`, `ispGetParamSizeV0001` -/
def ispGetParamSize : UInt32 := 0x10 + UInt32.ofNat tuneInfoSize

/-- The body of `ispGetUpParamV0000` and `ispGetUpParamV0001`. -/
def ispGetUpParam (s : Sensor) (m : Mem) (block : Option Mem) : Up :=
  let dataLen := ispGetParamSize
  let bufLen := dataLen + 0x10
  match ispParserAlloc block bufLen with
  | some buf =>
    let buf := putWord buf 0 s.versionId
    let buf := putWord buf 1 packetAll
    let buf := putWord buf 2 dataLen
    let buf := putWord buf 3 0
    let buf := patch buf 16 (m.bytes s.tunePtr dataLen.toNat)
    ⟨⟨some buf, bufLen⟩, [(s.tunePtr, dataLen.toNat)]⟩
  | none => ⟨⟨none, 0⟩, []⟩

def ispGetUpParamV0000 := ispGetUpParam

def ispGetUpParamV0001 := ispGetUpParam

/-- `_ispParserUpParam`; for another version `rtn_param_ptr` stays as it was. -/
def ispParserUpParam (s : Sensor) (m : Mem) (block : Option Mem) (rtn : BufRtn) : Up :=
  if s.versionId = version0000 then ispGetUpParamV0000 s m block
  else if s.versionId = version0001 then ispGetUpParamV0001 s m block
  else ⟨rtn, []⟩

/-- `_ispParserUpHnadle` with `ISP_PARSER_UP_PARAM`; the blocks are those of the inner and of the
outer buffer. -/
def ispParserUpHnadle (s : Sensor) (m : Mem) (inner outer : Option Mem) (rtn : BufRtn) : Up :=
  let up := ispParserUpParam s m inner rtn
  let dataLen := 0x10 + up.rtn.bufLen
  match ispParserAlloc outer dataLen with
  | some buf =>
    let buf := putWord buf 0 verifyId
    let buf := putWord buf 1 typeParam
    let buf := putWord buf 2 dataLen
    let buf := patch buf 12 ((up.rtn.bufAddr.getD []).take up.rtn.bufLen.toNat)
    let buf := putWord buf ((dataLen >>> 2) - 1).toNat endId
    ⟨⟨some buf, dataLen⟩, up.reads⟩
  -- the inner buffer is what the caller gets
  | none => up

/-! ## Download -/

/-- What a download returns and leaves in memory, and where it has written. -/
structure Down where
  rtn : Nat
  mem : Mem
  writes : List Range

/-- `_ispParamVerify` -/
def ispParamVerify (m : Mem) (p : Nat) : Nat :=
  let packetSize := word m p 2
  if verifyId ≠ word m p 0 then 1
  else if endId ≠ word m p (packetSize / 4 - 1).toNat then 1
  else 0

/-- The `memcpy` of the setters, into `dst` from the data of the packet at `p`. -/
def setParam (m : Mem) (p dst : Nat) (dataLen : UInt32) : Down :=
  ⟨0, m.store dst (m.bytes (p + 16) dataLen.toNat), [(dst, dataLen.toNat)]⟩

/-- `_ispSetAllParamV0000`, `_ispSetAllParamV0001` -/
def ispSetAllParam (s : Sensor) (m : Mem) (p : Nat) : Down :=
  let dataLen := word m p 2 - 0x10
  if s.tunePtr ≠ 0 ∧ dataLen ≠ 0 then setParam m p s.tunePtr dataLen else ⟨1, m, []⟩

/-- `_ispSetLncParamV0000`, `_ispSetLncParamV0001` -/
def ispSetLncParam (s : Sensor) (m : Mem) (p : Nat) : Down :=
  let dataLen := word m p 2 - 0x10
  let moduleInfo := word m p 3
  let (addr, len) := s.lncMap ((moduleInfo >>> 4) &&& 0x0f) (moduleInfo &&& 0x0f)
  if addr ≠ 0 ∧ dataLen ≠ 0 ∧ len = dataLen then setParam m p addr dataLen else ⟨1, m, []⟩

/-- `_ispSetAwbParamV0000` -/
def ispSetAwbParamV0000 (s : Sensor) (m : Mem) (p : Nat) : Down :=
  let dataLen := word m p 2 - 0x10
  let (addr, len) := s.awbMap
  if addr ≠ 0 ∧ dataLen ≤ len then setParam m p addr dataLen else ⟨1, m, []⟩

/-- `ispGetDownParamFunV0000`: the entries of `s_isp_fun_tab_v0000` that are not null. -/
def ispGetDownParamFunV0000 (cmd : UInt32) : Option (Sensor → Mem → Nat → Down) :=
  if cmd = packetAll then some ispSetAllParam
  else if cmd = 0x001a then some ispSetLncParam
  else if cmd = 0x001b then some ispSetAwbParamV0000
  else none

/-- `ispGetDownParamFunV0001`: the entries of `s_isp_fun_tab_v0001` that are not null. -/
def ispGetDownParamFunV0001 (cmd : UInt32) : Option (Sensor → Mem → Nat → Down) :=
  if cmd = packetAll then some ispSetAllParam
  else if cmd = 0x001a then some ispSetLncParam
  else none

/-- `_ispParserDownParam` -/
def ispParserDownParam (s : Sensor) (m : Mem) (p : Nat) : Down :=
  let param := p + 0x0c
  let versionId := word m param 0
  let moduleId := word m param 1
  let fn :=
    if versionId = version0000 then ispGetDownParamFunV0000 moduleId
    else if versionId = version0001 then ispGetDownParamFunV0001 moduleId
    else none
  match fn with
  | some fn => fn s m param
  | none => ⟨0, m, []⟩

/-- The handler that a packet is given to. -/
inductive Handled where
  | cmd
  | param (d : Down)
  | level
  | unknown

/-- `_ispParserDownHnadle`; the result of `_ispParamVerify` is overwritten by that of the handler. -/
def ispParserDownHnadle (s : Sensor) (m : Mem) (p : Nat) : Handled :=
  let type := word m p 1
  if type = 0x0000 then .cmd
  else if type = typeParam then .param (ispParserDownParam s m p)
  else if type = 0x0002 then .level
  else .unknown

/-! ## The round trip -/

/-- Nothing beyond the tune structure is read. -/
def ReadsWithin (s : Sensor) (reads : List Range) : Prop :=
  ∀ r ∈ reads, s.tunePtr ≤ r.1 ∧ r.1 + r.2 ≤ s.tunePtr + tuneInfoSize

/-- The packet begins with the verify id, holds its length and ends with the end id. -/
structure Framed (packet : List UInt8) : Prop where
  verify : leWord packet 0 = verifyId
  length : (leWord packet 8).toNat = packet.length
  last : 4 ≤ packet.length ∧ leWord packet (packet.length - 4) = endId

/-- Wherever the packet lies outside of the tune structure, and whatever has become of the structure:
the packet is accepted, and handing it back writes the structure and makes it what it was in `m`. -/
def Restores (s : Sensor) (m : Mem) (packet : List UInt8) : Prop :=
  ∀ (m' : Mem) (p : Nat), m'.bytes p packet.length = packet →
    (p + packet.length ≤ s.tunePtr ∨ s.tunePtr + tuneInfoSize ≤ p) →
    ispParamVerify m' p = 0 ∧
    ∃ d, ispParserDownHnadle s m' p = .param d ∧ d.rtn = 0 ∧
      d.writes = [(s.tunePtr, tuneInfoSize)] ∧
      d.mem.bytes s.tunePtr tuneInfoSize = m.bytes s.tunePtr tuneInfoSize

/-- What the upload owes to the tool and to the sensor. -/
structure RoundTrip (s : Sensor) (m : Mem) (up : Up) : Prop where
  reads : ReadsWithin s up.reads
  packet : ∃ packet, up.rtn.bufAddr = some packet ∧ up.rtn.bufLen.toNat = packet.length ∧
    Framed packet ∧ Restores s m packet

/-! ### The packet -/

/-- The packet that a sensor's tune structure becomes. -/
def upPacket (s : Sensor) (m : Mem) : List UInt8 :=
  leBytes verifyId ++ leBytes typeParam ++ leBytes (0x10 + (ispGetParamSize + 0x10)) ++
    (leBytes s.versionId ++ leBytes packetAll ++ leBytes ispGetParamSize ++ leBytes 0 ++
      m.bytes s.tunePtr ispGetParamSize.toNat) ++
    leBytes endId

theorem toNat_ispGetParamSize : ispGetParamSize.toNat = tuneInfoSize + 16 := by
  decide

theorem length_upPacket (s : Sensor) (m : Mem) : (upPacket s m).length = tuneInfoSize + 48 := by
  simp only [upPacket, List.length_append, length_leBytes, Mem.length_bytes, toNat_ispGetParamSize]
  omega

/-- A word behind what has been filled in. -/
theorem putWord_fill (pre : List UInt8) {buf : List UInt8} (w : UInt32) {i : Nat}
    (hi : pre.length = 4 * i) (h : 4 ≤ buf.length) :
    putWord (pre ++ buf) i w = pre ++ leBytes w ++ buf.drop 4 := by
  unfold putWord
  rw [← hi, patch_length_append pre (by rw [length_leBytes]; exact h), length_leBytes,
    List.append_assoc]

/-- The rest of a buffer is filled in. -/
theorem patch_fill (pre : List UInt8) {buf src : List UInt8} {i : Nat} (hi : pre.length = i)
    (h : src.length = buf.length) : patch (pre ++ buf) i src = pre ++ src := by
  rw [← hi, patch_length_append pre (Nat.le_of_eq h), h, List.drop_length, List.append_nil]

/-- A block that `malloc` finds. -/
theorem ispParserAlloc_some (junk : Mem) {size : UInt32} (h : size ≠ 0) :
    ∃ buf, ispParserAlloc (some junk) size = some buf ∧ buf.length = size.toNat := by
  refine ⟨junk.bytes 0 size.toNat, ?_, Mem.length_bytes _ _ _⟩
  unfold ispParserAlloc
  rw [if_pos h]
  rfl

theorem ispParserAlloc_none (size : UInt32) : ispParserAlloc none size = none := by
  unfold ispParserAlloc
  split <;> rfl

/-- The inner buffer: a header of four words, and what lies at `tune_ptr`. -/
theorem ispGetUpParam_some (s : Sensor) (m junk : Mem) :
    ispGetUpParam s m (some junk) =
      ⟨⟨some (leBytes s.versionId ++ leBytes packetAll ++ leBytes ispGetParamSize ++ leBytes 0 ++
        m.bytes s.tunePtr ispGetParamSize.toNat), ispGetParamSize + 0x10⟩,
        [(s.tunePtr, ispGetParamSize.toNat)]⟩ := by
  have hne : ispGetParamSize + 0x10 ≠ 0 := by decide
  have hsize : (ispGetParamSize + 0x10).toNat = ispGetParamSize.toNat + 16 := by decide
  obtain ⟨buf, halloc, hlen⟩ := ispParserAlloc_some junk hne
  rw [hsize] at hlen
  have hfill : patch (putWord (putWord (putWord (putWord buf 0 s.versionId) 1 packetAll) 2
      ispGetParamSize) 3 0) 16 (m.bytes s.tunePtr ispGetParamSize.toNat) =
      leBytes s.versionId ++ leBytes packetAll ++ leBytes ispGetParamSize ++ leBytes 0 ++
        m.bytes s.tunePtr ispGetParamSize.toNat := by
    rw [← List.nil_append buf, putWord_fill [] _ rfl (by omega),
      putWord_fill _ _ rfl (by rw [List.length_drop]; omega),
      putWord_fill _ _ rfl (by rw [List.length_drop, List.length_drop]; omega),
      putWord_fill _ _ rfl (by rw [List.length_drop, List.length_drop, List.length_drop]; omega),
      patch_fill (i := 16) _ rfl (by simp only [List.length_drop, Mem.length_bytes]; omega), List.nil_append]
  unfold ispGetUpParam
  simp only [halloc, hfill]

theorem ispGetUpParam_none (s : Sensor) (m : Mem) : ispGetUpParam s m none = ⟨⟨none, 0⟩, []⟩ := by
  unfold ispGetUpParam
  simp only [ispParserAlloc_none]

/-- The outer buffer around an inner one: three words in front and one behind. -/
theorem outer_fill {buf inner : List UInt8} {dataLen : UInt32} {n : Nat}
    (hlen : buf.length = inner.length + 16) (hend : inner.length + 12 = 4 * n) :
    putWord (patch (putWord (putWord (putWord buf 0 verifyId) 1 typeParam) 2 dataLen) 12 inner) n
      endId =
      leBytes verifyId ++ leBytes typeParam ++ leBytes dataLen ++ inner ++ leBytes endId := by
  -- the inner buffer is copied into the middle, so the last word is cut off first
  obtain ⟨rest, hrest, hrlen⟩ : ∃ rest, buf.drop 12 = rest ∧ rest.length = inner.length + 4 :=
    ⟨_, rfl, by rw [List.length_drop]; omega⟩
  have hwords : putWord (putWord (putWord buf 0 verifyId) 1 typeParam) 2 dataLen =
      leBytes verifyId ++ leBytes typeParam ++ leBytes dataLen ++ rest := by
    rw [← List.nil_append buf, putWord_fill [] _ rfl (by omega),
      putWord_fill _ _ rfl (by rw [List.length_drop]; omega),
      putWord_fill _ _ rfl (by rw [List.length_drop, List.length_drop]; omega), List.nil_append,
      List.drop_drop, List.drop_drop, hrest]
  have h12 : (leBytes verifyId ++ leBytes typeParam ++ leBytes dataLen).length = 12 := rfl
  have hcopy := patch_length_append (leBytes verifyId ++ leBytes typeParam ++ leBytes dataLen)
    (show inner.length ≤ rest.length by omega)
  rw [h12, ← List.append_assoc] at hcopy
  rw [hwords, hcopy, putWord_fill _ _ (by rw [List.length_append, h12]; omega)
    (by rw [List.length_drop]; omega), List.drop_drop, List.drop_eq_nil_of_le (by omega),
    List.append_nil]

section Upload

variable {s : Sensor} (hv : s.versionId = version0000 ∨ s.versionId = version0001)

include hv

theorem ispParserUpParam_eq (m : Mem) (block : Option Mem) (rtn : BufRtn) :
    ispParserUpParam s m block rtn = ispGetUpParam s m block := by
  unfold ispParserUpParam
  split
  · rfl
  · rename_i h
    rw [if_pos (hv.resolve_left h)]
    rfl

/-- The packet, if there is memory for both buffers. -/
theorem ispParserUpHnadle_some (m junk junk' : Mem) (rtn : BufRtn) :
    ispParserUpHnadle s m (some junk) (some junk') rtn =
      ⟨⟨some (upPacket s m), 0x10 + (ispGetParamSize + 0x10)⟩,
        [(s.tunePtr, ispGetParamSize.toNat)]⟩ := by
  have hne : 0x10 + (ispGetParamSize + 0x10) ≠ 0 := by decide
  have hsize : (0x10 + (ispGetParamSize + 0x10)).toNat = ispGetParamSize.toNat + 32 := by decide
  have hsize' : (ispGetParamSize + 0x10).toNat = ispGetParamSize.toNat + 16 := by decide
  have hlast : ispGetParamSize.toNat + 28 =
      4 * ((0x10 + (ispGetParamSize + 0x10)) >>> 2 - 1).toNat := by decide
  obtain ⟨buf, halloc, hlen⟩ := ispParserAlloc_some junk' hne
  unfold ispParserUpHnadle
  rw [ispParserUpParam_eq hv, ispGetUpParam_some]
  simp only [halloc, Option.getD_some]
  have hinner : (leBytes s.versionId ++ leBytes packetAll ++ leBytes ispGetParamSize ++ leBytes 0 ++
      m.bytes s.tunePtr ispGetParamSize.toNat).length = (ispGetParamSize + 0x10).toNat := by
    rw [hsize']
    simp only [List.length_append, length_leBytes, Mem.length_bytes]
    omega
  rw [← hinner, List.take_length, outer_fill (by omega) (by omega)]
  rfl

/-- Without the inner buffer, the packet has no data. -/
theorem ispParserUpHnadle_no_inner (m junk : Mem) (rtn : BufRtn) :
    ispParserUpHnadle s m none (some junk) rtn =
      ⟨⟨some (leBytes verifyId ++ leBytes typeParam ++ leBytes 0x10 ++ leBytes endId), 0x10⟩,
        []⟩ := by
  have hne : 0x10 + (0 : UInt32) ≠ 0 := by decide
  obtain ⟨buf, halloc, hlen⟩ := ispParserAlloc_some junk hne
  have hfill := @outer_fill buf [] 0x10 3 hlen rfl
  rw [List.append_nil] at hfill
  unfold ispParserUpHnadle
  rw [ispParserUpParam_eq hv, ispGetUpParam_none]
  simp only [halloc]
  exact congrArg (fun b => Up.mk ⟨some b, 0x10⟩ []) hfill

/-- Without the outer buffer, the inner one is returned. -/
theorem ispParserUpHnadle_no_outer (m : Mem) (block : Option Mem) (rtn : BufRtn) :
    ispParserUpHnadle s m block none rtn = ispGetUpParam s m block := by
  unfold ispParserUpHnadle
  rw [ispParserUpParam_eq hv]
  simp only [ispParserAlloc_none]

end Upload

/-! ### What the packet says -/

/-- The word `w` is the `i`-th one of the bytes. -/
def HasWord (bs : List UInt8) (i : Nat) (w : UInt32) : Prop :=
  ∃ a b, bs = a ++ leBytes w ++ b ∧ a.length = 4 * i

namespace HasWord

variable {bs : List UInt8} {i : Nat} {w : UInt32}

theorem leWord_eq (h : HasWord bs i w) : leWord bs (4 * i) = w := by
  obtain ⟨a, b, rfl, hi⟩ := h
  rw [← hi]
  exact leWord_leBytes a w b

/-- In memory. -/
theorem word_eq (h : HasWord bs i w) {m : Mem} {p n : Nat} (hm : m.bytes p n = bs) :
    word m p i = w := by
  obtain ⟨a, b, rfl, hi⟩ := h
  have hmid := Mem.bytes_middle hm
  rw [length_leBytes, hi] at hmid
  unfold word
  rw [hmid]
  exact leWord_leBytes [] w []

/-- One of several words in front of other bytes. -/
theorem of_words {ws : List UInt32} (h : ws[i]? = some w) (rest : List UInt8) :
    HasWord (ws.flatMap leBytes ++ rest) i w := by
  induction ws generalizing i with
  | nil => exact nomatch h
  | cons v ws ih =>
    rw [List.flatMap_cons, List.append_assoc]
    cases i with
    | zero =>
      rw [List.getElem?_cons_zero, Option.some.injEq] at h
      exact ⟨[], _, by rw [h]; rfl, rfl⟩
    | succ i =>
      rw [List.getElem?_cons_succ] at h
      obtain ⟨a, b, hab, ha⟩ := ih h
      refine ⟨leBytes v ++ a, b, by rw [hab]; simp only [List.append_assoc], ?_⟩
      rw [List.length_append, length_leBytes, ha]
      omega

/-- The last one. -/
theorem of_last {a : List UInt8} (ha : a.length = 4 * i) : HasWord (a ++ leBytes w) i w :=
  ⟨a, [], (List.append_nil _).symm, ha⟩

end HasWord

section Words

variable (s : Sensor) (m : Mem)

/-- The words of both headers. -/
def upWords : List UInt32 :=
  [verifyId, typeParam, 0x10 + (ispGetParamSize + 0x10), s.versionId, packetAll, ispGetParamSize, 0]

theorem upPacket_eq :
    upPacket s m =
      (upWords s).flatMap leBytes ++ (m.bytes s.tunePtr ispGetParamSize.toNat ++ leBytes endId) := by
  unfold upPacket upWords
  rw [List.flatMap_cons, List.flatMap_cons, List.flatMap_cons, List.flatMap_cons, List.flatMap_cons,
    List.flatMap_cons, List.flatMap_cons, List.flatMap_nil, List.append_nil]
  -- kept from being evaluated
  generalize m.bytes s.tunePtr ispGetParamSize.toNat = data
  generalize leBytes endId = last
  simp only [List.append_assoc]

theorem hasWord_upPacket {i : Nat} {w : UInt32} (h : (upWords s)[i]? = some w) :
    HasWord (upPacket s m) i w := by
  rw [upPacket_eq]
  exact HasWord.of_words h _

theorem hasWord_upPacket_end :
    HasWord (upPacket s m) ((0x10 + (ispGetParamSize + 0x10)) / 4 - 1).toNat endId := by
  have hi : ((0x10 + (ispGetParamSize + 0x10)) / 4 - 1).toNat = tuneInfoSize / 4 + 11 := by decide
  have hsize : tuneInfoSize + 44 = 4 * (tuneInfoSize / 4 + 11) := by decide
  refine HasWord.of_last ?_
  simp only [List.length_append, length_leBytes, Mem.length_bytes, toNat_ispGetParamSize]
  rw [hi, ← hsize]
  omega

theorem framed_upPacket : Framed (upPacket s m) where
  verify := (hasWord_upPacket s m (i := 0) rfl).leWord_eq
  length := by
    have h := (hasWord_upPacket s m (i := 2) rfl).leWord_eq
    have hsize : (0x10 + (ispGetParamSize + 0x10)).toNat = tuneInfoSize + 48 := by decide
    rw [show 8 = 4 * 2 from rfl, h, hsize, length_upPacket]
  last := by
    have hi : tuneInfoSize + 48 - 4 =
        4 * ((0x10 + (ispGetParamSize + 0x10)) / 4 - 1).toNat := by decide
    rw [length_upPacket, hi]
    exact ⟨by omega, (hasWord_upPacket_end s m).leWord_eq⟩

end Words

/-! ### The way down -/

section Download

variable {s : Sensor} {m m' : Mem} {p : Nat}

/-- The packet is accepted. -/
theorem ispParamVerify_upPacket (hm : m'.bytes p (upPacket s m).length = upPacket s m) :
    ispParamVerify m' p = 0 := by
  have hverify : word m' p 0 = verifyId := (hasWord_upPacket s m rfl).word_eq hm
  have hsize : word m' p 2 = 0x10 + (ispGetParamSize + 0x10) := (hasWord_upPacket s m rfl).word_eq hm
  unfold ispParamVerify
  simp only [hverify, hsize, (hasWord_upPacket_end s m).word_eq hm, ne_eq, not_true_eq_false,
    if_false]

/-- The words behind the outer header are those of the inner one. -/
theorem word_inner (i : Nat) : word m' (p + 0x0c) i = word m' p (i + 3) := by
  unfold word
  rw [show p + 0x0c + 4 * i = p + 4 * (i + 3) by omega]

/-- The data of the packet begins with the tune structure. -/
theorem data_upPacket (hm : m'.bytes p (upPacket s m).length = upPacket s m) :
    m'.bytes (p + 0x0c + 16) tuneInfoSize = m.bytes s.tunePtr tuneInfoSize := by
  rw [upPacket_eq, toNat_ispGetParamSize, Mem.bytes_add, List.append_assoc,
    ← List.append_assoc _ (m.bytes s.tunePtr tuneInfoSize)] at hm
  have hdata := Mem.bytes_middle hm
  rwa [Mem.length_bytes] at hdata

/-- The length that the setter computes. -/
theorem dataLen_eq : (ispGetParamSize - 0x10).toNat = tuneInfoSize := by
  decide

variable (hv : s.versionId = version0000 ∨ s.versionId = version0001) (ht : s.tunePtr ≠ 0)

include hv ht

/-- The setter of the packet writes the tune structure only. -/
theorem ispParserDownParam_upPacket (hm : m'.bytes p (upPacket s m).length = upPacket s m) :
    ispParserDownParam s m' p =
      ⟨0, m'.store s.tunePtr (m.bytes s.tunePtr tuneInfoSize), [(s.tunePtr, tuneInfoSize)]⟩ := by
  have hversion : word m' p 3 = s.versionId := (hasWord_upPacket s m rfl).word_eq hm
  have hmodule : word m' p 4 = packetAll := (hasWord_upPacket s m rfl).word_eq hm
  have hlen : word m' p 5 = ispGetParamSize := (hasWord_upPacket s m rfl).word_eq hm
  have hne : ispGetParamSize - 0x10 ≠ 0 := by decide
  have hset : ispSetAllParam s m' (p + 0x0c) =
      ⟨0, m'.store s.tunePtr (m.bytes s.tunePtr tuneInfoSize), [(s.tunePtr, tuneInfoSize)]⟩ := by
    unfold ispSetAllParam
    simp only [word_inner, Nat.reduceAdd, hlen]
    rw [if_pos ⟨ht, hne⟩]
    unfold setParam
    rw [dataLen_eq, data_upPacket hm]
  unfold ispParserDownParam
  simp only [word_inner, Nat.zero_add, Nat.reduceAdd, hversion, hmodule]
  rcases hv with hv | hv
  · simp only [if_pos hv, ispGetDownParamFunV0000, if_true]
    exact hset
  · have hv' : s.versionId ≠ version0000 := by rw [hv]; decide
    simp only [if_neg hv', if_pos hv, ispGetDownParamFunV0001, if_true]
    exact hset

theorem restores_upPacket (m : Mem) : Restores s m (upPacket s m) := by
  intro m' p hm _
  have htype : word m' p 1 = typeParam := (hasWord_upPacket s m rfl).word_eq hm
  refine ⟨ispParamVerify_upPacket hm, ispParserDownParam s m' p, ?_, ?_⟩
  · unfold ispParserDownHnadle
    simp only [htype]
    rfl
  · rw [ispParserDownParam_upPacket hv ht hm]
    refine ⟨rfl, rfl, ?_⟩
    have hself := Mem.bytes_store_self m' s.tunePtr (m.bytes s.tunePtr tuneInfoSize)
    rwa [Mem.length_bytes] at hself

end Download

/-! ### What holds of an upload -/

section Upload

variable {s : Sensor}

/-- The copy out of the tune structure goes 16 bytes beyond it. -/
theorem not_readsWithin : ¬ReadsWithin s [(s.tunePtr, ispGetParamSize.toNat)] := by
  intro h
  obtain ⟨-, hle⟩ := h _ List.mem_cons_self
  rw [toNat_ispGetParamSize] at hle
  omega

/-- A packet without data is taken for one of another version: nothing is written. -/
theorem not_restores_empty (m : Mem) :
    ¬Restores s m (leBytes verifyId ++ leBytes typeParam ++ leBytes 0x10 ++ leBytes endId) := by
  obtain ⟨packet, hpacket⟩ : ∃ packet,
      packet = leBytes verifyId ++ leBytes typeParam ++ leBytes 0x10 ++ leBytes endId := ⟨_, rfl⟩
  have hwords : packet = [verifyId, typeParam, 0x10, endId].flatMap leBytes ++ [] := by
    rw [hpacket]
    rfl
  rw [← hpacket]
  intro h
  -- the packet lies behind the structure
  obtain ⟨p, hp⟩ : ∃ p, p = s.tunePtr + tuneInfoSize := ⟨_, rfl⟩
  have hm := Mem.bytes_store_self m p packet
  obtain ⟨-, d, hd, -, hwrites, -⟩ := h _ p hm (Or.inr (Nat.le_of_eq hp.symm))
  rw [hwords] at hm
  have htype : word _ p 1 = typeParam := (HasWord.of_words rfl []).word_eq hm
  have hversion : word _ p 3 = endId := (HasWord.of_words rfl []).word_eq hm
  rw [← hwords] at htype hversion
  unfold ispParserDownHnadle at hd
  simp only [htype] at hd
  obtain rfl : ispParserDownParam s (m.store p packet) p = d := Handled.param.inj hd
  unfold ispParserDownParam at hwrites
  simp only [word_inner, Nat.zero_add, hversion] at hwrites
  exact nomatch hwrites

variable (hv : s.versionId = version0000 ∨ s.versionId = version0001) (m : Mem) (rtn : BufRtn)

include hv

/-- With memory for both buffers, the packet is what it has to be: only the copy out of the
structure is too long. -/
theorem framed_and_restores (ht : s.tunePtr ≠ 0) (junk junk' : Mem) :
    ∃ packet, (ispParserUpHnadle s m (some junk) (some junk') rtn).rtn =
        ⟨some packet, UInt32.ofNat packet.length⟩ ∧
      Framed packet ∧ Restores s m packet := by
  refine ⟨upPacket s m, ?_, framed_upPacket s m, restores_upPacket hv ht m⟩
  have hsize : 0x10 + (ispGetParamSize + 0x10) = UInt32.ofNat (tuneInfoSize + 48) := by decide
  rw [ispParserUpHnadle_some hv, length_upPacket, ← hsize]

/-- No upload keeps to the structure and can be handed back. -/
theorem not_roundTrip (inner outer : Option Mem) :
    ¬RoundTrip s m (ispParserUpHnadle s m inner outer rtn) := by
  intro h
  cases inner with
  | some junk =>
    cases outer with
    | some junk' =>
      rw [ispParserUpHnadle_some hv] at h
      exact not_readsWithin h.reads
    | none =>
      rw [ispParserUpHnadle_no_outer hv, ispGetUpParam_some] at h
      exact not_readsWithin h.reads
  | none =>
    cases outer with
    | some junk' =>
      rw [ispParserUpHnadle_no_inner hv] at h
      obtain ⟨packet, hpacket, -, -, hrestores⟩ := h.packet
      obtain rfl := Option.some.inj hpacket
      exact not_restores_empty m hrestores
    | none =>
      rw [ispParserUpHnadle_no_outer hv, ispGetUpParam_none] at h
      obtain ⟨packet, hpacket, -⟩ := h.packet
      exact nomatch hpacket

end Upload

/-- A sensor of version 0000 with its tune structure at `0x1000`. -/
def sensor0000 : Sensor := ⟨version0000, 0x1000, fun _ _ => (0, 0), (0, 0)⟩

/-- What is uploaded of this sensor is restored. -/
theorem framed_and_restores_sensor0000 :
    ∃ packet, (ispParserUpHnadle sensor0000 (fun _ => 0) (some fun _ => 0) (some fun _ => 0)
        ⟨none, 0⟩).rtn = ⟨some packet, UInt32.ofNat packet.length⟩ ∧
      Framed packet ∧ Restores sensor0000 (fun _ => 0) packet :=
  framed_and_restores (Or.inl rfl) _ _ (by decide) _ _

theorem not_roundTrip_sensor0000 :
    (sensor0000.versionId = version0000 ∨ sensor0000.versionId = version0001) ∧
      ¬RoundTrip sensor0000 (fun _ => 0)
        (ispParserUpHnadle sensor0000 (fun _ => 0) (some fun _ => 0) (some fun _ => 0) ⟨none, 0⟩) :=
  ⟨Or.inl rfl, not_roundTrip (Or.inl rfl) _ _ _ _⟩

/-- A structure full of zeroes in front of other data: the upload reads the 16 bytes behind it. -/
theorem upload_reads_beyond :
    (ispParserUpHnadle sensor0000 (fun _ => 0) (some fun _ => 0) (some fun _ => 0) ⟨none, 0⟩).reads =
        [(0x1000, tuneInfoSize + 16)] ∧
      ¬RoundTrip sensor0000 (fun _ => 0)
        (ispParserUpHnadle sensor0000 (fun _ => 0) (some fun _ => 0) (some fun _ => 0) ⟨none, 0⟩) := by
  rw [ispParserUpHnadle_some (Or.inl rfl), toNat_ispGetParamSize]
  refine ⟨rfl, fun h => ?_⟩
  have hle := (h.reads _ List.mem_cons_self).2
  simp only [sensor0000] at hle
  omega

end SprdHal.Isp

import SprdHal.Lib.Crc

/-!
# `crc16` (`crc16.c`)

`crc16` divides a byte at a time by a table of 256 words. The table is that of the polynomial
0x8005, reflected to 0xA001 (`crc16Table_eq`), so that the loop computes the bit-serial division
(`crc16_eq_serial`). The handlers append the remainder to the data, low byte first, and compare;
what the comparison detects is read off the division.
-/

namespace SprdHal.Engmode

open SprdHal.Lib

/-- `crc16_table` -/
def crc16Table : List UInt16 :=
  [0x0000, 0xC0C1, 0xC181, 0x0140, 0xC301, 0x03C0, 0x0280, 0xC241,
   0xC601, 0x06C0, 0x0780, 0xC741, 0x0500, 0xC5C1, 0xC481, 0x0440,
   0xCC01, 0x0CC0, 0x0D80, 0xCD41, 0x0F00, 0xCFC1, 0xCE81, 0x0E40,
   0x0A00, 0xCAC1, 0xCB81, 0x0B40, 0xC901, 0x09C0, 0x0880, 0xC841,
   0xD801, 0x18C0, 0x1980, 0xD941, 0x1B00, 0xDBC1, 0xDA81, 0x1A40,
   0x1E00, 0xDEC1, 0xDF81, 0x1F40, 0xDD01, 0x1DC0, 0x1C80, 0xDC41,
   0x1400, 0xD4C1, 0xD581, 0x1540, 0xD701, 0x17C0, 0x1680, 0xD641,
   0xD201, 0x12C0, 0x1380, 0xD341, 0x1100, 0xD1C1, 0xD081, 0x1040,
   0xF001, 0x30C0, 0x3180, 0xF141, 0x3300, 0xF3C1, 0xF281, 0x3240,
   0x3600, 0xF6C1, 0xF781, 0x3740, 0xF501, 0x35C0, 0x3480, 0xF441,
   0x3C00, 0xFCC1, 0xFD81, 0x3D40, 0xFF01, 0x3FC0, 0x3E80, 0xFE41,
   0xFA01, 0x3AC0, 0x3B80, 0xFB41, 0x3900, 0xF9C1, 0xF881, 0x3840,
   0x2800, 0xE8C1, 0xE981, 0x2940, 0xEB01, 0x2BC0, 0x2A80, 0xEA41,
   0xEE01, 0x2EC0, 0x2F80, 0xEF41, 0x2D00, 0xEDC1, 0xEC81, 0x2C40,
   0xE401, 0x24C0, 0x2580, 0xE541, 0x2700, 0xE7C1, 0xE681, 0x2640,
   0x2200, 0xE2C1, 0xE381, 0x2340, 0xE101, 0x21C0, 0x2080, 0xE041,
   0xA001, 0x60C0, 0x6180, 0xA141, 0x6300, 0xA3C1, 0xA281, 0x6240,
   0x6600, 0xA6C1, 0xA781, 0x6740, 0xA501, 0x65C0, 0x6480, 0xA441,
   0x6C00, 0xACC1, 0xAD81, 0x6D40, 0xAF01, 0x6FC0, 0x6E80, 0xAE41,
   0xAA01, 0x6AC0, 0x6B80, 0xAB41, 0x6900, 0xA9C1, 0xA881, 0x6840,
   0x7800, 0xB8C1, 0xB981, 0x7940, 0xBB01, 0x7BC0, 0x7A80, 0xBA41,
   0xBE01, 0x7EC0, 0x7F80, 0xBF41, 0x7D00, 0xBDC1, 0xBC81, 0x7C40,
   0xB401, 0x74C0, 0x7580, 0xB541, 0x7700, 0xB7C1, 0xB681, 0x7640,
   0x7200, 0xB2C1, 0xB381, 0x7340, 0xB101, 0x71C0, 0x7080, 0xB041,
   0x5000, 0x90C1, 0x9181, 0x5140, 0x9301, 0x53C0, 0x5280, 0x9241,
   0x9601, 0x56C0, 0x5780, 0x9741, 0x5500, 0x95C1, 0x9481, 0x5440,
   0x9C01, 0x5CC0, 0x5D80, 0x9D41, 0x5F00, 0x9FC1, 0x9E81, 0x5E40,
   0x5A00, 0x9AC1, 0x9B81, 0x5B40, 0x9901, 0x59C0, 0x5880, 0x9841,
   0x8801, 0x48C0, 0x4980, 0x8941, 0x4B00, 0x8BC1, 0x8A81, 0x4A40,
   0x4E00, 0x8EC1, 0x8F81, 0x4F40, 0x8D01, 0x4DC0, 0x4C80, 0x8C41,
   0x4400, 0x84C1, 0x8581, 0x4540, 0x8701, 0x47C0, 0x4680, 0x8641,
   0x8201, 0x42C0, 0x4380, 0x8341, 0x4100, 0x81C1, 0x8081, 0x4040]

/-- `crc16` -/
def crc16 (crc : UInt16) : List UInt8 → UInt16
  | [] => crc
  | b :: buffer =>
    crc16 ((crc >>> 8) ^^^ crc16Table.getD ((crc ^^^ b.toUInt16) &&& 0xff).toNat 0) buffer

/-! ## Bit-serial division -/

/-- The bits of a byte, the least significant one first. -/
def byteBits (b : UInt8) : List Bool := (List.range 8).map b.toBitVec.getLsbD

/-- The bits of a message in the order in which they are divided. -/
def messageBits (d : List UInt8) : List Bool := d.flatMap byteBits

theorem messageBits_cons (b : UInt8) (d : List UInt8) :
    messageBits (b :: d) = byteBits b ++ messageBits d := rfl

theorem messageBits_append (a b : List UInt8) :
    messageBits (a ++ b) = messageBits a ++ messageBits b := List.flatMap_append

/-- One bit of the reflected division by 0xA001. -/
def serialStep (crc : UInt16) (bit : Bool) : UInt16 :=
  let crc := if bit then crc ^^^ 1 else crc
  if crc &&& 1 = 1 then (crc >>> 1) ^^^ 0xA001 else crc >>> 1

def serial (crc : UInt16) (bits : List Bool) : UInt16 := bits.foldl serialStep crc

/-- The division as a reflected CRC of 16 bits. -/
def crc16Poly : Crc 16 := ⟨0xA001#16, rfl⟩

theorem lowBit_iff (c : UInt16) : c &&& 1 = 1 ↔ c.toBitVec.getLsbD 0 = true := by
  have hand : (c &&& 1).toBitVec = (BitVec.ofBool (c.toBitVec.getLsbD 0)).setWidth 16 := by
    rw [UInt16.toBitVec_and]
    exact BitVec.and_one_eq_setWidth_ofBool_getLsbD
  rw [← UInt16.toBitVec_inj, hand]
  cases c.toBitVec.getLsbD 0 <;> decide

theorem toBitVec_serialStep (crc : UInt16) (bit : Bool) :
    (serialStep crc bit).toBitVec = crc16Poly.shift (crc.toBitVec ^^^ Crc.word [bit]) := by
  have hin : (if bit then crc ^^^ 1 else crc).toBitVec = crc.toBitVec ^^^ Crc.word [bit] := by
    cases bit with
    | true => rfl
    | false => exact BitVec.xor_zero.symm
  unfold serialStep
  simp only
  rw [Crc.shift, ← hin]
  generalize (if bit then crc ^^^ 1 else crc) = c
  by_cases hlow : c &&& 1 = 1
  · rw [if_pos hlow, if_pos ((lowBit_iff c).mp hlow)]
    rfl
  · rw [if_neg hlow, if_neg fun h => hlow ((lowBit_iff c).mpr h)]
    rfl

theorem toBitVec_serial (crc : UInt16) (bits : List Bool) :
    (serial crc bits).toBitVec = crc16Poly.feed crc.toBitVec bits := by
  induction bits generalizing crc with
  | nil => rfl
  | cons b bits ih =>
    rw [Crc.feed_cons, ← toBitVec_serialStep, ← ih]
    rfl

/-! ## The table -/

/-- **All entries of the table are right.** -/
theorem crc16Table_eq : ∀ i : Fin 256,
    (crc16Table.getD i 0).toBitVec = crc16Poly.shifts 8 (BitVec.ofNat 16 i) := by
  decide +kernel

theorem getElem?_byteBits (b : UInt8) {i : Nat} (hi : i < 8) :
    (byteBits b)[i]? = some (b.toBitVec.getLsbD i) := by
  rw [byteBits, List.getElem?_map, List.getElem?_range hi]
  rfl

theorem getLsbD_toUInt16 (b : UInt8) {i : Nat} (hi : i < 16) :
    b.toUInt16.toBitVec.getLsbD i = b.toBitVec.getLsbD i := by
  rw [UInt8.toBitVec_toUInt16, BitVec.getLsbD_setWidth, decide_eq_true hi, Bool.true_and]

theorem word_byteBits (b : UInt8) : (Crc.word (byteBits b) : BitVec 16) = b.toUInt16.toBitVec := by
  apply BitVec.eq_of_getLsbD_eq
  intro i hi
  rw [Crc.getLsbD_word, getLsbD_toUInt16 b hi, List.getD_eq_getElem?_getD]
  by_cases h8 : i < 8
  · rw [getElem?_byteBits b h8, decide_eq_true hi]
    rfl
  · have hlen : (byteBits b).length = 8 := rfl
    rw [List.getElem?_eq_none (by omega), BitVec.getLsbD_of_ge _ i (by omega), Option.getD_none,
      Bool.and_false]

/-- The two halves of a remainder. -/
theorem halves (x : BitVec 16) :
    x = (x &&& 0xff#16) ^^^ (x &&& 0xff00#16) ∧
      (∀ i, i < 8 → (x &&& 0xff00#16).getLsbD i = false) ∧
      (x &&& 0xff00#16) >>> 8 = x >>> 8 := by
  have hmask : ∀ i : Fin 16, (0xff#16).getLsbD i = decide (i.val < 8) ∧
      (0xff00#16).getLsbD i = decide (8 ≤ i.val) := by decide
  refine ⟨?_, fun i hi => ?_, ?_⟩
  · apply BitVec.eq_of_getLsbD_eq
    intro i hi
    obtain ⟨h1, h2⟩ := hmask ⟨i, hi⟩
    rw [BitVec.getLsbD_xor, BitVec.getLsbD_and, BitVec.getLsbD_and, h1, h2]
    by_cases h8 : i < 8
    · simp [h8, Nat.not_le.mpr h8]
    · simp [h8, Nat.not_lt.mp h8]
  · rw [BitVec.getLsbD_and, (hmask ⟨i, by omega⟩).2]
    simp [Nat.not_le.mpr hi]
  · apply BitVec.eq_of_getLsbD_eq
    intro i hi
    rw [BitVec.getLsbD_ushiftRight, BitVec.getLsbD_ushiftRight, BitVec.getLsbD_and]
    by_cases hlt : 8 + i < 16
    · rw [(hmask ⟨8 + i, hlt⟩).2]
      simp
    · rw [BitVec.getLsbD_of_ge x _ (by omega)]
      rfl

/-- One byte of the loop is eight bits of the division. -/
theorem toBitVec_crc16_byte (crc : UInt16) (b : UInt8) :
    ((crc >>> 8) ^^^ crc16Table.getD ((crc ^^^ b.toUInt16) &&& 0xff).toNat 0).toBitVec =
      crc16Poly.feed crc.toBitVec (byteBits b) := by
  have hlen : (byteBits b).length = 8 := rfl
  have hx : crc.toBitVec ^^^ b.toUInt16.toBitVec = (crc ^^^ b.toUInt16).toBitVec := rfl
  rw [Crc.feed_eq_shifts _ _ (by rw [hlen]; decide), hlen, word_byteBits, hx]
  -- the byte has no high half
  have hhigh : (crc ^^^ b.toUInt16).toBitVec >>> 8 = (crc >>> 8).toBitVec := by
    have hb : b.toUInt16.toBitVec >>> 8 = 0#16 := by
      apply BitVec.eq_of_getLsbD_eq
      intro i hi
      rw [BitVec.getLsbD_ushiftRight, UInt8.toBitVec_toUInt16, BitVec.getLsbD_setWidth,
        BitVec.getLsbD_of_ge _ _ (by omega), Bool.and_false, BitVec.getLsbD_zero]
    rw [← hx, BitVec.ushiftRight_xor_distrib, hb, BitVec.xor_zero]
    rfl
  obtain ⟨hsplit, hclear, hshift⟩ := halves (crc ^^^ b.toUInt16).toBitVec
  have hidx : ((crc ^^^ b.toUInt16) &&& 0xff).toNat < 256 := by
    rw [UInt16.toNat_and]
    exact Nat.lt_of_le_of_lt Nat.and_le_right (by decide)
  have htable := crc16Table_eq ⟨_, hidx⟩
  have hlow : BitVec.ofNat 16 ((crc ^^^ b.toUInt16) &&& 0xff).toNat =
      (crc ^^^ b.toUInt16).toBitVec &&& 0xff#16 := BitVec.ofNat_toNat _ _
  rw [hsplit, Crc.shifts_split _ _ _ hclear, hshift, hhigh, UInt16.toBitVec_xor, htable, hlow,
    BitVec.xor_comm]

/-- **The loop computes the bit-serial division.** -/
theorem crc16_eq_serial (crc : UInt16) (d : List UInt8) :
    crc16 crc d = serial crc (messageBits d) := by
  induction d generalizing crc with
  | nil => rfl
  | cons b d ih =>
    have hbyte : (crc >>> 8) ^^^ crc16Table.getD ((crc ^^^ b.toUInt16) &&& 0xff).toNat 0 =
        serial crc (byteBits b) := by
      rw [← UInt16.toBitVec_inj, toBitVec_crc16_byte, toBitVec_serial]
    rw [crc16, ih, hbyte, messageBits_cons, serial, serial, serial, List.foldl_append]

theorem toBitVec_crc16 (crc : UInt16) (d : List UInt8) :
    (crc16 crc d).toBitVec = crc16Poly.feed crc.toBitVec (messageBits d) := by
  rw [crc16_eq_serial, toBitVec_serial]

/-! ## Data followed by its CRC -/

/-- The two bytes of a CRC, as the senders append them. -/
def crcBytes (crc : UInt16) : List UInt8 := [crc.toUInt8, (crc >>> 8).toUInt8]

/-- `crc1==crc3` and `crc2==crc4` in `eng_diag_btwifi`. -/
def crcBytesAgree (crc : UInt16) (crc1 crc2 : UInt8) : Bool :=
  crc1 == (crc &&& 0xff).toUInt8 && crc2 == ((crc >>> 8) &&& 0xff).toUInt8

/-- The word read for `recv_crc`. -/
def recvCrc (lo hi : UInt8) : UInt16 := lo.toUInt16 ||| (hi.toUInt16 <<< 8)

/-- The bits of two bytes are the word they make. -/
theorem word_pair (lo hi : UInt8) :
    (Crc.word (messageBits [lo, hi]) : BitVec 16) = (recvCrc lo hi).toBitVec := by
  have hbits : messageBits [lo, hi] = byteBits lo ++ byteBits hi := rfl
  have hlen : (byteBits lo).length = 8 := rfl
  have hrecv : (recvCrc lo hi).toBitVec = lo.toUInt16.toBitVec ||| hi.toUInt16.toBitVec <<< 8 := rfl
  apply BitVec.eq_of_getLsbD_eq
  intro i hi16
  rw [Crc.getLsbD_word, decide_eq_true hi16, hbits, hrecv, BitVec.getLsbD_or,
    BitVec.getLsbD_shiftLeft, getLsbD_toUInt16 lo hi16, List.getD_eq_getElem?_getD,
    decide_eq_true hi16]
  by_cases h8 : i < 8
  · rw [List.getElem?_append_left (by omega), getElem?_byteBits lo h8, decide_eq_true h8]
    simp
  · rw [List.getElem?_append_right (by omega), hlen, getElem?_byteBits hi (by omega),
      decide_eq_false h8, BitVec.getLsbD_of_ge lo.toBitVec i (by omega),
      getLsbD_toUInt16 hi (by omega)]
    simp

theorem toNat_recvCrc (lo hi : UInt8) : (recvCrc lo hi).toNat = lo.toNat + 256 * hi.toNat := by
  have hlo := lo.toNat_lt
  have hhi := hi.toNat_lt
  have hshift : (hi.toUInt16 <<< 8).toNat = hi.toNat <<< 8 := by
    rw [UInt16.toNat_shiftLeft, UInt8.toNat_toUInt16]
    show hi.toNat <<< 8 % 65536 = hi.toNat <<< 8
    rw [Nat.shiftLeft_eq]
    omega
  have hor : hi.toNat <<< 8 ||| lo.toNat = hi.toNat <<< 8 + lo.toNat :=
    (Nat.shiftLeft_add_eq_or_of_lt (by omega) _).symm
  rw [recvCrc, UInt16.toNat_or, hshift, UInt8.toNat_toUInt16, Nat.or_comm, hor, Nat.shiftLeft_eq]
  omega

/-- Comparing the words is comparing the bytes. -/
theorem recvCrc_eq_iff (crc : UInt16) (lo hi : UInt8) :
    recvCrc lo hi = crc ↔ [lo, hi] = crcBytes crc := by
  have hlo := lo.toNat_lt
  have hcrc := crc.toNat_lt
  have hhigh : (crc >>> 8).toNat = crc.toNat / 256 := by
    rw [UInt16.toNat_shiftRight]
    exact Nat.shiftRight_eq_div_pow _ 8
  simp only [crcBytes, List.cons.injEq, and_true]
  rw [← UInt16.toNat_inj, ← UInt8.toNat_inj, ← UInt8.toNat_inj, toNat_recvCrc,
    UInt16.toNat_toUInt8, UInt16.toNat_toUInt8, hhigh]
  omega

theorem crcBytesAgree_iff (crc : UInt16) (crc1 crc2 : UInt8) :
    crcBytesAgree crc crc1 crc2 = true ↔ [crc1, crc2] = crcBytes crc := by
  have hlow : (crc &&& 0xff).toUInt8 = crc.toUInt8 := by
    rw [← UInt8.toNat_inj, UInt16.toNat_toUInt8, UInt16.toNat_toUInt8, UInt16.toNat_and]
    exact (congrArg (· % 256) (Nat.and_two_pow_sub_one_eq_mod crc.toNat 8)).trans (Nat.mod_mod _ _)
  have hhigh : ((crc >>> 8) &&& 0xff).toUInt8 = (crc >>> 8).toUInt8 := by
    rw [← UInt8.toNat_inj, UInt16.toNat_toUInt8, UInt16.toNat_toUInt8, UInt16.toNat_and]
    exact (congrArg (· % 256) (Nat.and_two_pow_sub_one_eq_mod (crc >>> 8).toNat 8)).trans
      (Nat.mod_mod _ _)
  simp only [crcBytesAgree, hlow, hhigh, crcBytes, Bool.and_eq_true, beq_iff_eq, List.cons.injEq,
    and_true]

/-- **Data followed by its CRC leaves the remainder 0**, and nothing else does. -/
theorem crc16_append_eq_zero_iff (d : List UInt8) (lo hi : UInt8) :
    crc16 0 (d ++ [lo, hi]) = 0 ↔ [lo, hi] = crcBytes (crc16 0 d) := by
  have hlen : (messageBits [lo, hi]).length = 16 := rfl
  have hrem : (crc16 0 (d ++ [lo, hi])).toBitVec =
      crc16Poly.shifts 16 ((crc16 0 d).toBitVec ^^^ (recvCrc lo hi).toBitVec) := by
    rw [toBitVec_crc16, messageBits_append, Crc.feed_append, Crc.feed_eq_shifts _ _
      (Nat.le_of_eq hlen), hlen, word_pair, toBitVec_crc16]
  rw [← recvCrc_eq_iff, ← UInt16.toBitVec_inj, hrem]
  constructor
  · intro h
    have hxor := crc16Poly.shifts_eq_zero h
    exact (UInt16.toBitVec_inj.mp (BitVec.xor_eq_zero_iff.mp hxor)).symm
  · intro h
    rw [h, BitVec.xor_self]
    exact crc16Poly.shifts_zero _

/-! ## Errors -/

/-- Some bits are set, and all that are lie within `n` in a row. -/
def BurstWithin (n : Nat) (bits : List Bool) : Prop :=
  true ∈ bits ∧ ∃ k, ∀ i : Nat, bits[i]? = some true → k ≤ i ∧ i < k + n

theorem messageBits_zipWith {a b : List UInt8} (h : a.length = b.length) :
    messageBits (List.zipWith (· ^^^ ·) a b) =
      List.zipWith xor (messageBits a) (messageBits b) := by
  induction a generalizing b with
  | nil => rfl
  | cons x a ih =>
    cases b with
    | nil => cases h
    | cons y b =>
      have hbyte : byteBits (x ^^^ y) = List.zipWith xor (byteBits x) (byteBits y) := by
        rw [byteBits, byteBits, byteBits, List.zipWith_map, List.zipWith_self]
        refine List.map_congr_left fun i _ => ?_
        rw [UInt8.toBitVec_xor, BitVec.getLsbD_xor]
      have hbits : (byteBits x).length = (byteBits y).length := rfl
      rw [List.zipWith_cons_cons, messageBits_cons, messageBits_cons, messageBits_cons,
        ih (Nat.succ.inj h), hbyte, List.zipWith_append hbits]

theorem length_messageBits (d : List UInt8) : (messageBits d).length = 8 * d.length := by
  induction d with
  | nil => rfl
  | cons b d ih =>
    have hlen : (byteBits b).length = 8 := rfl
    rw [messageBits_cons, List.length_append, ih, hlen, List.length_cons]
    omega

/-- **`crc16` is the CRC of the polynomial 0x8005**: it computes the bit-serial division, data
followed by its CRC is what leaves no remainder, and no error of up to 16 bits in a row gets past the
comparison of the handlers, whether they compare bytes or words. -/
theorem crc16_detects :
    (∀ c d, crc16 c d = serial c (messageBits d)) ∧
    (∀ d lo hi, crc16 0 (d ++ [lo, hi]) = 0 ↔ [lo, hi] = crcBytes (crc16 0 d)) ∧
    ∀ d e d' lo hi, e.length = d.length + 2 → BurstWithin 16 (messageBits e) →
      d' ++ [lo, hi] = List.zipWith (· ^^^ ·) (d ++ crcBytes (crc16 0 d)) e →
      crcBytesAgree (crc16 0 d') lo hi = false ∧ recvCrc lo hi ≠ crc16 0 d' := by
  refine ⟨crc16_eq_serial, crc16_append_eq_zero_iff, fun d e d' lo hi hlen hburst herr => ?_⟩
  have hrej : [lo, hi] ≠ crcBytes (crc16 0 d') := by
    intro hacc
    have hzero := (crc16_append_eq_zero_iff d' lo hi).mpr hacc
    have hsent : crc16 0 (d ++ crcBytes (crc16 0 d)) = 0 :=
      (crc16_append_eq_zero_iff d _ _).mpr rfl
    have hsame : (d ++ crcBytes (crc16 0 d)).length = e.length := by
      rw [List.length_append, hlen]
      rfl
    have hbits : (messageBits (d ++ crcBytes (crc16 0 d))).length = (messageBits e).length := by
      rw [length_messageBits, length_messageBits, hsame]
    rw [herr, ← UInt16.toBitVec_inj, toBitVec_crc16, messageBits_zipWith hsame] at hzero
    rw [← UInt16.toBitVec_inj, toBitVec_crc16] at hsent
    -- the remainder of what arrives is that of the error alone
    have hsum := crc16Poly.feed_xor 0 0 hbits
    obtain ⟨hne, k, hspan⟩ := hburst
    refine crc16Poly.feed_burst_ne_zero hne hspan ?_
    have hxor : crc16Poly.feed 0 (messageBits (d ++ crcBytes (crc16 0 d))) ^^^
        crc16Poly.feed 0 (messageBits e) = 0#16 := hsum.symm.trans hzero
    have hleft : crc16Poly.feed 0 (messageBits (d ++ crcBytes (crc16 0 d))) = 0#16 := hsent
    rwa [hleft, BitVec.zero_xor] at hxor
  exact ⟨by rw [← Bool.not_eq_true, crcBytesAgree_iff]; exact hrej,
    fun h => hrej ((recvCrc_eq_iff _ _ _).mp h)⟩

/-- Data of two bytes, with one bit of the data and the next one of the CRC turned over. -/
theorem crc16_detects_two_bits :
    crcBytesAgree (crc16 0 [0x31, 0xb2]) 0x95 0x45 = false ∧
      recvCrc 0x95 0x45 ≠ crc16 0 [0x31, 0xb2] :=
  crc16_detects.2.2 [0x31, 0x32] [0, 0x80, 1, 0] _ _ _ rfl
    ⟨by decide, 15, fun i hi => by
      have hlt := (List.getElem?_eq_some_iff.mp hi).1
      have hlen : (messageBits [0, 0x80, 1, 0]).length = 32 := rfl
      rw [hlen] at hlt
      revert hi
      revert i
      decide⟩
    (by decide)

end SprdHal.Engmode

import SprdHal.Engmode.Complete
import SprdHal.Engmode.Crc16

/-!
# What the handlers read of a frame

Two handlers find their way in the unescaped frame without looking at its length.
`eng_diag_apcmd_hdlr` runs to the next flag, in a buffer in which the closing flag was unescaped like
the rest. The CRC check of `is_btwifi_addr_need_to_handle` and of `eng_diag_direct_phschk` goes by the
length in the header of the frame.
-/

namespace SprdHal.Engmode

open SprdHal.Lib

/-! ## `eng_diag_apcmd_hdlr` -/

/-- `while (*(ptr + i) != 0x7e) i++`; `none` if there is no flag in the memory. -/
def apcmdScan (buf : List UInt8) : Option Nat := (buf.drop diagText).findIdx? (· == 0x7e)

/-- The memory when `eng_diag_apcmd_hdlr` calls `eng_linuxcmd_hdlr`. -/
def engDiagApcmdHdlr (buf : List UInt8) : Option (List UInt8) :=
  (apcmdScan buf).map fun i => buf.set (diagText + i - 1) 0

theorem apcmdScan_eq_some_iff (buf : List UInt8) (i : Nat) :
    apcmdScan buf = some i ↔
      buf[diagText + i]? = some 0x7e ∧ ∀ j < i, buf[diagText + j]? ≠ some 0x7e := by
  have hget : ∀ {j} (hj : j < (buf.drop diagText).length),
      (buf.drop diagText)[j] = 0x7e ↔ buf[diagText + j]? = some 0x7e := by
    intro j hj
    rw [← List.getElem?_drop, List.getElem?_eq_getElem hj, Option.some.injEq]
  rw [apcmdScan, List.findIdx?_eq_some_iff_getElem]
  simp only [beq_iff_eq]
  constructor
  · rintro ⟨hi, hflag, hbefore⟩
    exact ⟨(hget hi).mp hflag, fun j hj h => hbefore j hj ((hget (Nat.lt_trans hj hi)).mpr h)⟩
  · rintro ⟨hflag, hbefore⟩
    have hi : i < (buf.drop diagText).length := by
      rw [List.length_drop]
      have := (List.getElem?_eq_some_iff.mp hflag).1
      omega
    exact ⟨hi, (hget hi).mpr hflag,
      fun j hj h => hbefore j hj ((hget (Nat.lt_trans hj hi)).mp h)⟩

/-- The tokeniser neither makes nor removes a flag. -/
theorem engDiagParse_flag_iff (env : DiagEnv) (f : CompleteFrame) (behind : UInt8)
    (more : List UInt8) (k : Nat) :
    (engDiagParse env (f.mem behind more) f.buf.len).2[k]? = some 0x7e ↔
      (f.unescape behind more)[k]? = some 0x7e := by
  rcases f.parse_getElem? behind more env k with hsame | ⟨-, hsep, hzero⟩
  · rw [hsame]
  · rw [hzero]
    rcases hsep with hsep | hsep <;> rw [hsep] <;> decide

/-- The handler finds the end of the command inside the frame, and the byte that it clears is the
last one of the command, which lies at `last`. -/
def ApcmdFound (buf : List UInt8) (len last : Nat) : Prop :=
  ∃ i, apcmdScan buf = some i ∧ diagText + i < len ∧ diagText + i - 1 = last

theorem ApcmdFound.hdlr {buf : List UInt8} {len last : Nat} (h : ApcmdFound buf len last) :
    engDiagApcmdHdlr buf = some (buf.set last 0) := by
  obtain ⟨i, hscan, -, rfl⟩ := h
  rw [engDiagApcmdHdlr, hscan]
  rfl

/-- The closing flag is left where it is only by the byte 0x5e behind it. -/
theorem CompleteFrame.flag_iff (f : CompleteFrame) (behind : UInt8) :
    (if takesFlag f.body then 0x5e else f.next behind ^^^ 0x20) = 0x7e ↔
      ¬ takesFlag f.body ∧ f.buf.len = dataExtDiagSize ∧ behind = 0x5e := by
  have hxor : ∀ b : UInt8, b ^^^ 0x20 = 0x7e ↔ b = 0x5e := by
    intro b
    constructor
    · intro h
      have hback : b = (b ^^^ 0x20) ^^^ 0x20 := by rw [UInt8.xor_assoc]; simp
      rw [hback, h]
      rfl
    · rintro rfl
      rfl
  have hle := f.buf.len_le
  by_cases htakes : takesFlag f.body
  · rw [if_pos htakes]
    exact ⟨fun h => absurd h (by decide), fun h => absurd htakes h.1⟩
  · rw [if_neg htakes, hxor, next]
    by_cases hlt : f.buf.len < dataExtDiagSize
    · rw [if_pos hlt]
      exact ⟨fun h => absurd h (by decide), fun h => absurd h.2.1 (by omega)⟩
    · rw [if_neg hlt]
      exact ⟨fun h => ⟨htakes, by omega, h⟩, fun h => h.2.2⟩

/-- The handler finds the closing flag if it finds the end of the command. -/
theorem ApcmdFound.flag {f : CompleteFrame} {env : DiagEnv} {behind : UInt8} {more : List UInt8}
    (h : ApcmdFound (engDiagParse env (f.mem behind more) f.buf.len).2 f.buf.len
      (bodyContent f.body).length) :
    ¬ takesFlag f.body ∧ f.buf.len = dataExtDiagSize ∧ behind = 0x5e := by
  obtain ⟨i, hscan, -, hlast⟩ := h
  have hfound := ((apcmdScan_eq_some_iff _ _).mp hscan).1
  have hpos : diagText + i = (bodyContent f.body).length + 1 := by
    unfold diagText at *
    omega
  rw [engDiagParse_flag_iff, hpos, f.unescape_flag, Option.some.injEq] at hfound
  exact (f.flag_iff behind).mp hfound

/-- **The end of an AP command is found exactly if the byte behind the buffer restores the closing
flag**, and no flag is escaped in the command. -/
theorem apcmdFound_iff (f : CompleteFrame) (env : DiagEnv) (behind : UInt8) (more : List UInt8) :
    ApcmdFound (engDiagParse env (f.mem behind more) f.buf.len).2 f.buf.len
        (bodyContent f.body).length ↔
      (¬ takesFlag f.body ∧ f.buf.len = dataExtDiagSize ∧ behind = 0x5e) ∧
        0x7e ∉ (bodyContent f.body).drop 8 := by
  have hcontent : ∀ j, 8 + j < (bodyContent f.body).length →
      (f.unescape behind more)[diagText + j]? = (bodyContent f.body)[8 + j]? := by
    intro j hj
    have hidx : diagText + j = 8 + j + 1 := by unfold diagText; omega
    rw [hidx, f.unescape_content behind more hj]
  constructor
  · intro h
    refine ⟨h.flag, fun hmem => ?_⟩
    obtain ⟨i, hscan, -, hlast⟩ := h
    obtain ⟨j, hj⟩ := List.mem_iff_getElem?.mp hmem
    rw [List.getElem?_drop] at hj
    have hlt := (List.getElem?_eq_some_iff.mp hj).1
    refine ((apcmdScan_eq_some_iff _ _).mp hscan).2 j (by unfold diagText at hlast; omega) ?_
    rw [engDiagParse_flag_iff, hcontent j hlt, hj]
  · rintro ⟨hflag, hnone⟩
    -- a frame that fills the buffer has room for a header
    have hlong : 8 ≤ (bodyContent f.body).length := by
      have hfull := hflag.2.1
      have hhalf := length_bodyContent f.body
      have hlen := f.len_eq
      unfold dataExtDiagSize at hfull
      omega
    have hin := f.length_plain_lt behind
    rw [f.length_plain] at hin
    obtain ⟨i, hi⟩ : ∃ i, (bodyContent f.body).length = 8 + i :=
      ⟨_, (Nat.add_sub_cancel' hlong).symm⟩
    have hpos : diagText + i = (bodyContent f.body).length + 1 := by unfold diagText; omega
    refine ⟨i, (apcmdScan_eq_some_iff _ _).mpr ⟨?_, fun j hj hesc => ?_⟩, by omega, by omega⟩
    · rw [engDiagParse_flag_iff, hpos, f.unescape_flag, (f.flag_iff behind).mpr hflag]
    · rw [engDiagParse_flag_iff, hcontent j (by omega)] at hesc
      refine hnone (List.mem_iff_getElem?.mpr ⟨j, ?_⟩)
      rw [List.getElem?_drop, hesc]

/-- `AT+GETICH?`, one of the commands of `eng_linuxcmd`. -/
def atGetich : List UInt8 := [0x41, 0x54, 0x2b, 0x47, 0x45, 0x54, 0x49, 0x43, 0x48, 0x3f]

/-- The variables of the audio commands before any of them was received. -/
def apcmdEnv : DiagEnv where
  gIsData := false
  cmdType := 0
  eqOrTunType := 0
  gIndex := 0
  audioModeNum := 0
  isApAtCmd := fun buf => atGetich <+: buf.drop diagText
  isBtwifiAddr := fun _ => false
  engDiag := fun _ => true

/-- The command, followed by a carriage return, is received at once. -/
theorem not_apcmdFound_getich :
    ∃ f : CompleteFrame,
      getUserDiagBuf initUserDiagBuf
        (0x7e :: ([1, 0, 0, 0, 19, 0, diagCmdAt, 0] ++ atGetich ++ [0x0d] ++ [0x7e])) =
          (f.buf, true) ∧
      (engDiagParse apcmdEnv (f.mem 0 []) f.buf.len).1 = .userApcmd ∧
      ¬ ApcmdFound (engDiagParse apcmdEnv (f.mem 0 []) f.buf.len).2 f.buf.len
        (bodyContent f.body).length := by
  obtain ⟨f, hbody, hget⟩ := @delivered_first
    ([1, 0, 0, 0, 19, 0, diagCmdAt, 0] ++ atGetich ++ [0x0d]) (by decide) (by decide)
  refine ⟨f, hget, ?_, fun h => absurd h.flag.2.2 (by decide)⟩
  obtain ⟨tail, hdec⟩ : ∃ tail,
      (f.mem 0 []).take 1 ++ engDiagDecode7d7e ((f.mem 0 []).drop 1) (f.buf.len - 1) =
        0x7e :: ([1, 0, 0, 0, 19, 0, diagCmdAt, 0] ++ (atGetich ++ tail)) := by
    obtain ⟨rest, hmem⟩ := f.unescape_eq 0 []
    rw [CompleteFrame.plain, hbody] at hmem
    exact ⟨_, hmem⟩
  simp only [engDiagParse, hdec]
  rfl

/-! ## The CRC check -/

/-- `msg_head->len` -/
def msgHeadLen (buf : List UInt8) : UInt16 := leHalf buf 5

/-- `msg_head->len - sizeof(MSG_HEAD_T) - sizeof(unsigned short)`, which is unsigned. -/
def crcLen (hlen : UInt16) : UInt32 := hlen.toUInt32 - 8 - 2

/-- The offset of a byte that the check reads: of the two bytes of `recv_crc`, and of those that
`crc16` runs over. -/
def CrcRead (hlen : UInt16) (k : Int) : Prop :=
  (k = (hlen.toNat : Int) - 2 + 1 ∨ k = (hlen.toNat : Int) - 2 + 2) ∨
    (diagText : Int) ≤ k ∧ k < diagText + (crcLen hlen).toNat

theorem toNat_crcLen (hlen : UInt16) :
    (crcLen hlen).toNat = if 10 ≤ hlen.toNat then hlen.toNat - 10 else 2 ^ 32 + hlen.toNat - 10 := by
  have hlt := hlen.toNat_lt
  rw [crcLen, UInt32.toNat_sub, UInt32.toNat_sub, UInt16.toNat_toUInt32]
  split <;> simp only [UInt32.reduceToNat] <;> omega

/-- Whether the CRC is the right one; `none` if the check leaves the memory. -/
def crcCheck (mem : List UInt8) : Option Bool :=
  let hlen := (msgHeadLen mem).toNat
  let len := (crcLen (msgHeadLen mem)).toNat
  if 1 ≤ hlen ∧ hlen < mem.length ∧ diagText + len ≤ mem.length then
    some (recvCrc (mem.getD (hlen - 1) 0) (mem.getD hlen 0) == crc16 0 ((mem.drop diagText).take len))
  else none

/-- The check reads the bytes that `CrcRead` says. -/
theorem crcCheck_isSome_iff (mem : List UInt8) :
    (crcCheck mem).isSome ↔ ∀ k, CrcRead (msgHeadLen mem) k → 0 ≤ k ∧ k < mem.length := by
  have hcrc := toNat_crcLen (msgHeadLen mem)
  have hdef : (crcCheck mem).isSome ↔ 1 ≤ (msgHeadLen mem).toNat ∧
      (msgHeadLen mem).toNat < mem.length ∧
      diagText + (crcLen (msgHeadLen mem)).toNat ≤ mem.length := by
    unfold crcCheck
    dsimp only
    split <;> simp_all
  rw [hdef]
  unfold CrcRead
  constructor
  · intro h k hk
    unfold diagText at *
    omega
  · intro h
    have hfirst := h _ (Or.inl (Or.inl rfl))
    have hsecond := h _ (Or.inl (Or.inr rfl))
    have hlast := h (diagText + (crcLen (msgHeadLen mem)).toNat - 1)
    unfold diagText at *
    refine ⟨by omega, by omega, ?_⟩
    by_cases hzero : (crcLen (msgHeadLen mem)).toNat = 0
    · split at hcrc <;> omega
    · have := hlast (Or.inr (by omega))
      omega

/-- The check stays inside a frame of `len` bytes, and its length does not wrap. -/
structure CrcCheckInside (buf : List UInt8) (len : Nat) : Prop where
  reads : ∀ k, CrcRead (msgHeadLen buf) k → 0 ≤ k ∧ k < len
  length : (crcLen (msgHeadLen buf)).toNat + 10 = (msgHeadLen buf).toNat

theorem crcCheckInside_iff (buf : List UInt8) (len : Nat) :
    CrcCheckInside buf len ↔ 10 ≤ (msgHeadLen buf).toNat ∧ (msgHeadLen buf).toNat < len := by
  have hcrc := toNat_crcLen (msgHeadLen buf)
  constructor
  · rintro ⟨hreads, hwrap⟩
    have hlast := hreads _ (Or.inl (Or.inr rfl))
    split at hcrc <;> omega
  · rintro ⟨hten, hin⟩
    rw [if_pos hten] at hcrc
    refine ⟨fun k hk => ?_, by omega⟩
    unfold CrcRead diagText at hk
    omega

/-- The length in a frame that is too short for it is that of the closing flag and of what was
cleared. -/
theorem CompleteFrame.msgHeadLen_short (f : CompleteFrame) (behind : UInt8) (more : List UInt8)
    (hshort : (bodyContent f.body).length < 6) :
    (msgHeadLen (f.unescape behind more)).toNat < 10 ∨
      f.buf.len ≤ (msgHeadLen (f.unescape behind more)).toNat := by
  have hhalf := length_bodyContent f.body
  have hlen := f.len_eq
  have hsize : f.buf.len < dataExtDiagSize := by unfold dataExtDiagSize; omega
  have hbehind : ∀ k, (bodyContent f.body).length + 1 < k → k < 7 →
      (f.unescape behind more)[k]? = some 0 :=
    fun k hk hlt => f.unescape_behind behind more hsize hk (Nat.lt_trans hlt (by decide))
  have hflag := f.unescape_flag behind more
  rw [next, if_pos hsize] at hflag
  unfold msgHeadLen leHalf
  simp only [List.getD_eq_getElem?_getD]
  by_cases hfive : (bodyContent f.body).length = 5
  · rw [hfive] at hflag
    rw [hflag, Option.getD_some]
    have hbyte := ((f.unescape behind more)[5]?.getD 0).toNat_lt
    right
    split <;> rw [UInt16.toNat_ofNat'] <;> simp <;> omega
  · by_cases hfour : (bodyContent f.body).length = 4
    · rw [hfour] at hflag
      rw [hflag, hbehind 6 (by omega) (by omega)]
      right
      split <;> simp <;> omega
    · rw [hbehind 5 (by omega) (by omega), hbehind 6 (by omega) (by omega)]
      left
      decide

/-- The length of a frame that is long enough to have one. -/
theorem CompleteFrame.msgHeadLen_long (f : CompleteFrame) (behind : UInt8) (more : List UInt8)
    (hlong : 6 ≤ (bodyContent f.body).length) :
    msgHeadLen (f.unescape behind more) = leHalf (bodyContent f.body) 4 := by
  have h4 := f.unescape_content behind more (k := 4) (by omega)
  have h5 := f.unescape_content behind more (k := 5) (by omega)
  unfold msgHeadLen leHalf
  simp only [List.getD_eq_getElem?_getD]
  rw [h4, h5]

theorem msgHeadLen_parse (f : CompleteFrame) (env : DiagEnv) (behind : UInt8) (more : List UInt8) :
    msgHeadLen (engDiagParse env (f.mem behind more) f.buf.len).2 =
      msgHeadLen (f.unescape behind more) := by
  have hbyte : ∀ k < diagText, (engDiagParse env (f.mem behind more) f.buf.len).2[k]? =
      (f.unescape behind more)[k]? :=
    fun k hk => (f.parse_getElem? behind more env k).resolve_right fun h => absurd h.1 (by omega)
  unfold msgHeadLen leHalf
  simp only [List.getD_eq_getElem?_getD]
  rw [hbyte 5 (by decide), hbyte 6 (by decide)]

/-- **The CRC check stays inside the frame exactly if the frame is long enough for the length in its
header.** `is_btwifi_addr_need_to_handle` is called by `eng_diag_parse`, `eng_diag_direct_phschk`
after it. -/
theorem crcCheck_inside_iff (f : CompleteFrame) (env : DiagEnv) (behind : UInt8)
    (more : List UInt8) :
    (CrcCheckInside (f.unescape behind more) f.buf.len ∧
        CrcCheckInside (engDiagParse env (f.mem behind more) f.buf.len).2 f.buf.len) ↔
      6 ≤ (bodyContent f.body).length ∧
        10 ≤ (leHalf (bodyContent f.body) 4).toNat ∧
        (leHalf (bodyContent f.body) 4).toNat ≤ f.body.length + 1 := by
  rw [crcCheckInside_iff, crcCheckInside_iff, msgHeadLen_parse, and_self]
  by_cases hlong : 6 ≤ (bodyContent f.body).length
  · rw [f.msgHeadLen_long behind more hlong, f.len_eq]
    omega
  · have hshort := f.msgHeadLen_short behind more (by omega)
    omega

/-- A request for the addresses with the length 0. -/
theorem not_crcCheck_inside_zero :
    ∃ f : CompleteFrame,
      getUserDiagBuf initUserDiagBuf
        [0x7e, 1, 0, 0, 0, 0, 0, diagCmdImeibtwifi, 0xc4, 0x7e] = (f.buf, true) ∧
      ¬ CrcCheckInside (f.unescape 0 []) f.buf.len := by
  obtain ⟨f, hbody, hget⟩ := @delivered_first
    [1, 0, 0, 0, 0, 0, diagCmdImeibtwifi, 0xc4] (by decide) (by decide)
  refine ⟨f, hget, fun h => ?_⟩
  have hten := ((crcCheckInside_iff _ _).mp h).1
  rw [f.msgHeadLen_long 0 [] (by rw [hbody]; decide), hbody] at hten
  exact absurd hten (by decide)

end SprdHal.Engmode

import SprdHal.Engmode.BtWifi

/-!
# Commands for the AP and the CP

A command that asks for more than the BT and WiFi addresses is handled by the AP and forwarded to the
CP as well. `eng_diag_btwifi` clears the bits of the addresses for that, but not in what is forwarded:
`eng_vdiag_wthread` has copied the frame to `backup_data_buf` before it calls `eng_diag`.
-/

namespace SprdHal.Engmode

open SprdHal.Lib

/-- `RW_MASK`, `WRITE_MODE` and `RM_VALID_CMD_MASK` -/
def rwMask : UInt8 := 0x80
def writeMode : UInt8 := 0
def rmValidCmdMask : UInt8 := 0x7f

/-- `is_btwifi_addr_need_to_handle`; `none` if the CRC check leaves the memory. -/
def isBtwifiAddrNeedToHandle (mem : List UInt8) : Option Nat :=
  (crcCheck mem).map fun ok =>
    let subtype := mem.getD 8 0
    let cmdMask := subtype &&& 0x7f
    if ok = false then 0
    else if subtype &&& rwMask = writeMode ∧ subtype &&& rmValidCmdMask = 0 then 0
    else if cmdMask ≠ 0 ∧ (cmdMask &&& diagCmdBtbit ≠ 0 ∨ cmdMask &&& diagCmdWifibit ≠ 0) then
      if cmdMask &&& ~~~(diagCmdBtbit ||| diagCmdWifibit) ≠ 0 then 2 else 1
    else 0

/-- The request that `eng_diag_btwifi` finds in the frame. -/
def btwifiReqOf (mem : List UInt8) : BtwifiReq where
  head := ⟨leWord mem 1, leHalf mem 5, mem.getD 7 0, mem.getD 8 0⟩
  direct := (List.range refNVWriteDirectSize).map fun i => mem.getD (diagText + i) 0
  crc1 := mem.getD (8 + refNVWriteDirectSize + 1) 0
  crc2 := mem.getD (8 + refNVWriteDirectSize + 2) 0
  length_direct := by rw [List.length_map, List.length_range]

/-- What a frame with `DIAG_CMD_IMEIBTWIFI` does to `eng_diag`: whether it returns 1, the memory, and
the outcome of `eng_diag_btwifi` if that is called. `cpAp` is `s_cp_ap_proc` before. -/
def engDiagImeibtwifi (cpAp : Bool) (mem : List UInt8) (files : MacFiles) (io : MacIo) :
    Option (Bool × List UInt8 × Option BtwifiOut) :=
  (isBtwifiAddrNeedToHandle mem).map fun need =>
    if need = 0 then (false, mem, none)
    else
      let cpAp := cpAp || need == 2
      let out := engDiagBtwifi cpAp files io (btwifiReqOf mem)
      (!cpAp, mem.set 8 out.subtype, some out)

/-- The frame is a request for addresses and something else. -/
structure NeedsBoth (mem : List UInt8) : Prop where
  type : mem.getD 7 0 = diagCmdImeibtwifi
  need : isBtwifiAddrNeedToHandle mem = some 2

/-- A frame behind its opening flag, unescaped, with the bits of the addresses cleared. -/
def clearBtwifi (plain : List UInt8) : List UInt8 :=
  plain.set 7 (plain.getD 7 0 &&& ~~~(diagCmdBtbit ||| diagCmdWifibit))

/-- What is forwarded differs from what was received in the cleared bits only. `z` is the byte that
is taken for the one behind the frame. -/
def ForwardsCleared (z : UInt8) (received forwarded : List UInt8) : Prop :=
  unescaped z forwarded.tail = clearBtwifi (unescaped z received.tail)

theorem clear_and (x : UInt8) :
    (x &&& ~~~(diagCmdBtbit ||| diagCmdWifibit)) &&& 0x7f &&& diagCmdBtbit = 0 ∧
      (x &&& ~~~(diagCmdBtbit ||| diagCmdWifibit)) &&& 0x7f &&& diagCmdWifibit = 0 := by
  have hbt : ~~~(diagCmdBtbit ||| diagCmdWifibit) &&& (0x7f &&& diagCmdBtbit) = 0 := by decide
  have hwifi : ~~~(diagCmdBtbit ||| diagCmdWifibit) &&& (0x7f &&& diagCmdWifibit) = 0 := by decide
  constructor
  · rw [UInt8.and_assoc, UInt8.and_assoc, hbt, UInt8.and_zero]
  · rw [UInt8.and_assoc, UInt8.and_assoc, hwifi, UInt8.and_zero]

/-- At least one of the bits is set. -/
theorem NeedsBoth.selects {mem : List UInt8} (h : NeedsBoth mem) :
    mem.getD 8 0 ≠ mem.getD 8 0 &&& ~~~(diagCmdBtbit ||| diagCmdWifibit) := by
  intro hsame
  obtain ⟨ok, -, hneed⟩ := Option.map_eq_some_iff.mp h.need
  obtain ⟨hbt, hwifi⟩ := clear_and (mem.getD 8 0)
  rw [← hsame] at hbt hwifi
  simp only [hbt, hwifi, ne_eq, not_true_eq_false, or_self, and_false, if_false] at hneed
  split at hneed
  · cases hneed
  · split at hneed <;> cases hneed

/-- The subtype is a byte of the frame. -/
theorem NeedsBoth.subtype {f : CompleteFrame} {behind : UInt8} {more : List UInt8}
    (h : NeedsBoth (f.unescape behind more)) :
    7 < (f.plain behind).length ∧
      (f.plain behind).getD 7 0 = (f.unescape behind more).getD 8 0 := by
  have hlong : 7 < (f.plain behind).length := by
    by_contra hshort
    rw [f.length_plain] at hshort
    have hhalf := length_bodyContent f.body
    have hlen := f.len_eq
    have hsize : f.buf.len < dataExtDiagSize := by unfold dataExtDiagSize; omega
    have hzero := f.unescape_behind behind more hsize (k := 8) (by omega) (by decide)
    refine h.selects ?_
    rw [List.getD_eq_getElem?_getD, hzero]
    decide
  obtain ⟨rest, hmem⟩ := f.unescape_eq behind more
  refine ⟨hlong, ?_⟩
  rw [hmem, List.getD_cons_succ, List.getD_eq_getElem?_getD, List.getD_eq_getElem?_getD,
    List.getElem?_append_left hlong]

/-- `eng_diag` does not claim the frame. -/
theorem engDiag_needsBoth {mem : List UInt8} (h : NeedsBoth mem) (cpAp : Bool) (files : MacFiles)
    (io : MacIo) : (engDiagImeibtwifi cpAp mem files io).map Prod.fst = some false := by
  rw [engDiagImeibtwifi, h.need, Option.map_map, Option.map_some]
  cases cpAp <;> rfl

/-- The frame is not forwarded with the bits cleared if it is forwarded as it is. -/
theorem NeedsBoth.not_cleared {f : CompleteFrame} {behind : UInt8} {more : List UInt8}
    (h : NeedsBoth (f.unescape behind more)) :
    ¬ ForwardsCleared (f.next behind) f.buf.frame f.buf.frame := by
  intro hcleared
  obtain ⟨hlong, hsubtype⟩ := h.subtype
  have hplain : unescaped (f.next behind) f.buf.frame.tail = f.plain behind := by
    rw [f.frame_eq, List.tail_cons, f.plain_eq]
  rw [ForwardsCleared, hplain, clearBtwifi] at hcleared
  have hseven := congrArg (·.getD 7 0) hcleared
  simp only [List.getD_eq_getElem?_getD, List.getElem?_set_self hlong, Option.getD_some] at hseven
  rw [← List.getD_eq_getElem?_getD, hsubtype] at hseven
  exact h.selects hseven

/-- A frame that `eng_diag` does not claim is written to the modem. -/
theorem vdiagStep_forwards {s : Vdiag} {it : Iteration} {log : List UInt8} {f : CompleteFrame}
    (hap : s.status = .recvToAP) (hread : it.read.logData = some log)
    (hfound : getUserDiagBuf s.extBuf log = (f.buf, true))
    (hleft : it.env.engDiag f.buf.frame = false) :
    (vdiagStep s it).2 = .diag f.buf.frame :: writeLoop f.buf.frame it.writes := by
  have hgather := getUserDiagBuf_gather s.extBuf log
  rw [hfound] at hgather
  have hhandle := handle_found it.env hap hgather.symm
  simp only [vdiagStep, hread, hhandle, hleft]
  rfl

/-- **What is forwarded is what was received**, with the bits of the addresses. -/
theorem not_forwardsCleared (s : Vdiag) (it : Iteration) {log : List UInt8} (f : CompleteFrame)
    (behind : UInt8) (more : List UInt8) (cpAp : Bool) (files : MacFiles) (io : MacIo)
    (hap : s.status = .recvToAP) (hread : it.read.logData = some log)
    (hfound : getUserDiagBuf s.extBuf log = (f.buf, true))
    (hboth : NeedsBoth (f.unescape behind more))
    (henv : (engDiagImeibtwifi cpAp (f.unescape behind more) files io).map Prod.fst =
      some (it.env.engDiag f.buf.frame)) :
    ∃ forwarded, (vdiagStep s it).2 = .diag f.buf.frame :: writeLoop forwarded it.writes ∧
      ¬ ForwardsCleared (f.next behind) f.buf.frame forwarded := by
  have hleft : it.env.engDiag f.buf.frame = false :=
    Option.some.inj (henv.symm.trans (engDiag_needsBoth hboth cpAp files io))
  exact ⟨f.buf.frame, vdiagStep_forwards hap hread hfound hleft, hboth.not_cleared⟩

/-- A request to read the BT address and an IMEI, with the CRC of no data. -/
def readBtImei : List UInt8 := [1, 0, 0, 0, 10, 0, diagCmdImeibtwifi, 0x85, 0, 0]

theorem needsBoth_readBtImei {f : CompleteFrame} (hbody : f.body = readBtImei) :
    NeedsBoth (f.unescape 0 []) := by
  have hcontent : bodyContent f.body = readBtImei := by
    rw [hbody]
    decide
  have hbyte : ∀ k < 10, (f.unescape 0 []).getD (k + 1) 0 = readBtImei.getD k 0 := by
    intro k hk
    rw [List.getD_eq_getElem?_getD, List.getD_eq_getElem?_getD,
      f.unescape_content 0 [] (by rw [hcontent]; exact hk), hcontent]
  have hhead : msgHeadLen (f.unescape 0 []) = 10 := by
    rw [f.msgHeadLen_long 0 [] (by rw [hcontent]; decide), hcontent]
    decide
  have hlong : 10 < (f.unescape 0 []).length := by
    obtain ⟨rest, hmem⟩ := f.unescape_eq 0 []
    rw [hmem, List.length_cons, List.length_append, f.length_plain, hcontent]
    exact Nat.lt_of_lt_of_le (by decide) (Nat.succ_le_succ (Nat.le_add_right _ _))
  have hcrc : crcCheck (f.unescape 0 []) = some true := by
    have hten : (10 : UInt16).toNat = 10 := rfl
    have hnone : (crcLen 10).toNat = 0 := by decide
    rw [crcCheck, hhead]
    simp only [hten, hnone]
    rw [if_pos ⟨by decide, hlong, by unfold diagText; omega⟩, hbyte 8 (by decide),
      hbyte 9 (by decide), List.take_zero]
    rfl
  refine ⟨hbyte 6 (by decide), ?_⟩
  rw [isBtwifiAddrNeedToHandle, hcrc, Option.map_some, hbyte 7 (by decide)]
  rfl

/-- The iteration in which the request arrives. -/
def readBtImeiIteration : Iteration where
  read := readOf (0x7e :: (readBtImei ++ [0x7e])) (by decide)
  env := { plainDiagEnv with isBtwifiAddr := fun _ => true, engDiag := fun _ => false }
  writes := [some 12]

theorem logData_readBtImei :
    readBtImeiIteration.read.logData = some (0x7e :: (readBtImei ++ [0x7e])) :=
  logData_readOf (List.cons_ne_nil _ _) (by decide)

theorem delivered_readBtImei : ∃ f : CompleteFrame, f.body = readBtImei ∧
    getUserDiagBuf initUserDiagBuf (0x7e :: (readBtImei ++ [0x7e])) = (f.buf, true) :=
  delivered_first (by decide) (by decide)

theorem not_forwardsCleared_readBtImei :
    ∃ f : CompleteFrame, f.body = readBtImei ∧
      ∃ forwarded, (vdiagStep .init readBtImeiIteration).2 =
          .diag f.buf.frame :: writeLoop forwarded readBtImeiIteration.writes ∧
        ¬ ForwardsCleared (f.next 0) f.buf.frame forwarded := by
  obtain ⟨f, hbody, hget⟩ := delivered_readBtImei
  exact ⟨f, hbody, not_forwardsCleared .init readBtImeiIteration f 0 [] false ⟨[], []⟩ wifiNotOpened
    rfl logData_readBtImei hget (needsBoth_readBtImei hbody)
    (engDiag_needsBoth (needsBoth_readBtImei hbody) false _ _)⟩

/-- The request arrives at the CP with the bit of the BT address. -/
theorem readBtImei_forwarded :
    ∃ f : CompleteFrame, NeedsBoth (f.unescape 0 []) ∧
      (vdiagStep .init readBtImeiIteration).2 =
        [.diag f.buf.frame, .modem (0x7e :: (readBtImei ++ [0x7e]))] ∧
      ¬ ForwardsCleared (f.next 0) f.buf.frame (0x7e :: (readBtImei ++ [0x7e])) := by
  obtain ⟨f, hbody, hget⟩ := delivered_readBtImei
  have hboth := needsBoth_readBtImei hbody
  have hframe : f.buf.frame = 0x7e :: (readBtImei ++ [0x7e]) := by rw [f.frame_eq, hbody]
  refine ⟨f, hboth, ?_, hframe ▸ hboth.not_cleared⟩
  rw [vdiagStep_forwards rfl logData_readBtImei hget rfl, hframe]
  rfl

end SprdHal.Engmode

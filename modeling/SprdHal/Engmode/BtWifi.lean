import SprdHal.Engmode.MacFiles
import SprdHal.Engmode.Reads
import SprdHal.Engmode.UserHandle

/-!
# BT and WiFi addresses over diag (`eng_diag_btwifi`)

A write puts the selected addresses into their files, a read takes them out. The BT address is sent
in the opposite order of its text. The acknowledgement of a write says what has become of the BT file.
-/

namespace SprdHal.Engmode

open SprdHal.Lib

/-- `DIAG_CMD_READ`, `DIAG_CMD_BTBIT` and `DIAG_CMD_WIFIBIT` -/
def diagCmdRead : UInt8 := 0x80
def diagCmdBtbit : UInt8 := 0x04
def diagCmdWifibit : UInt8 := 0x40

/-- `sizeof(REF_NVWriteDirect_T)`, and where the addresses lie in it. -/
def refNVWriteDirectSize : Nat := 106
def btaddrAt : Nat := 16
def wifiaddrAt : Nat := 66

/-- Six bytes of `REF_NVWriteDirect_T`. -/
def addrField (direct : List UInt8) (start : Nat) : List UInt8 := (direct.drop start).take 6

/-- A request: the header, `REF_NVWriteDirect_T` and the CRC, of which a read only looks at the
header. -/
structure BtwifiReq where
  head : MsgHead
  direct : List UInt8
  crc1 : UInt8
  crc2 : UInt8
  length_direct : direct.length = refNVWriteDirectSize

namespace BtwifiReq

variable (req : BtwifiReq)

def btaddr : List UInt8 := addrField req.direct btaddrAt
def wifiaddr : List UInt8 := addrField req.direct wifiaddrAt

def selectsBt : Bool := req.head.subtype &&& diagCmdBtbit ≠ 0
def selectsWifi : Bool := req.head.subtype &&& diagCmdWifibit ≠ 0

end BtwifiReq

/-- What is passed to `translate_packet`, if anything is; the files; and the subtype in the frame of
the request. -/
structure BtwifiOut where
  rsp : Option (List UInt8)
  files : MacFiles
  subtype : UInt8

/-- The write of `eng_diag_btwifi`; `cpAp` is `s_cp_ap_proc`. -/
def engDiagBtwifiWrite (cpAp : Bool) (files : MacFiles) (io : MacIo) (req : BtwifiReq) :
    BtwifiOut :=
  let btMac := if req.selectsBt then some (macText req.btaddr.reverse) else none
  let wifiMac := if req.selectsWifi then some (macText req.wifiaddr) else none
  let w :=
    if crcBytesAgree (crc16 0 req.direct) req.crc1 req.crc2 then
      engBtwifimacWrite files io btMac wifiMac
    else (-1, files)
  if cpAp then
    ⟨none, w.2, req.head.subtype &&& ~~~(diagCmdBtbit ||| diagCmdWifibit)⟩
  else
    let subtype := if w.1 ≤ 0 then 0x00 else 0x01
    ⟨some ({ req.head with subtype := subtype, len := 8 + 2 }.bytes ++ [0, 0]), w.2, subtype⟩

/-- The addresses of a read. The BT address is turned round where it lies. -/
def readDirect (files : MacFiles) (io : MacIo) (req : BtwifiReq) : List UInt8 :=
  let bt := engBtwifimacRead files.bt (macBuf []) io.readBt
  let wifi := engBtwifimacRead files.wifi (macBuf []) io.readWifi
  let direct := List.replicate refNVWriteDirectSize 0
  let direct :=
    if req.selectsBt ∧ bt.1 then
      let direct := patch direct btaddrAt (engDiagChar2hex (cString bt.2))
      patch direct btaddrAt (addrField direct btaddrAt).reverse
    else direct
  if req.selectsWifi ∧ wifi.1 then patch direct wifiaddrAt (engDiagChar2hex (cString wifi.2))
  else direct

/-- `eng_diag_btwifi`. When a read is done, `head_ptr` is that of the response. -/
def engDiagBtwifi (cpAp : Bool) (files : MacFiles) (io : MacIo) (req : BtwifiReq) : BtwifiOut :=
  if req.head.subtype &&& diagCmdRead = 0 then engDiagBtwifiWrite cpAp files io req
  else
    let direct := readDirect files io req
    let head := { req.head with subtype := 0x01, len := 8 + 106 + 2 }
    ⟨some (head.bytes ++ direct ++ crcBytes (crc16 0 direct)), files, 0x01⟩

/-! ## Reads -/

/-- The addresses in a response to a read. -/
def rspBtaddr (rsp : List UInt8) : List UInt8 := addrField (rsp.drop 8) btaddrAt
def rspWifiaddr (rsp : List UInt8) : List UInt8 := addrField (rsp.drop 8) wifiaddrAt

theorem length_addrField {direct : List UInt8} {start : Nat} (h : start + 6 ≤ direct.length) :
    (addrField direct start).length = 6 := by
  rw [addrField, List.length_take, List.length_drop]
  omega

theorem addrField_patch {direct addr : List UInt8} {start : Nat} (haddr : addr.length = 6)
    (h : start + 6 ≤ direct.length) : addrField (patch direct start addr) start = addr := by
  have hpre : (direct.take start).length = start := by
    rw [List.length_take]
    omega
  have hroom : addr.length ≤ (direct.drop start).length := by
    rw [List.length_drop]
    omega
  have hpatch := patch_length_append (direct.take start) hroom
  rw [hpre, List.take_append_drop] at hpatch
  rw [addrField, hpatch, List.drop_append_of_le_length (by omega), List.drop_eq_nil_of_le (by omega),
    List.nil_append, List.take_append_of_le_length (by omega), List.take_of_length_le (by omega)]

theorem addrField_patch_of_out (direct : List UInt8) {addr : List UInt8} {pos start : Nat}
    (h : start + 6 ≤ pos ∨ pos + addr.length ≤ start) :
    addrField (patch direct pos addr) start = addrField direct start := by
  apply List.ext_getElem?
  intro k
  unfold addrField
  by_cases hk : k < 6
  · rw [List.getElem?_take_of_lt hk, List.getElem?_take_of_lt hk, List.getElem?_drop,
      List.getElem?_drop, getElem?_patch_of_out _ _ _ (by omega)]
  · rw [List.getElem?_eq_none (by rw [List.length_take]; omega),
      List.getElem?_eq_none (by rw [List.length_take]; omega)]

theorem addrField_append {direct : List UInt8} (more : List UInt8) {start : Nat}
    (h : start + 6 ≤ direct.length) : addrField (direct ++ more) start = addrField direct start := by
  rw [addrField, List.drop_append_of_le_length (by omega),
    List.take_append_of_le_length (by rw [List.length_drop]; omega), addrField]

theorem drop_head (h : MsgHead) (a b : List UInt8) : (h.bytes ++ a ++ b).drop 8 = a ++ b := by
  have hdrop : (h.bytes ++ (a ++ b)).drop h.bytes.length = a ++ b := List.drop_left
  rw [List.append_assoc]
  exact hdrop

/-- A text that is read to its end into an empty buffer. -/
theorem engBtwifimacRead_complete (t : MacText) {res : Option Nat} (hres : 17 ≤ moved res 32) :
    (engBtwifimacRead t.text (macBuf []) res).1 = true ∧
      cString (engBtwifimacRead t.text (macBuf []) res).2 = t.text := by
  have hlen := t.length_text
  have hbuf : (macBuf []).length = 32 := rfl
  have htake : t.text.take (moved res 32) = t.text := List.take_of_length_le (by omega)
  have hdrop : (macBuf []).drop t.text.length = List.replicate 15 0 := by
    rw [hlen]
    rfl
  rw [engBtwifimacRead, htake]
  refine ⟨decide_eq_true fun hnil => ?_, ?_⟩
  · rw [hnil] at hlen
    cases hlen
  · rw [patch_front (by omega), hdrop]
    exact cString_append_zeros t.noNul 15

/-- The files hold texts of addresses. -/
def MacFiles.ofTexts (bt wifi : MacText) : MacFiles := ⟨bt.text, wifi.text⟩

/-- Both files are read to their ends. -/
structure MacIo.ReadsComplete (io : MacIo) : Prop where
  bt : 17 ≤ moved io.readBt 32
  wifi : 17 ≤ moved io.readWifi 32

/-- A read request for both addresses. -/
structure BtwifiReq.ReadsBoth (req : BtwifiReq) : Prop where
  read : req.head.subtype &&& diagCmdRead ≠ 0
  bt : req.selectsBt
  wifi : req.selectsWifi

/-- **A read returns the addresses in the files.** -/
theorem read_addrs (cpAp : Bool) (bt wifi : MacText) {io : MacIo} (hio : io.ReadsComplete)
    {req : BtwifiReq} (hreq : req.ReadsBoth) :
    ∃ rsp, (engDiagBtwifi cpAp (.ofTexts bt wifi) io req).rsp = some rsp ∧
      rspBtaddr rsp = bt.addr.reverse ∧ rspWifiaddr rsp = wifi.addr := by
  obtain ⟨hbt, hbtText⟩ := engBtwifimacRead_complete bt hio.bt
  obtain ⟨hwifi, hwifiText⟩ := engBtwifimacRead_complete wifi hio.wifi
  have hbtLen : bt.addr.length = 6 := bt.length_addr
  have hwifiLen : wifi.addr.length = 6 := wifi.length_addr
  have hzeros : (List.replicate refNVWriteDirectSize (0 : UInt8)).length = 106 :=
    List.length_replicate
  have hfield : addrField (patch (List.replicate refNVWriteDirectSize 0) btaddrAt bt.addr) btaddrAt =
      bt.addr := addrField_patch hbtLen (by rw [hzeros]; decide)
  have hdirect : readDirect (.ofTexts bt wifi) io req =
      patch (patch (patch (List.replicate refNVWriteDirectSize 0) btaddrAt bt.addr) btaddrAt
        bt.addr.reverse) wifiaddrAt wifi.addr := by
    unfold MacText.addr at hfield ⊢
    simp only [readDirect, MacFiles.ofTexts, hreq.bt, hreq.wifi, hbt, hwifi, hbtText, hwifiText,
      and_self, if_true]
    rw [hfield]
  have hlong : (readDirect (.ofTexts bt wifi) io req).length = 106 := by
    rw [hdirect, length_patch, length_patch, length_patch, hzeros]
  rw [engDiagBtwifi, if_neg hreq.read]
  refine ⟨_, rfl, ?_, ?_⟩
  · rw [rspBtaddr, drop_head, addrField_append _ (by rw [hlong]; decide), hdirect,
      addrField_patch_of_out _ (Or.inl (by decide)),
      addrField_patch (by rw [List.length_reverse, hbtLen]) (by rw [length_patch, hzeros]; decide)]
  · rw [rspWifiaddr, drop_head, addrField_append _ (by rw [hlong]; decide), hdirect,
      addrField_patch hwifiLen (by rw [length_patch, length_patch, hzeros]; decide)]

/-! ## Writes -/

/-- A write request for at least one address, with the right CRC. -/
structure BtwifiWriteReq extends BtwifiReq where
  write : head.subtype &&& diagCmdRead = 0
  selects : head.subtype &&& (diagCmdBtbit ||| diagCmdWifibit) ≠ 0
  crc_ok : crcBytesAgree (crc16 0 direct) crc1 crc2 = true

theorem BtwifiReq.length_btaddr (req : BtwifiReq) : req.btaddr.reverse.length = 6 := by
  rw [List.length_reverse]
  exact length_addrField (by rw [req.length_direct]; decide)

theorem BtwifiReq.length_wifiaddr (req : BtwifiReq) : req.wifiaddr.length = 6 :=
  length_addrField (by rw [req.length_direct]; decide)

/-- The texts that are written to the two files. -/
def BtwifiReq.btText (req : BtwifiReq) (bt : MacText) (io : MacIo) : List UInt8 :=
  (if req.selectsBt then some (macText req.btaddr.reverse) else none).getD
    (keptMac bt.text (macRand io [] []).1 io.readBt)
def BtwifiReq.wifiText (req : BtwifiReq) (wifi : MacText) (io : MacIo) : List UInt8 :=
  (if req.selectsWifi then some (macText req.wifiaddr) else none).getD
    (keptMac wifi.text (macRand io [] []).2 io.readWifi)

/-- The address that a write leaves for BT, and for WiFi. -/
def BtwifiReq.newBt (req : BtwifiReq) (bt : MacText) : MacText :=
  if req.selectsBt then .ofAddr req.btaddr.reverse req.length_btaddr else bt
def BtwifiReq.newWifi (req : BtwifiReq) (wifi : MacText) : MacText :=
  if req.selectsWifi then .ofAddr req.wifiaddr req.length_wifiaddr else wifi

section Write

variable (req : BtwifiReq) (bt wifi : MacText) {io : MacIo}

theorem length_btText : (req.btText bt io).length = 17 := by
  obtain ⟨⟨hlen, hnul⟩, -⟩ := macRand_unset io
  unfold BtwifiReq.btText
  split
  · exact (MacText.ofAddr _ req.length_btaddr).length_text
  · exact length_keptMac bt hlen hnul io.readBt

theorem length_wifiText : (req.wifiText wifi io).length = 17 := by
  obtain ⟨-, hlen, hnul⟩ := macRand_unset io
  unfold BtwifiReq.wifiText
  split
  · exact (MacText.ofAddr _ req.length_wifiaddr).length_text
  · exact length_keptMac wifi hlen hnul io.readWifi

theorem btText_complete (hio : io.ReadsComplete) : req.btText bt io = (req.newBt bt).text := by
  obtain ⟨⟨hlen, hnul⟩, -⟩ := macRand_unset io
  unfold BtwifiReq.btText BtwifiReq.newBt
  split
  · rfl
  · exact keptMac_complete bt hlen hnul hio.bt

theorem wifiText_complete (hio : io.ReadsComplete) :
    req.wifiText wifi io = (req.newWifi wifi).text := by
  obtain ⟨-, hlen, hnul⟩ := macRand_unset io
  unfold BtwifiReq.wifiText BtwifiReq.newWifi
  split
  · rfl
  · exact keptMac_complete wifi hlen hnul hio.wifi

end Write

section Outcome

variable (cpAp : Bool) (bt wifi : MacText) (io : MacIo) (req : BtwifiWriteReq)

/-- The files after a write. -/
theorem write_files : (engDiagBtwifi cpAp (.ofTexts bt wifi) io req.toBtwifiReq).files =
    ⟨(writeMac bt.text (req.btText bt io) io.writeBt).2,
      (writeMac wifi.text (req.wifiText wifi io) io.writeWifi).2⟩ := by
  rw [engDiagBtwifi, if_pos req.write, engDiagBtwifiWrite]
  simp only [req.crc_ok, if_true]
  cases cpAp <;> rfl

/-- The AP answers a request that it does not forward. -/
theorem write_rsp : (engDiagBtwifi false (.ofTexts bt wifi) io req.toBtwifiReq).rsp =
    some ({ req.head with
      subtype := if (writeMac bt.text (req.btText bt io) io.writeBt).1 ≤ 0 then 0x00 else 0x01
      len := 8 + 2 }.bytes ++ [0, 0]) := by
  rw [engDiagBtwifi, if_pos req.write, engDiagBtwifiWrite]
  simp only [req.crc_ok, if_true]
  rfl

theorem write_rsp_forwarded :
    (engDiagBtwifi true (.ofTexts bt wifi) io req.toBtwifiReq).rsp = none := by
  rw [engDiagBtwifi, if_pos req.write]
  rfl

end Outcome

/-- All of the text of an address is written. -/
def MacWrite.Complete (w : MacWrite) : Prop := 17 ≤ w.count

instance : DecidablePred MacWrite.Complete := fun _ => inferInstanceAs (Decidable (_ ≤ _))

/-- What a write is to do: a read returns the new addresses, and the old ones where none was
selected; and it is acknowledged only if both files were written. -/
structure BtwifiOk (cpAp : Bool) (bt wifi : MacText) (io : MacIo) (req : BtwifiReq) : Prop where
  readBack : io.ReadsComplete → io.writeBt.Complete → io.writeWifi.Complete →
    ∀ r : BtwifiReq, r.ReadsBoth → ∀ io₀ io₁ : MacIo, io₀.ReadsComplete → io₁.ReadsComplete →
    ∀ cpAp₀ cpAp₁, ∃ before after,
      (engDiagBtwifi cpAp₀ (.ofTexts bt wifi) io₀ r).rsp = some before ∧
      (engDiagBtwifi cpAp₁ (engDiagBtwifi cpAp (.ofTexts bt wifi) io req).files io₁ r).rsp =
        some after ∧
      rspBtaddr after = (if req.selectsBt then req.btaddr else rspBtaddr before) ∧
      rspWifiaddr after = (if req.selectsWifi then req.wifiaddr else rspWifiaddr before)
  ack : ∀ rsp, (engDiagBtwifi cpAp (.ofTexts bt wifi) io req).rsp = some rsp →
    rsp[7]? = some 0x01 → io.writeBt.Complete ∧ io.writeWifi.Complete

/-- After a write that succeeds the addresses are read back. -/
theorem write_readBack (cpAp : Bool) (bt wifi : MacText) {io : MacIo} (req : BtwifiWriteReq)
    (hio : io.ReadsComplete) (hbt : io.writeBt.Complete) (hwifi : io.writeWifi.Complete)
    {r : BtwifiReq} (hr : r.ReadsBoth) {io₀ io₁ : MacIo} (h₀ : io₀.ReadsComplete)
    (h₁ : io₁.ReadsComplete) (cpAp₀ cpAp₁ : Bool) :
    ∃ before after,
      (engDiagBtwifi cpAp₀ (.ofTexts bt wifi) io₀ r).rsp = some before ∧
      (engDiagBtwifi cpAp₁ (engDiagBtwifi cpAp (.ofTexts bt wifi) io req.toBtwifiReq).files io₁
        r).rsp = some after ∧
      rspBtaddr after = (if req.selectsBt then req.btaddr else rspBtaddr before) ∧
      rspWifiaddr after = (if req.selectsWifi then req.wifiaddr else rspWifiaddr before) := by
  have hfiles : (engDiagBtwifi cpAp (.ofTexts bt wifi) io req.toBtwifiReq).files =
      .ofTexts (req.newBt bt) (req.newWifi wifi) := by
    rw [write_files, writeMac_complete _ (length_btText _ _) hbt,
      writeMac_complete _ (length_wifiText _ _) hwifi, btText_complete _ _ hio,
      wifiText_complete _ _ hio]
    rfl
  obtain ⟨before, hbefore, hbt₀, hwifi₀⟩ := read_addrs cpAp₀ bt wifi h₀ hr
  obtain ⟨after, hafter, hbt₁, hwifi₁⟩ :=
    read_addrs cpAp₁ (req.newBt bt) (req.newWifi wifi) h₁ hr
  rw [← hfiles] at hafter
  refine ⟨before, after, hbefore, hafter, ?_, ?_⟩
  · rw [hbt₁, hbt₀, BtwifiReq.newBt]
    split
    · rw [MacText.addr_ofAddr, List.reverse_reverse]
    · rfl
  · rw [hwifi₁, hwifi₀, BtwifiReq.newWifi]
    split
    · exact MacText.addr_ofAddr _
    · rfl

/-- A write is acknowledged exactly if anything of the BT address is written. -/
theorem write_acked_iff (bt wifi : MacText) (io : MacIo) (req : BtwifiWriteReq) :
    (∃ rsp, (engDiagBtwifi false (.ofTexts bt wifi) io req.toBtwifiReq).rsp = some rsp ∧
      rsp[7]? = some 0x01) ↔ io.writeBt.count ≠ 0 := by
  rw [write_rsp, ← writeMac_pos_iff bt.text (length_btText req.toBtwifiReq bt) io.writeBt]
  constructor
  · rintro ⟨rsp, hrsp, hack⟩
    cases hrsp
    by_contra hpos
    rw [if_pos (Int.not_lt.mp hpos)] at hack
    cases hack
  · intro hpos
    rw [if_neg (Int.not_le.mpr hpos)]
    exact ⟨_, rfl, rfl⟩

/-- **A write does what it is to do exactly if the acknowledgement is left to the CP, or withheld for
the BT file, or both files are written.** -/
theorem btwifiOk_iff (cpAp : Bool) (bt wifi : MacText) (io : MacIo) (req : BtwifiWriteReq) :
    BtwifiOk cpAp bt wifi io req.toBtwifiReq ↔
      cpAp = true ∨ io.writeBt.count = 0 ∨ io.writeBt.Complete ∧ io.writeWifi.Complete := by
  constructor
  · intro h
    cases cpAp with
    | true => exact Or.inl rfl
    | false =>
      refine Or.inr (or_iff_not_imp_left.mpr fun hcount => ?_)
      obtain ⟨rsp, hrsp, hack⟩ := (write_acked_iff bt wifi io req).mpr hcount
      exact h.ack rsp hrsp hack
  · intro h
    refine ⟨fun hio hbt hwifi r hr io₀ io₁ h₀ h₁ cpAp₀ cpAp₁ =>
      write_readBack cpAp bt wifi req hio hbt hwifi hr h₀ h₁ cpAp₀ cpAp₁, fun rsp hrsp hack => ?_⟩
    cases cpAp with
    | true =>
      rw [write_rsp_forwarded] at hrsp
      cases hrsp
    | false =>
      have hcount := (write_acked_iff bt wifi io req).mp ⟨rsp, hrsp, hack⟩
      exact ((h.resolve_left Bool.false_ne_true).resolve_left hcount)

theorem crc16_zeros (n : Nat) : crc16 0 (List.replicate n 0) = 0 := by
  induction n with
  | zero => rfl
  | succ n ih =>
    rw [List.replicate_succ, crc16]
    exact ih

/-- A write of both addresses, of which the WiFi file cannot be opened. -/
def wifiNotOpened : MacIo where
  randFile := none
  randBt := (0, 0)
  randWifi := (0, 0)
  readBt := some 17
  readWifi := some 17
  writeWifi := .noOpen
  writeBt := .wrote (some 17)

def bothAddrsReq : BtwifiWriteReq where
  head := ⟨1, 116, diagCmdImeibtwifi, diagCmdBtbit ||| diagCmdWifibit⟩
  direct := List.replicate refNVWriteDirectSize 0
  crc1 := 0
  crc2 := 0
  length_direct := List.length_replicate
  write := by decide
  selects := by decide
  crc_ok := by
    rw [crc16_zeros]
    decide

/-- It is acknowledged. -/
theorem not_btwifiOk_wifi_not_opened :
    let stored := MacText.ofAddr (List.replicate 6 0x11) rfl
    ¬ BtwifiOk false stored stored wifiNotOpened bothAddrsReq.toBtwifiReq := by
  intro stored h
  obtain ⟨rsp, hrsp, hack⟩ :=
    (write_acked_iff stored stored wifiNotOpened bothAddrsReq).mpr (by decide)
  exact absurd (h.ack rsp hrsp hack).2 (by decide)

end SprdHal.Engmode

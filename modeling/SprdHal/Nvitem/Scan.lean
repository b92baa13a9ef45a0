import SprdHal.Nvitem.Images

/-!
# Where a payload ends

A reader of the request format needs three things to go on in the middle of a request: what comes
next, the index of the last request token, and how much data is outstanding. This is a `Cursor`.
`scan` reads a payload from a cursor, by the format alone: it says whether the payload ends between
two items of the request, inside the data of a body token or inside a token, or whether the request
came to an end before, and which bytes were then left unread.

`Parses.ends` ties the analyser to it: the static variables are a cursor, the bytes copied out of
the payload are the bytes read, and the kind of end decides the response.
-/

namespace SprdHal.Nvitem

open SprdHal.Lib

instance (f : UInt32) (tok : List UInt8) : Decidable (BodyOk f tok) := instDecidableAnd
instance (f : UInt32) (tok : List UInt8) : Decidable (TailOk f tok) := instDecidableAnd

/-- What the reader of a request expects next. -/
inductive Cursor
  | head
  | body (frame : UInt32)
  | data (frame : UInt32) (len : Nat)
  deriving DecidableEq

/-- How the reading of a payload ends. -/
inductive ScanEnd
  /-- after a whole token or all of its data -/
  | between (c : Cursor)
  /-- inside the data of a body token -/
  | inData (c : Cursor)
  /-- inside a token, of which the payload has the bytes `part` -/
  | inToken (c : Cursor) (part : List UInt8)
  /-- at a token that was refused -/
  | refused (rest : List UInt8)
  /-- at an accepted tail token -/
  | committed (rest : List UInt8)
  deriving DecidableEq

/-- The end of a payload that the reader did not get to. -/
def ScanEnd.unread : ScanEnd → List UInt8
  | .between _ | .inData _ => []
  | .inToken _ part => part
  | .refused rest | .committed rest => rest

/-- Where the next payload of the same request is read from. -/
def ScanEnd.next : ScanEnd → Option Cursor
  | .between c | .inData c | .inToken c _ => some c
  | .refused _ | .committed _ => none

section Scan

variable (known : UInt32 → Bool)

/-- Read a payload. `known` tells the partition ids that have an image. -/
def scan (c : Cursor) (buf : List UInt8) : ScanEnd :=
  if buf = [] then .between c
  else
    match c with
    | .head =>
      if buf.length < 20 then .inToken .head buf
      else if reqPacketType buf = syncReqHead ∧ known (reqPartId buf) then
        scan (.body (reqReqIdx buf)) (buf.drop 20)
      else .refused (buf.drop 20)
    | .body frame =>
      if buf.length < 20 then .inToken (.body frame) buf
      else if reqPacketType buf = syncReqBody ∧ reqReqIdx buf = frame + 1 then
        scan (.data (frame + 1) (reqNum buf * UInt32.ofNat ramnvSectSize).toNat) (buf.drop 20)
      else if reqPacketType buf = syncReqTail ∧ reqReqIdx buf = frame + 1 then
        .committed (buf.drop 20)
      else .refused (buf.drop 20)
    | .data frame len =>
      if buf.length < len then .inData (.data frame (len - buf.length))
      else scan (.body frame) (buf.drop len)
termination_by 2 * buf.length + (match c with | .data .. => 1 | _ => 0)
decreasing_by all_goals simp only [List.length_drop]; omega

theorem scan_nil (c : Cursor) : scan known c [] = .between c := by
  rw [scan.eq_def, if_pos rfl]

variable {buf tok : List UInt8}

/-- A payload that is too short for a token is left alone. -/
theorem scan_short {c : Cursor} (hc : ∀ f n, c ≠ .data f n) (hne : buf ≠ [])
    (hl : buf.length < 20) : scan known c buf = .inToken c buf := by
  cases c with
  | head => rw [scan, if_neg hne]; exact if_pos hl
  | body f => rw [scan, if_neg hne]; exact if_pos hl
  | data f n => exact absurd rfl (hc f n)

theorem scan_part {f : UInt32} {n : Nat} (hne : buf ≠ []) (hl : buf.length < n) :
    scan known (.data f n) buf = .inData (.data f (n - buf.length)) := by
  rw [scan, if_neg hne]
  exact if_pos hl

theorem scan_data {f : UInt32} {n : Nat} {d rest : List UInt8} (hne : d ++ rest ≠ [])
    (hl : d.length = n) : scan known (.data f n) (d ++ rest) = scan known (.body f) rest := by
  rw [scan.eq_def known (.data f n), if_neg hne]
  simp only [List.length_append, List.drop_left' hl]
  exact if_neg (by omega)

theorem req_append (ht : tok.length = 20) (rest : List UInt8) :
    reqPacketType (tok ++ rest) = reqPacketType tok ∧ reqReqIdx (tok ++ rest) = reqReqIdx tok ∧
      reqPartId (tok ++ rest) = reqPartId tok ∧ reqNum (tok ++ rest) = reqNum tok :=
  ⟨leWord_append _ (by omega), leWord_append _ (by omega), leWord_append _ (by omega),
    leWord_append _ (by omega)⟩

theorem scan_head (ht : tok.length = 20) (rest : List UInt8) :
    scan known .head (tok ++ rest) =
      if reqPacketType tok = syncReqHead ∧ known (reqPartId tok) then
        scan known (.body (reqReqIdx tok)) rest
      else .refused rest := by
  obtain ⟨h1, h2, h3, -⟩ := req_append ht rest
  have hne : tok ++ rest ≠ [] := fun h => by simp [(List.append_eq_nil_iff.mp h).1] at ht
  rw [scan.eq_def known .head, if_neg hne]
  simp only [h1, h2, h3, List.length_append, ht, List.drop_left' ht]
  exact if_neg (by omega)

theorem scan_body (ht : tok.length = 20) (f : UInt32) (rest : List UInt8) :
    scan known (.body f) (tok ++ rest) =
      if BodyOk f tok then
        scan known (.data (f + 1) (reqNum tok * UInt32.ofNat ramnvSectSize).toNat) rest
      else if TailOk f tok then .committed rest
      else .refused rest := by
  obtain ⟨h1, h2, -, h4⟩ := req_append ht rest
  have hne : tok ++ rest ≠ [] := fun h => by simp [(List.append_eq_nil_iff.mp h).1] at ht
  rw [scan.eq_def known (.body f), if_neg hne]
  simp only [h1, h2, h4, List.length_append, ht, List.drop_left' ht]
  exact if_neg (by omega)

theorem length_unread_le (c : Cursor) (buf : List UInt8) :
    (scan known c buf).unread.length ≤ buf.length := by
  fun_induction scan known c buf with
  | case1 => exact Nat.zero_le _
  | case2 => exact Nat.le_refl _
  | case3 _ _ _ _ ih =>
    rw [List.length_drop] at ih
    omega
  | case4 => simp [ScanEnd.unread]
  | case5 => exact Nat.le_refl _
  | case6 _ _ _ _ _ ih =>
    rw [List.length_drop] at ih
    omega
  | case7 => simp [ScanEnd.unread]
  | case8 => simp [ScanEnd.unread]
  | case9 => exact Nat.zero_le _
  | case10 _ _ _ _ _ ih =>
    rw [List.length_drop] at ih
    omega

end Scan

/-! ## The analyser follows the reader -/

section Analyser

/-- The static variables as a cursor. -/
def Analyzer.cursor (s : Analyzer) : Cursor :=
  match s.sync.syncState with
  | .head => .head
  | .body => .body s.sync.syncReqFrame
  | .data => .data s.sync.syncReqFrame s.sync.len.toNat

def RamNvCtl.knows (c : RamNvCtl) (partId : UInt32) : Bool := getCtlId c partId != 0xFFFFFFFF

theorem getCtlId_congr {c c' : RamNvCtl} (h : c'.layout = c.layout) : getCtlId c' = getCtlId c := by
  have hids : c'.part.map (·.partId) = c.part.map (·.partId) := by
    have := congrArg (List.map Prod.fst) h
    simpa [RamNvCtl.layout, Function.comp_def] using this
  funext partId
  have hidx : ∀ d : RamNvCtl, d.part.findIdx? (fun p => p.partId == partId) =
      (d.part.map (·.partId)).findIdx? (· == partId) := fun d => by
    rw [List.findIdx?_map]
    rfl
  unfold getCtlId
  rw [hidx, hidx, hids]

theorem knows_congr {c c' : RamNvCtl} (h : c'.layout = c.layout) : c'.knows = c.knows := by
  funext partId
  rw [RamNvCtl.knows, getCtlId_congr h, RamNvCtl.knows]

theorem headOk_iff (c : RamNvCtl) (tok : List UInt8) :
    HeadOk c tok ↔ reqPacketType tok = syncReqHead ∧ c.knows (reqPartId tok) = true := by
  simp [HeadOk, RamNvCtl.knows]

/-- The payload bytes the analyser copied, into the token buffer or into an image. -/
def parsedBytes : List Event → List UInt8
  | [] => []
  | .token raw :: ev => raw ++ parsedBytes ev
  | .writeData _ _ bytes :: ev => bytes ++ parsedBytes ev
  | _ :: ev => parsedBytes ev

/-- The responses sent. -/
def responses : List Event → List PacketRsp
  | [] => []
  | .sendPacktRsp rsp :: ev => rsp :: responses ev
  | _ :: ev => responses ev

/-- What the kind of end says about the state afterwards and the response. -/
def EndSpec (env : SaveEnv) (hd : PacketHead) (s' : Analyzer) (ev : List Event) : ScanEnd → Prop
  | .between c => s'.sync.syncBusy = true ∧ s'.cursor = c ∧ responses ev = []
  | .inData c | .inToken c _ =>
    s'.sync.syncBusy = true ∧ s'.cursor = c ∧ responses ev = [sendPacketRsp hd 1]
  | .refused _ => s'.sync.syncBusy = false ∧ responses ev = [sendPacketRsp hd 0]
  | .committed _ => s'.sync.syncBusy = false ∧ ∃ c id r, Event.tail id r ∈ ev ∧
      responses ev = [sendPacketRsp hd (backupData env c id).2]

/-- Events without a response in front change nothing in the specification of the end. -/
theorem EndSpec.mono {env : SaveEnv} {hd : PacketHead} {s' : Analyzer} {ev ev' : List Event}
    {e : ScanEnd} (h : EndSpec env hd s' ev e) (hr : responses ev' = responses ev)
    (hm : ∀ x ∈ ev, x ∈ ev') : EndSpec env hd s' ev' e := by
  cases e with
  | between c => exact ⟨h.1, h.2.1, hr.trans h.2.2⟩
  | inData c => exact ⟨h.1, h.2.1, hr.trans h.2.2⟩
  | inToken c part => exact ⟨h.1, h.2.1, hr.trans h.2.2⟩
  | refused rest => exact ⟨h.1, hr.trans h.2⟩
  | committed rest =>
    obtain ⟨h1, c, id, r, h2, h3⟩ := h
    exact ⟨h1, c, id, r, hm _ h2, hr.trans h3⟩

theorem cursor_ne_data {s : Analyzer} (hp : s.sync.syncState ≠ .data) (f : UInt32) (n : Nat) :
    s.cursor ≠ .data f n := by
  unfold Analyzer.cursor
  cases h : s.sync.syncState with
  | head => simp
  | body => simp
  | data => exact absurd h hp

/-- **Every exit of the inner loop is where the reader ends.** -/
theorem Parses.ends {env : SaveEnv} {hd : PacketHead} {s s' : Analyzer} {buf : List UInt8}
    {ev : List Event} (h : Parses env hd s buf s' ev) : s.sync.syncBusy = true →
    EndSpec env hd s' ev (scan s.ctl.knows s.cursor buf) ∧
      buf = parsedBytes ev ++ (scan s.ctl.knows s.cursor buf).unread := by
  induction h with
  | nil =>
    intro hb
    rw [scan_nil]
    exact ⟨⟨hb, rfl, rfl⟩, rfl⟩
  | @short s buf hp hne hl =>
    intro hb
    rw [scan_short _ (cursor_ne_data hp) hne hl]
    exact ⟨⟨hb, rfl, rfl⟩, rfl⟩
  | @badHead s tok rest hp ht hbad =>
    intro _
    have hc : s.cursor = .head := by simp only [Analyzer.cursor, hp]
    rw [hc, scan_head _ ht, if_neg fun h => hbad ((headOk_iff _ _).mpr h)]
    exact ⟨⟨rfl, rfl⟩, by simp [parsedBytes, rspEvent, ScanEnd.unread]⟩
  | @head s tok rest s' ev hp ht hok _ ih =>
    intro hb
    have hc : s.cursor = .head := by simp only [Analyzer.cursor, hp]
    rw [hc, scan_head _ ht, if_pos ((headOk_iff _ _).mp hok)]
    obtain ⟨h1, h2⟩ := ih hb
    refine ⟨h1.mono rfl fun x hx => List.mem_cons_of_mem _ (List.mem_cons_of_mem _ hx), ?_⟩
    rw [show parsedBytes _ = tok ++ parsedBytes ev from rfl, List.append_assoc]
    exact congrArg (tok ++ ·) h2
  | @badBody s tok rest hp ht hnb hnt =>
    intro _
    have hc : s.cursor = .body s.sync.syncReqFrame := by simp only [Analyzer.cursor, hp]
    rw [hc, scan_body _ ht, if_neg hnb, if_neg hnt]
    exact ⟨⟨rfl, rfl⟩, by simp [parsedBytes, rspEvent, ScanEnd.unread]⟩
  | @body s tok rest s' ev hp ht hok _ ih =>
    intro hb
    have hc : s.cursor = .body s.sync.syncReqFrame := by simp only [Analyzer.cursor, hp]
    have hk := knows_congr (markDirtyInfo_same s.ctl s.sync.id (reqStart tok) (reqNum tok)).layout_eq
    rw [hc, scan_body _ ht, if_pos hok, ← hk]
    obtain ⟨h1, h2⟩ := ih hb
    refine ⟨h1.mono rfl fun x hx => List.mem_cons_of_mem _ (List.mem_cons_of_mem _ hx), ?_⟩
    rw [show parsedBytes _ = tok ++ parsedBytes ev from rfl, List.append_assoc]
    exact congrArg (tok ++ ·) h2
  | @tail s tok rest hp ht hok =>
    intro _
    have hc : s.cursor = .body s.sync.syncReqFrame := by simp only [Analyzer.cursor, hp]
    have hnb : ¬ BodyOk s.sync.syncReqFrame tok := fun h =>
      absurd (h.1.symm.trans hok.1) (by decide)
    rw [hc, scan_body _ ht, if_neg hnb, if_pos hok]
    exact ⟨⟨rfl, s.ctl, s.sync.id, reqReqIdx tok, by simp, rfl⟩,
      by simp [parsedBytes, rspEvent, ScanEnd.unread]⟩
  | @data s d rest s' ev hp hlen hne _ ih =>
    intro hb
    have hc : s.cursor = .data s.sync.syncReqFrame s.sync.len.toNat := by
      simp only [Analyzer.cursor, hp]
    have hk := knows_congr (layout_writeData s.ctl s.sync.id s.sync.start d)
    rw [hc, scan_data _ hne hlen, ← hk]
    obtain ⟨h1, h2⟩ := ih hb
    refine ⟨h1.mono rfl fun x hx => List.mem_cons_of_mem _ hx, ?_⟩
    rw [show parsedBytes _ = d ++ parsedBytes ev from rfl, List.append_assoc]
    exact congrArg (d ++ ·) h2
  | @part s d hp hne hl =>
    intro hb
    have hc : s.cursor = .data s.sync.syncReqFrame s.sync.len.toNat := by
      simp only [Analyzer.cursor, hp]
    rw [hc, scan_part _ hne hl]
    refine ⟨⟨hb, ?_, rfl⟩, by simp [parsedBytes, rspEvent, ScanEnd.unread]⟩
    obtain ⟨-, hlen⟩ := ofNat_length_toNat (Nat.le_of_lt hl)
    simp only [Analyzer.cursor, Analyzer.afterPart, hp, hlen]

end Analyser

end SprdHal.Nvitem

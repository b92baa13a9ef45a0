import SprdHal.Lib.Machine
import SprdHal.Nvitem.Buf
import SprdHal.Nvitem.Packet

/-!
# The request analyser (`nvitem_sync.c`)

A request is a head token, any number of body tokens each followed by its data, and a tail token.
`syncAnalyzer` consumes the payloads of the packets one after the other; its state survives from
packet to packet in the static variables of the source (`SyncVars`). One iteration of the outer
loop is `nvitemdStep`, one iteration of the inner `while(0 != size)` loop is `analyzeOnce`.

Besides the new state every function returns the calls it makes and the tokens it accepts, as a
list of events: the responses sent, the bytes taken from the payload, and what was asked of the
buffers.
-/

namespace SprdHal.Nvitem

open SprdHal.Lib

/-- `_syncState`: what the analyser expects next. -/
inductive SyncPhase
  | head | body | data
  deriving DecidableEq, Repr

/-- `sizeof(SYNC_REQ)` -/
def syncReqSize : UInt32 := 20

/-- `syncReqBuf` is declared as an array of `sizeof(SYNC_REQ)` pointers of four bytes, and its
offsets count pointers. -/
def syncReqPtrSize : Nat := 4

/-- The static variables of `nvitem_sync.c`. -/
structure SyncVars where
  syncState : SyncPhase
  syncBusy : Bool
  syncReqFrame : UInt32
  syncReqBuf : List UInt8
  ofst : UInt32
  id : UInt32
  start : UInt32
  len : UInt32
  syncReqBuf_size : syncReqBuf.length = 80
  deriving DecidableEq

/-- `_syncInit`; the token buffer keeps its contents. -/
def syncInit (v : SyncVars) : SyncVars :=
  { v with
    syncState := .head, syncBusy := false, syncReqFrame := 0, ofst := 0, id := 0xFFFFFFFF,
    start := 0, len := 0 }

/-- The fields of `SYNC_REQ`, read from the first 20 bytes of the token buffer. The fourth word is
`sctSize` in a head and `start` in a body. -/
def reqPacketType (raw : List UInt8) : UInt32 := leWord raw 0
def reqReqIdx (raw : List UInt8) : UInt32 := leWord raw 4
def reqPartId (raw : List UInt8) : UInt32 := leWord raw 8
def reqStart (raw : List UInt8) : UInt32 := leWord raw 12
def reqNum (raw : List UInt8) : UInt32 := leWord raw 16

/-- `SYNC_REQ_HEAD`, `SYNC_REQ_BODY`, `SYNC_REQ_TAIL` -/
def syncReqHead : UInt32 := 0
def syncReqBody : UInt32 := 1
def syncReqTail : UInt32 := 2

/-- The bytes of a `SYNC_REQ`. -/
def syncReq (packetType reqIdx partId start num : UInt32) : List UInt8 :=
  leBytes packetType ++ leBytes reqIdx ++ leBytes partId ++ leBytes start ++ leBytes num

/-- What the analyser does to its surroundings, in order. -/
inductive Event
  /-- `__getToken` completed a token from these payload bytes -/
  | token (raw : List UInt8)
  /-- a head token was accepted for the partition at this index -/
  | head (id reqIdx : UInt32)
  /-- a body token was accepted and `_markDirtyInfo` called -/
  | body (id reqIdx start num : UInt32)
  /-- a tail token was accepted -/
  | tail (id reqIdx : UInt32)
  | writeData (id start : UInt32) (bytes : List UInt8)
  | backupData (id : UInt32)
  | restoreData (id : UInt32)
  | sendPacktRsp (rsp : PacketRsp)
  deriving DecidableEq

/-- The buffers and the static variables of the analyser. -/
structure Analyzer where
  ctl : RamNvCtl
  sync : SyncVars
  deriving DecidableEq

/-- `_syncReset`: commit, or undo what the open request did to `fromChannel`. -/
def syncReset (env : SaveEnv) (ifSuc : Bool) (s : Analyzer) : Analyzer × UInt8 × List Event :=
  if ifSuc then
    let r := backupData env s.ctl s.sync.id
    (⟨r.1, syncInit s.sync⟩, r.2, [.backupData s.sync.id])
  else if s.sync.syncState ≠ .head then
    (⟨restoreData s.ctl s.sync.id, syncInit s.sync⟩, 1, [.restoreData s.sync.id])
  else (⟨s.ctl, syncInit s.sync⟩, 1, [])

/-- The result of `__getToken`: whether the token is complete, the variables, the payload bytes
copied and the payload bytes left. -/
structure TokenResult where
  got : Bool
  vars : SyncVars
  taken : List UInt8
  rest : List UInt8

/-- `memcpy(syncReqBuf+_ofst, buf, ...)` -/
def SyncVars.copyToken (v : SyncVars) (buf : List UInt8) : SyncVars :=
  { v with
    syncReqBuf := patch v.syncReqBuf (syncReqPtrSize * v.ofst.toNat) buf
    syncReqBuf_size := by simpa using v.syncReqBuf_size }

/-- `__getToken` -/
def getToken (v : SyncVars) (buf : List UInt8) : TokenResult :=
  let need := (syncReqSize - v.ofst).toNat
  if need > buf.length then
    if buf.length ≠ 0 then ⟨false, v, [], buf⟩
    else ⟨false, { v.copyToken buf with ofst := v.ofst + UInt32.ofNat buf.length }, buf, []⟩
  else if need = 0 then ⟨true, { v with ofst := 0 }, [], buf⟩
  else ⟨true, { v.copyToken (buf.take need) with ofst := 0 }, buf.take need, buf.drop need⟩

/-- `SYNC_CONTINUE`, `SYNC_NEXT`, `SYNC_DONE`, `SYNC_FAIL` -/
inductive SyncRet
  | cont | next | done | fail
  deriving DecidableEq, Repr

/-- What the three token functions return: their code, the new state, the payload left, and the
events. -/
structure SyncResult where
  ret : SyncRet
  state : Analyzer
  rest : List UInt8
  events : List Event

/-- `_syncGetHead` -/
def syncGetHead (s : Analyzer) (buf : List UInt8) : SyncResult :=
  let t := getToken s.sync buf
  let req := t.vars.syncReqBuf
  if !t.got then ⟨.cont, ⟨s.ctl, t.vars⟩, t.rest, []⟩
  else if syncReqHead ≠ reqPacketType req then ⟨.fail, ⟨s.ctl, t.vars⟩, t.rest, [.token t.taken]⟩
  else
    let id := getCtlId s.ctl (reqPartId req)
    let v := { t.vars with syncReqFrame := reqReqIdx req, id := id }
    if id = 0xFFFFFFFF then ⟨.fail, ⟨s.ctl, v⟩, t.rest, [.token t.taken]⟩
    else ⟨.next, ⟨s.ctl, v⟩, t.rest, [.token t.taken, .head id (reqReqIdx req)]⟩

/-- `_syncGetBody`. The `partId` of a body or tail token is not looked at. -/
def syncGetBody (s : Analyzer) (buf : List UInt8) : SyncResult :=
  let t := getToken s.sync buf
  let req := t.vars.syncReqBuf
  if !t.got then ⟨.cont, ⟨s.ctl, t.vars⟩, t.rest, []⟩
  else if syncReqBody = reqPacketType req then
    if t.vars.syncReqFrame + 1 ≠ reqReqIdx req then
      ⟨.fail, ⟨s.ctl, t.vars⟩, t.rest, [.token t.taken]⟩
    else
      let v := { t.vars with
        syncReqFrame := t.vars.syncReqFrame + 1
        start := reqStart req * UInt32.ofNat ramnvSectSize
        len := reqNum req * UInt32.ofNat ramnvSectSize }
      ⟨.next, ⟨markDirtyInfo s.ctl v.id (reqStart req) (reqNum req), v⟩, t.rest,
        [.token t.taken, .body v.id (reqReqIdx req) (reqStart req) (reqNum req)]⟩
  else if syncReqTail = reqPacketType req then
    if t.vars.syncReqFrame + 1 ≠ reqReqIdx req then
      ⟨.fail, ⟨s.ctl, t.vars⟩, t.rest, [.token t.taken]⟩
    else
      ⟨.done, ⟨s.ctl, { t.vars with syncReqFrame := t.vars.syncReqFrame + 1 }⟩, t.rest,
        [.token t.taken, .tail t.vars.id (reqReqIdx req)]⟩
  else ⟨.fail, ⟨s.ctl, t.vars⟩, t.rest, [.token t.taken]⟩

/-- `_syncGetData` -/
def syncGetData (s : Analyzer) (buf : List UInt8) : SyncResult :=
  let v := s.sync
  if v.len.toNat ≤ buf.length then
    let d := buf.take v.len.toNat
    ⟨.next, ⟨writeData s.ctl v.id v.start d, { v with start := v.start + v.len, len := 0 }⟩,
      buf.drop v.len.toNat, [.writeData v.id v.start d]⟩
  else
    let n := UInt32.ofNat buf.length
    ⟨.cont, ⟨writeData s.ctl v.id v.start buf, { v with start := v.start + n, len := v.len - n }⟩,
      [], [.writeData v.id v.start buf]⟩

/-- How an iteration of the inner loop ends: `continue` with the payload left, or `break`. -/
inductive Next
  | again (s : Analyzer) (rest : List UInt8) (events : List Event)
  | stop (s : Analyzer) (events : List Event)

def Analyzer.setPhase (s : Analyzer) (p : SyncPhase) : Analyzer :=
  { s with sync := { s.sync with syncState := p } }

/-- `_syncReset(SYNC_FAIL_RESET); _sendPacktRsp(0); break;` -/
def reject (env : SaveEnv) (head : PacketHead) (r : SyncResult) : Next :=
  let t := syncReset env false r.state
  .stop t.1 (r.events ++ t.2.2 ++ [.sendPacktRsp (sendPacketRsp head 0)])

/-- `_sendPacktRsp(1); break;` -/
def needMore (head : PacketHead) (r : SyncResult) : Next :=
  .stop r.state (r.events ++ [.sendPacktRsp (sendPacketRsp head 1)])

/-- The body of the inner loop. A return code without a branch of its own falls through to the
next iteration. -/
def analyzeOnce (env : SaveEnv) (head : PacketHead) (s : Analyzer) (buf : List UInt8) : Next :=
  match s.sync.syncState with
  | .head =>
    let r := syncGetHead s buf
    match r.ret with
    | .fail => reject env head r
    | .next => .again (r.state.setPhase .body) r.rest r.events
    | .cont => needMore head r
    | .done => .again r.state r.rest r.events
  | .body =>
    let r := syncGetBody s buf
    match r.ret with
    | .fail => reject env head r
    | .next => .again (r.state.setPhase .data) r.rest r.events
    | .cont => needMore head r
    | .done =>
      let t := syncReset env true r.state
      .stop t.1 (r.events ++ t.2.2 ++ [.sendPacktRsp (sendPacketRsp head t.2.1)])
  | .data =>
    let r := syncGetData s buf
    match r.ret with
    | .cont => needMore head r
    | .next => .again (r.state.setPhase .body) r.rest r.events
    | _ => .again r.state r.rest r.events

/-! ## Termination of the inner loop

Every iteration that goes on consumes payload, except the one that finds no data to wait for; that
one leaves the data phase. -/

-- a token may be completed without payload only from a non-zero `_ofst`, which it resets
def ofstWeight (ofst : UInt32) : Nat := if ofst = 0 then 0 else 3

/-- A bound on the iterations left. -/
def analyzeMeasure (s : Analyzer) (buf : List UInt8) : Nat :=
  4 * buf.length + (if s.sync.syncState = .data then 1 else 0) + ofstWeight s.sync.ofst

theorem getToken_measure {v : SyncVars} {buf : List UInt8} (h : (getToken v buf).got = true) :
    (getToken v buf).vars.ofst = 0 ∧
      4 * (getToken v buf).rest.length + 2 ≤ 4 * buf.length + ofstWeight v.ofst := by
  unfold getToken at h ⊢
  simp only at h ⊢
  by_cases hlen : (syncReqSize - v.ofst).toNat > buf.length
  · rw [if_pos hlen] at h
    split at h <;> cases h
  · rw [if_neg hlen]
    by_cases hz : (syncReqSize - v.ofst).toNat = 0
    · have ho : v.ofst ≠ 0 := by
        intro ho
        rw [ho] at hz
        exact absurd hz (by decide)
      rw [if_pos hz, ofstWeight, if_neg ho]
      exact ⟨rfl, by simp⟩
    · rw [if_neg hz]
      refine ⟨rfl, ?_⟩
      simp only [List.length_drop]
      omega

theorem syncGetHead_measure {s : Analyzer} {buf : List UInt8}
    (h : (syncGetHead s buf).ret ≠ .cont) :
    (syncGetHead s buf).state.sync.ofst = 0 ∧
      4 * (syncGetHead s buf).rest.length + 2 ≤ 4 * buf.length + ofstWeight s.sync.ofst := by
  cases hg : (getToken s.sync buf).got
  · simp [syncGetHead, hg] at h
  · unfold syncGetHead
    simp only [hg, Bool.not_true, Bool.false_eq_true, if_false]
    split
    · exact getToken_measure hg
    · split <;> exact getToken_measure hg

theorem syncGetBody_measure {s : Analyzer} {buf : List UInt8}
    (h : (syncGetBody s buf).ret ≠ .cont) :
    (syncGetBody s buf).state.sync.ofst = 0 ∧
      4 * (syncGetBody s buf).rest.length + 2 ≤ 4 * buf.length + ofstWeight s.sync.ofst := by
  cases hg : (getToken s.sync buf).got
  · simp [syncGetBody, hg] at h
  · unfold syncGetBody
    simp only [hg, Bool.not_true, Bool.false_eq_true, if_false]
    repeat' split
    all_goals exact getToken_measure hg

theorem analyzeOnce_measure {env : SaveEnv} {head : PacketHead} {s s' : Analyzer}
    {buf rest : List UInt8} {ev : List Event} (h : analyzeOnce env head s buf = .again s' rest ev) :
    analyzeMeasure s' rest < analyzeMeasure s buf := by
  unfold analyzeOnce at h
  unfold analyzeMeasure
  split at h
  · rename_i hp
    have hm := @syncGetHead_measure s buf
    simp only at h
    split at h
    all_goals simp only [reject, needMore, Next.again.injEq, reduceCtorEq] at h
    all_goals
      rename_i hret
      obtain ⟨ho, hb⟩ := hm (by rw [hret]; decide)
      obtain ⟨rfl, rfl, -⟩ := h
      simp only [Analyzer.setPhase, ho, hp, ofstWeight, if_true] at hb ⊢
      split <;> omega
  · rename_i hp
    have hm := @syncGetBody_measure s buf
    simp only at h
    split at h
    all_goals simp only [reject, needMore, Next.again.injEq, reduceCtorEq] at h
    rename_i hret
    obtain ⟨ho, hb⟩ := hm (by rw [hret]; decide)
    obtain ⟨rfl, rfl, -⟩ := h
    simp only [Analyzer.setPhase, ho, hp, ofstWeight, if_true] at hb ⊢
    split <;> omega
  · rename_i hp
    by_cases hl : s.sync.len.toNat ≤ buf.length
    · simp only [syncGetData, hl, if_true, Next.again.injEq] at h
      obtain ⟨rfl, rfl, -⟩ := h
      simp only [Analyzer.setPhase, hp, List.length_drop, reduceCtorEq, if_true, if_false]
      omega
    · simp [syncGetData, hl, needMore] at h

/-! ## The loops -/

/-- `while(0 != size)`: the state after the payload, and the events. -/
def analyzeLoop (env : SaveEnv) (head : PacketHead) (s : Analyzer) (buf : List UInt8) :
    Analyzer × List Event :=
  if buf = [] then (s, [])
  else
    match _h : analyzeOnce env head s buf with
    | .again s' rest ev =>
      ((analyzeLoop env head s' rest).1, ev ++ (analyzeLoop env head s' rest).2)
    | .stop s' ev => (s', ev)
termination_by analyzeMeasure s buf
decreasing_by all_goals exact analyzeOnce_measure _h

/-- The daemon between two packets. -/
structure Nvitemd where
  an : Analyzer
  pkt : PacketState
  deriving DecidableEq

/-- One read of the channel, with the surroundings of the commit it may lead to. -/
structure Input where
  read : ChannelRead
  env : SaveEnv

/-- `_syncBusy = 1` -/
def Analyzer.busy (s : Analyzer) : Analyzer := { s with sync := { s.sync with syncBusy := true } }

/-- `_syncBusy = 1; while(0 != size) { ... }` -/
def analyzePacket (i : Input) (s : Analyzer) : Analyzer × List Event :=
  analyzeLoop i.env i.read.head s.busy i.read.payload

/-- One iteration of the outer loop of `syncAnalyzer`. When the channel fails `syncAnalyzer`
returns and `main` calls `_initPacket` and `_syncInit` before it enters it again. -/
def nvitemdStep (s : Nvitemd) (i : Input) : Nvitemd × List Event :=
  let p := getPacket s.pkt i.read
  match p.1 with
  | .fail =>
    let t := syncReset i.env false s.an
    (⟨{ t.1 with sync := syncInit t.1.sync }, initPacket⟩, t.2.2)
  | .start =>
    if s.an.sync.syncBusy then
      let t := syncReset i.env false s.an
      let r := analyzePacket i t.1
      (⟨r.1, p.2⟩, t.2.2 ++ r.2)
    else
      let r := analyzePacket i s.an
      (⟨r.1, p.2⟩, r.2)
  | .cont =>
    if !s.an.sync.syncBusy then
      (⟨s.an, p.2⟩, [.sendPacktRsp (sendPacketRsp i.read.head 0)])
    else
      let r := analyzePacket i s.an
      (⟨r.1, p.2⟩, r.2)
  | .skip => (⟨s.an, p.2⟩, [])

def nvitemd : Machine Nvitemd Input Event := ⟨nvitemdStep⟩

/-- The static variables before `_syncInit`. -/
def syncVars0 : SyncVars :=
  ⟨.head, false, 0, List.replicate 80 0, 0, 0xFFFFFFFF, 0, 0, List.length_replicate⟩

/-- `initBuf(); _initPacket(); _syncInit();` -/
def nvitemdInit (config : List PartSource) : Nvitemd :=
  ⟨⟨initBuf config, syncInit syncVars0⟩, initPacket⟩

-- a partition of one sector of zeros, and surroundings in which every disk write succeeds; the
-- concrete runs below use them
def zeroPart : PartSource := ⟨1, 512, true, List.replicate 512 0, List.length_replicate⟩

def plainEnv : SaveEnv := ⟨false, fun _ => true⟩

end SprdHal.Nvitem

import SprdHal.Nvitem.Sync

/-!
# What one packet does to the analyser

`Parses` is a big-step reading of the inner loop: how a payload is cut into accepted tokens and
data, and each way the loop ends. `parses` says that `analyzeLoop` follows it from every state with
`_ofst = 0`, which is every reachable state: `__getToken` gives up as soon as some but not enough
bytes are left, so nothing is ever stored at a positive offset.

The results about the analyser are inductions on `Parses`; the functions of `nvitem_sync.c` are not
unfolded again.
-/

namespace SprdHal.Nvitem

open SprdHal.Lib

/-! ## Tokens -/

/-- The variables after a whole token has been copied to the start of the token buffer. -/
def SyncVars.load (v : SyncVars) (tok : List UInt8) : SyncVars :=
  { v.copyToken tok with ofst := 0 }

@[simp] theorem load_syncState (v : SyncVars) (tok : List UInt8) :
    (v.load tok).syncState = v.syncState := rfl

@[simp] theorem load_syncReqFrame (v : SyncVars) (tok : List UInt8) :
    (v.load tok).syncReqFrame = v.syncReqFrame := rfl

@[simp] theorem load_id (v : SyncVars) (tok : List UInt8) : (v.load tok).id = v.id := rfl

theorem leWord_load {v : SyncVars} {tok : List UInt8} (h0 : v.ofst = 0) (ht : tok.length = 20)
    {i : Nat} (hi : i + 4 ≤ 20) : leWord (v.load tok).syncReqBuf i = leWord tok i := by
  have hget : ∀ k, k < 20 → (v.load tok).syncReqBuf[k]? = tok[k]? := by
    intro k hk
    have hb : k < v.syncReqBuf.length := by rw [v.syncReqBuf_size]; omega
    simp [SyncVars.load, SyncVars.copyToken, h0, getElem?_patch, List.getElem?_eq_getElem hb,
      List.getElem?_eq_getElem (show k < tok.length by omega)]
  simp only [leWord, List.getD_eq_getElem?_getD]
  rw [hget i (by omega), hget (i + 1) (by omega), hget (i + 2) (by omega), hget (i + 3) (by omega)]

theorem getToken_short {v : SyncVars} {buf : List UInt8} (h0 : v.ofst = 0) (hb : buf ≠ [])
    (hl : buf.length < 20) : getToken v buf = ⟨false, v, [], buf⟩ := by
  have hlen : buf.length ≠ 0 := by simpa using hb
  have hneed : (syncReqSize - v.ofst).toNat = 20 := by rw [h0]; rfl
  simp [getToken, hneed, hl, hlen]

theorem getToken_full {v : SyncVars} {tok : List UInt8} (rest : List UInt8) (h0 : v.ofst = 0)
    (ht : tok.length = 20) : getToken v (tok ++ rest) = ⟨true, v.load tok, tok, rest⟩ := by
  have hneed : (syncReqSize - v.ofst).toNat = 20 := by rw [h0]; rfl
  unfold getToken
  simp only [hneed]
  rw [if_neg (by simp [ht]), if_neg (by omega), List.drop_left' ht]
  simp only [List.take_left' ht]
  rfl

/-- A head token the analyser accepts: right type, known partition. -/
def HeadOk (c : RamNvCtl) (tok : List UInt8) : Prop :=
  reqPacketType tok = syncReqHead ∧ getCtlId c (reqPartId tok) ≠ 0xFFFFFFFF

/-- A body token the analyser accepts after request index `frame`. -/
def BodyOk (frame : UInt32) (tok : List UInt8) : Prop :=
  reqPacketType tok = syncReqBody ∧ reqReqIdx tok = frame + 1

/-- A tail token the analyser accepts after request index `frame`. -/
def TailOk (frame : UInt32) (tok : List UInt8) : Prop :=
  reqPacketType tok = syncReqTail ∧ reqReqIdx tok = frame + 1

/-! ## The states between tokens -/

namespace Analyzer

def afterHead (s : Analyzer) (tok : List UInt8) : Analyzer :=
  ⟨s.ctl, { s.sync.load tok with
    syncState := .body, syncReqFrame := reqReqIdx tok, id := getCtlId s.ctl (reqPartId tok) }⟩

def afterBody (s : Analyzer) (tok : List UInt8) : Analyzer :=
  ⟨markDirtyInfo s.ctl s.sync.id (reqStart tok) (reqNum tok),
    { s.sync.load tok with
      syncState := .data, syncReqFrame := s.sync.syncReqFrame + 1
      start := reqStart tok * UInt32.ofNat ramnvSectSize
      len := reqNum tok * UInt32.ofNat ramnvSectSize }⟩

/-- All data of the last body token has arrived. -/
def afterData (s : Analyzer) (d : List UInt8) : Analyzer :=
  ⟨writeData s.ctl s.sync.id s.sync.start d,
    { s.sync with syncState := .body, start := s.sync.start + s.sync.len, len := 0 }⟩

/-- Some data of the last body token has arrived, and more is to come. -/
def afterPart (s : Analyzer) (d : List UInt8) : Analyzer :=
  ⟨writeData s.ctl s.sync.id s.sync.start d,
    { s.sync with
      start := s.sync.start + UInt32.ofNat d.length, len := s.sync.len - UInt32.ofNat d.length }⟩

/-- A head token was refused: nothing was written yet, so nothing is undone. -/
def afterBadHead (s : Analyzer) (tok : List UInt8) : Analyzer :=
  ⟨s.ctl, syncInit (s.sync.load tok)⟩

/-- A body or tail token was refused: `fromChannel` is taken back from `backup`. -/
def afterBadBody (s : Analyzer) (tok : List UInt8) : Analyzer :=
  ⟨restoreData s.ctl s.sync.id, syncInit (s.sync.load tok)⟩

def afterTail (env : SaveEnv) (s : Analyzer) (tok : List UInt8) : Analyzer :=
  ⟨(backupData env s.ctl s.sync.id).1, syncInit (s.sync.load tok)⟩

end Analyzer

/-! ## The semantics of a payload -/

section Semantics

variable (env : SaveEnv) (hd : PacketHead)

/-- The response with the given code to the current packet. -/
def rspEvent (code : UInt8) : Event := .sendPacktRsp (sendPacketRsp hd code)

/-- How a payload is consumed from a state, the state after it, and the events. -/
inductive Parses : Analyzer → List UInt8 → Analyzer → List Event → Prop
  | nil {s} : Parses s [] s []
  | short {s buf} (hp : s.sync.syncState ≠ .data) (hne : buf ≠ []) (hl : buf.length < 20) :
      Parses s buf s [rspEvent hd 1]
  | badHead {s tok rest} (hp : s.sync.syncState = .head) (ht : tok.length = 20)
      (hbad : ¬ HeadOk s.ctl tok) :
      Parses s (tok ++ rest) (s.afterBadHead tok) [.token tok, rspEvent hd 0]
  | head {s tok rest s' ev} (hp : s.sync.syncState = .head) (ht : tok.length = 20)
      (hok : HeadOk s.ctl tok) (hrest : Parses (s.afterHead tok) rest s' ev) :
      Parses s (tok ++ rest) s'
        (.token tok :: .head (getCtlId s.ctl (reqPartId tok)) (reqReqIdx tok) :: ev)
  | badBody {s tok rest} (hp : s.sync.syncState = .body) (ht : tok.length = 20)
      (hnb : ¬ BodyOk s.sync.syncReqFrame tok) (hnt : ¬ TailOk s.sync.syncReqFrame tok) :
      Parses s (tok ++ rest) (s.afterBadBody tok)
        [.token tok, .restoreData s.sync.id, rspEvent hd 0]
  | body {s tok rest s' ev} (hp : s.sync.syncState = .body) (ht : tok.length = 20)
      (hok : BodyOk s.sync.syncReqFrame tok) (hrest : Parses (s.afterBody tok) rest s' ev) :
      Parses s (tok ++ rest) s'
        (.token tok :: .body s.sync.id (reqReqIdx tok) (reqStart tok) (reqNum tok) :: ev)
  | tail {s tok rest} (hp : s.sync.syncState = .body) (ht : tok.length = 20)
      (hok : TailOk s.sync.syncReqFrame tok) :
      Parses s (tok ++ rest) (s.afterTail env tok)
        [.token tok, .tail s.sync.id (reqReqIdx tok), .backupData s.sync.id,
          rspEvent hd (backupData env s.ctl s.sync.id).2]
  | data {s d rest s' ev} (hp : s.sync.syncState = .data) (hlen : d.length = s.sync.len.toNat)
      (hne : d ++ rest ≠ []) (hrest : Parses (s.afterData d) rest s' ev) :
      Parses s (d ++ rest) s' (.writeData s.sync.id s.sync.start d :: ev)
  | part {s d} (hp : s.sync.syncState = .data) (hne : d ≠ []) (hl : d.length < s.sync.len.toNat) :
      Parses s d (s.afterPart d) [.writeData s.sync.id s.sync.start d, rspEvent hd 1]

end Semantics

/-! ## One iteration -/

section Iteration

variable (env : SaveEnv) (hd : PacketHead) {s : Analyzer}

theorem analyzeOnce_short {buf : List UInt8} (h0 : s.sync.ofst = 0)
    (hp : s.sync.syncState ≠ .data) (hne : buf ≠ []) (hl : buf.length < 20) :
    analyzeOnce env hd s buf = .stop s [rspEvent hd 1] := by
  have ht := getToken_short h0 hne hl
  cases hs : s.sync.syncState with
  | head => simp [analyzeOnce, hs, syncGetHead, ht, needMore, rspEvent]
  | body => simp [analyzeOnce, hs, syncGetBody, ht, needMore, rspEvent]
  | data => exact absurd hs hp

/-- The fields of a token are read back from the token buffer. -/
theorem load_fields {v : SyncVars} {tok : List UInt8} (h0 : v.ofst = 0) (ht : tok.length = 20) :
    reqPacketType (v.load tok).syncReqBuf = reqPacketType tok ∧
      reqReqIdx (v.load tok).syncReqBuf = reqReqIdx tok ∧
      reqPartId (v.load tok).syncReqBuf = reqPartId tok ∧
      reqStart (v.load tok).syncReqBuf = reqStart tok ∧
      reqNum (v.load tok).syncReqBuf = reqNum tok :=
  ⟨leWord_load h0 ht (by omega), leWord_load h0 ht (by omega), leWord_load h0 ht (by omega),
    leWord_load h0 ht (by omega), leWord_load h0 ht (by omega)⟩

theorem analyzeOnce_head {tok : List UInt8} (rest : List UInt8) (h0 : s.sync.ofst = 0)
    (hp : s.sync.syncState = .head) (ht : tok.length = 20) :
    (HeadOk s.ctl tok → analyzeOnce env hd s (tok ++ rest) = .again (s.afterHead tok) rest
      [.token tok, .head (getCtlId s.ctl (reqPartId tok)) (reqReqIdx tok)]) ∧
    (¬ HeadOk s.ctl tok → analyzeOnce env hd s (tok ++ rest) =
      .stop (s.afterBadHead tok) [.token tok, rspEvent hd 0]) := by
  obtain ⟨e1, e2, e3, -, -⟩ := load_fields h0 ht
  simp only [analyzeOnce, hp, syncGetHead, getToken_full rest h0 ht, e1, e2, e3, Bool.not_true,
    Bool.false_eq_true, if_false]
  constructor
  · rintro ⟨h1, h2⟩
    simp only [h1, h2, ne_eq, not_true_eq_false, if_false, Analyzer.setPhase, Analyzer.afterHead]
  · intro hbad
    by_cases h1 : syncReqHead = reqPacketType tok
    · have h2 : getCtlId s.ctl (reqPartId tok) = 0xFFFFFFFF :=
        Decidable.byContradiction fun h2 => hbad ⟨h1.symm, h2⟩
      simp [h1, h2, hp, reject, syncReset, rspEvent, Analyzer.afterBadHead, syncInit]
    · simp [h1, hp, reject, syncReset, rspEvent, Analyzer.afterBadHead]

theorem analyzeOnce_body {tok : List UInt8} (rest : List UInt8) (h0 : s.sync.ofst = 0)
    (hp : s.sync.syncState = .body) (ht : tok.length = 20) :
    (BodyOk s.sync.syncReqFrame tok → analyzeOnce env hd s (tok ++ rest) =
      .again (s.afterBody tok) rest
        [.token tok, .body s.sync.id (reqReqIdx tok) (reqStart tok) (reqNum tok)]) ∧
    (TailOk s.sync.syncReqFrame tok → analyzeOnce env hd s (tok ++ rest) =
      .stop (s.afterTail env tok) [.token tok, .tail s.sync.id (reqReqIdx tok),
        .backupData s.sync.id, rspEvent hd (backupData env s.ctl s.sync.id).2]) ∧
    (¬ BodyOk s.sync.syncReqFrame tok → ¬ TailOk s.sync.syncReqFrame tok →
      analyzeOnce env hd s (tok ++ rest) =
        .stop (s.afterBadBody tok) [.token tok, .restoreData s.sync.id, rspEvent hd 0]) := by
  obtain ⟨e1, e2, -, e4, e5⟩ := load_fields h0 ht
  simp only [analyzeOnce, hp, syncGetBody, getToken_full rest h0 ht, e1, e2, e4, e5,
    load_syncReqFrame, Bool.not_true, Bool.false_eq_true, if_false]
  refine ⟨?_, ?_, ?_⟩
  · rintro ⟨h1, h2⟩
    simp only [h1, h2, ne_eq, not_true_eq_false, if_false, if_true]
    rfl
  · rintro ⟨h1, h2⟩
    have hne : ¬ syncReqBody = syncReqTail := by decide
    simp only [h1, h2, hne, ne_eq, not_true_eq_false, if_false, if_true]
    rfl
  · intro hnb hnt
    by_cases h1 : syncReqBody = reqPacketType tok
    · have h2 : ¬ s.sync.syncReqFrame + 1 = reqReqIdx tok := fun h2 => hnb ⟨h1.symm, h2.symm⟩
      simp [h1, h2, hp, reject, syncReset, rspEvent, Analyzer.afterBadBody]
    · by_cases h1' : syncReqTail = reqPacketType tok
      · have h2 : ¬ s.sync.syncReqFrame + 1 = reqReqIdx tok := fun h2 => hnt ⟨h1'.symm, h2.symm⟩
        have hne : ¬ syncReqBody = syncReqTail := by decide
        simp [← h1', hne, h2, hp, reject, syncReset, rspEvent, Analyzer.afterBadBody]
      · simp [h1, h1', hp, reject, syncReset, rspEvent, Analyzer.afterBadBody]

theorem analyzeOnce_data {d : List UInt8} (rest : List UInt8) (hp : s.sync.syncState = .data)
    (hlen : d.length = s.sync.len.toNat) :
    analyzeOnce env hd s (d ++ rest) =
      .again (s.afterData d) rest [.writeData s.sync.id s.sync.start d] := by
  have hl : s.sync.len.toNat ≤ (d ++ rest).length := by simp [hlen]
  simp only [analyzeOnce, hp, syncGetData, hl, if_true, List.take_left' hlen, List.drop_left' hlen]
  rfl

theorem analyzeOnce_part {d : List UInt8} (hp : s.sync.syncState = .data)
    (hl : d.length < s.sync.len.toNat) :
    analyzeOnce env hd s d =
      .stop (s.afterPart d) [.writeData s.sync.id s.sync.start d, rspEvent hd 1] := by
  have hl' : ¬ s.sync.len.toNat ≤ d.length := by omega
  simp only [analyzeOnce, hp, syncGetData, hl', if_false, needMore, Analyzer.afterPart]
  rfl

end Iteration

/-! ## The whole loop -/

theorem analyzeLoop_nil (env : SaveEnv) (hd : PacketHead) (s : Analyzer) :
    analyzeLoop env hd s [] = (s, []) := by
  rw [analyzeLoop, if_pos rfl]

theorem analyzeLoop_stop {env : SaveEnv} {hd : PacketHead} {s s' : Analyzer} {buf : List UInt8}
    {ev : List Event} (hne : buf ≠ []) (h : analyzeOnce env hd s buf = .stop s' ev) :
    analyzeLoop env hd s buf = (s', ev) := by
  rw [analyzeLoop, if_neg hne]
  split
  · rename_i h'
    rw [h] at h'
    cases h'
  · rename_i h'
    rw [h] at h'
    cases h'
    rfl

theorem analyzeLoop_again {env : SaveEnv} {hd : PacketHead} {s s' : Analyzer}
    {buf rest : List UInt8} {ev : List Event} (hne : buf ≠ [])
    (h : analyzeOnce env hd s buf = .again s' rest ev) :
    analyzeLoop env hd s buf =
      ((analyzeLoop env hd s' rest).1, ev ++ (analyzeLoop env hd s' rest).2) := by
  rw [analyzeLoop, if_neg hne]
  split
  · rename_i h'
    rw [h] at h'
    cases h'
    rfl
  · rename_i h'
    rw [h] at h'
    cases h'

/-- **The inner loop follows the semantics**, from every state with `_ofst = 0`. -/
theorem parses (env : SaveEnv) (hd : PacketHead) : ∀ (s : Analyzer) (buf : List UInt8),
    s.sync.ofst = 0 → Parses env hd s buf (analyzeLoop env hd s buf).1
      (analyzeLoop env hd s buf).2 := by
  intro s buf
  induction hn : analyzeMeasure s buf using Nat.strongRecOn generalizing s buf with
  | _ n ih =>
    intro h0
    subst hn
    by_cases hne : buf = []
    · subst hne
      rw [analyzeLoop_nil]
      exact .nil
    by_cases hd' : s.sync.syncState = .data
    · by_cases hl : buf.length < s.sync.len.toNat
      · rw [analyzeLoop_stop hne (analyzeOnce_part env hd hd' hl)]
        exact .part hd' hne hl
      · have hd1 : (buf.take s.sync.len.toNat).length = s.sync.len.toNat := by simp; omega
        have hcut := List.take_append_drop s.sync.len.toNat buf
        have hone := analyzeOnce_data env hd (buf.drop s.sync.len.toNat) hd' hd1
        rw [hcut] at hone
        have hm := analyzeOnce_measure hone
        rw [analyzeLoop_again hne hone]
        have hparse := ih _ hm _ _ rfl h0
        have := Parses.data hd' hd1 (by rwa [hcut]) hparse
        rwa [hcut] at this
    by_cases hl : buf.length < 20
    · rw [analyzeLoop_stop hne (analyzeOnce_short env hd h0 hd' hne hl)]
      exact .short hd' hne hl
    have ht : (buf.take 20).length = 20 := by simp; omega
    have hcut := List.take_append_drop 20 buf
    generalize buf.take 20 = tok at ht hcut
    generalize buf.drop 20 = rest at hcut
    subst hcut
    cases hp : s.sync.syncState with
    | head =>
      have hone := analyzeOnce_head env hd rest h0 hp ht
      by_cases hok : HeadOk s.ctl tok
      · have hm := analyzeOnce_measure (hone.1 hok)
        rw [analyzeLoop_again hne (hone.1 hok)]
        exact .head hp ht hok (ih _ hm _ _ rfl rfl)
      · rw [analyzeLoop_stop hne (hone.2 hok)]
        exact .badHead hp ht hok
    | body =>
      have hone := analyzeOnce_body env hd rest h0 hp ht
      by_cases hok : BodyOk s.sync.syncReqFrame tok
      · have hm := analyzeOnce_measure (hone.1 hok)
        rw [analyzeLoop_again hne (hone.1 hok)]
        exact .body hp ht hok (ih _ hm _ _ rfl rfl)
      · by_cases hok' : TailOk s.sync.syncReqFrame tok
        · rw [analyzeLoop_stop hne (hone.2.1 hok')]
          exact .tail hp ht hok'
        · rw [analyzeLoop_stop hne (hone.2.2 hok hok')]
          exact .badBody hp ht hok hok'
    | data => exact absurd hp hd'

/-- The semantics is what the inner loop computes. -/
theorem Parses.eq_loop {env : SaveEnv} {hd : PacketHead} {s s' : Analyzer} {buf : List UInt8}
    {ev : List Event} (h : Parses env hd s buf s' ev) :
    s.sync.ofst = 0 → analyzeLoop env hd s buf = (s', ev) := by
  have hne : ∀ {tok rest : List UInt8}, tok.length = 20 → tok ++ rest ≠ [] := by
    rintro tok rest ht h
    rw [(List.append_eq_nil_iff.mp h).1] at ht
    cases ht
  induction h with
  | nil => exact fun _ => analyzeLoop_nil _ _ _
  | short hp hb hl => exact fun h0 => analyzeLoop_stop hb (analyzeOnce_short _ _ h0 hp hb hl)
  | badHead hp ht hbad =>
    exact fun h0 => analyzeLoop_stop (hne ht) ((analyzeOnce_head _ _ _ h0 hp ht).2 hbad)
  | head hp ht hok _ ih =>
    intro h0
    rw [analyzeLoop_again (hne ht) ((analyzeOnce_head _ _ _ h0 hp ht).1 hok), ih rfl]
    rfl
  | badBody hp ht hnb hnt =>
    exact fun h0 => analyzeLoop_stop (hne ht) ((analyzeOnce_body _ _ _ h0 hp ht).2.2 hnb hnt)
  | body hp ht hok _ ih =>
    intro h0
    rw [analyzeLoop_again (hne ht) ((analyzeOnce_body _ _ _ h0 hp ht).1 hok), ih rfl]
    rfl
  | tail hp ht hok =>
    exact fun h0 => analyzeLoop_stop (hne ht) ((analyzeOnce_body _ _ _ h0 hp ht).2.1 hok)
  | data hp hlen hb _ ih =>
    intro h0
    rw [analyzeLoop_again hb (analyzeOnce_data _ _ _ hp hlen), ih h0]
    rfl
  | part hp hb hl => exact fun _ => analyzeLoop_stop hb (analyzeOnce_part _ _ hp hl)

/-! ## Reachable analyser states -/

/-- Nothing is stored at a positive offset, and outside a request all variables are reset. -/
structure Analyzer.Wf (s : Analyzer) : Prop where
  ofst : s.sync.ofst = 0
  idle : s.sync.syncBusy = false → s.sync = syncInit s.sync

theorem Analyzer.wf_init (c : RamNvCtl) (v : SyncVars) : Analyzer.Wf ⟨c, syncInit v⟩ :=
  ⟨rfl, fun _ => rfl⟩

theorem Parses.wf {env : SaveEnv} {hd : PacketHead} {s s' : Analyzer} {buf : List UInt8}
    {ev : List Event} (h : Parses env hd s buf s' ev) :
    s.sync.ofst = 0 → s.sync.syncBusy = true → s'.Wf := by
  induction h with
  | nil => exact fun h0 hb => ⟨h0, fun h => by rw [hb] at h; cases h⟩
  | short => exact fun h0 hb => ⟨h0, fun h => by rw [hb] at h; cases h⟩
  | badHead => exact fun _ _ => Analyzer.wf_init _ _
  | head _ _ _ _ ih => exact fun _ hb => ih rfl hb
  | badBody => exact fun _ _ => Analyzer.wf_init _ _
  | body _ _ _ _ ih => exact fun _ hb => ih rfl hb
  | tail => exact fun _ _ => Analyzer.wf_init _ _
  | data _ _ _ _ ih => exact fun h0 hb => ih h0 hb
  | part => exact fun h0 hb => ⟨h0, fun h => by rw [Analyzer.afterPart, hb] at h; cases h⟩

/-- `_syncReset(SYNC_FAIL_RESET)` -/
def Analyzer.abort (s : Analyzer) : Analyzer :=
  ⟨if s.sync.syncState = .head then s.ctl else restoreData s.ctl s.sync.id, syncInit s.sync⟩

def Analyzer.abortEvents (s : Analyzer) : List Event :=
  if s.sync.syncState = .head then [] else [.restoreData s.sync.id]

theorem syncReset_fail (env : SaveEnv) (s : Analyzer) :
    syncReset env false s = (s.abort, 1, s.abortEvents) := by
  by_cases h : s.sync.syncState = .head <;>
    simp [syncReset, Analyzer.abort, Analyzer.abortEvents, h]

theorem Analyzer.Wf.abort_of_idle {s : Analyzer} (h : s.Wf) (hb : s.sync.syncBusy = false) :
    s.abort = s ∧ s.abortEvents = [] := by
  have hi := h.idle hb
  have hp : s.sync.syncState = .head := by rw [hi]; rfl
  refine ⟨?_, by simp [Analyzer.abortEvents, hp]⟩
  simp only [Analyzer.abort, hp, if_true, ← hi]

theorem Analyzer.busy_of_busy {s : Analyzer} (hb : s.sync.syncBusy = true) : s.busy = s := by
  obtain ⟨c, v⟩ := s
  obtain ⟨_, b, _, _, _, _, _, _, _⟩ := v
  simp only at hb
  subst hb
  rfl

/-! ## One packet -/

/-- **Everything one iteration of the outer loop can do**, from a well-formed state: a new group
aborts the open request, if there is one, before its first payload is parsed. -/
inductive PacketStep (s : Nvitemd) (i : Input) : Nvitemd → List Event → Prop
  | fail (hres : (getPacket s.pkt i.read).1 = .fail) :
      PacketStep s i ⟨s.an.abort, initPacket⟩ s.an.abortEvents
  | skip (hres : (getPacket s.pkt i.read).1 = .skip) : PacketStep s i s []
  | start {s' ev} (hres : getPacket s.pkt i.read = (.start, ⟨i.read.head.idxGrp, 0⟩))
      (hp : Parses i.env i.read.head s.an.abort.busy i.read.payload s' ev) :
      PacketStep s i ⟨s', ⟨i.read.head.idxGrp, 0⟩⟩ (s.an.abortEvents ++ ev)
  | noHead (hres : getPacket s.pkt i.read = (.cont, ⟨s.pkt.idxGrp, s.pkt.idxSub + 1⟩))
      (hb : s.an.sync.syncBusy = false) :
      PacketStep s i ⟨s.an, ⟨s.pkt.idxGrp, s.pkt.idxSub + 1⟩⟩ [rspEvent i.read.head 0]
  | cont {s' ev} (hres : getPacket s.pkt i.read = (.cont, ⟨s.pkt.idxGrp, s.pkt.idxSub + 1⟩))
      (hb : s.an.sync.syncBusy = true)
      (hp : Parses i.env i.read.head s.an i.read.payload s' ev) :
      PacketStep s i ⟨s', ⟨s.pkt.idxGrp, s.pkt.idxSub + 1⟩⟩ ev

theorem packetStep {s : Nvitemd} (h : s.an.Wf) (i : Input) :
    PacketStep s i (nvitemdStep s i).1 (nvitemdStep s i).2 := by
  unfold nvitemdStep
  cases hg : getPacket s.pkt i.read with
  | mk res pkt' =>
    cases res with
    | fail =>
      simp only [syncReset_fail]
      exact .fail (by rw [hg])
    | skip =>
      obtain rfl := getPacket_state_of_skip hg (Or.inl rfl)
      exact .skip (by rw [hg])
    | start =>
      obtain ⟨-, -, rfl⟩ := getPacket_start hg
      have hp := parses i.env i.read.head s.an.abort.busy i.read.payload rfl
      cases hb : s.an.sync.syncBusy with
      | true =>
        simp only [syncReset_fail, if_true]
        exact .start hg hp
      | false =>
        obtain ⟨he, hev⟩ := h.abort_of_idle hb
        have := PacketStep.start hg hp
        rw [hev, he, List.nil_append] at this
        simp only [Bool.false_eq_true, if_false]
        exact this
    | cont =>
      obtain ⟨-, -, rfl⟩ := getPacket_cont hg
      cases hb : s.an.sync.syncBusy with
      | true =>
        have hp := parses i.env i.read.head s.an i.read.payload h.ofst
        have hl : analyzePacket i s.an = analyzeLoop i.env i.read.head s.an i.read.payload :=
          congrArg (analyzeLoop i.env i.read.head · i.read.payload) (Analyzer.busy_of_busy hb)
        simp only [hl, Bool.not_true, Bool.false_eq_true, if_false]
        exact .cont hg hb hp
      | false => exact .noHead hg hb

theorem PacketStep.wf {s s' : Nvitemd} {i : Input} {ev : List Event} (h : PacketStep s i s' ev)
    (hw : s.an.Wf) : s'.an.Wf := by
  cases h with
  | fail => exact Analyzer.wf_init _ _
  | skip => exact hw
  | start _ hp => exact hp.wf rfl rfl
  | noHead => exact hw
  | cont _ hb hp => exact hp.wf hw.ofst hb

/-- A packet that starts a group is read from the beginning of a request. -/
theorem PacketStep.of_start {s s' : Nvitemd} {i : Input} {ev : List Event} {pkt : PacketState}
    (h : PacketStep s i s' ev) (hres : getPacket s.pkt i.read = (.start, pkt)) :
    s'.pkt = pkt ∧ ∃ ev', Parses i.env i.read.head s.an.abort.busy i.read.payload s'.an ev' := by
  cases h with
  | fail h => rw [hres] at h; cases h
  | skip h => rw [hres] at h; cases h
  | start h hp => rw [hres] at h; exact ⟨(congrArg Prod.snd h).symm, _, hp⟩
  | noHead h => rw [hres] at h; cases h
  | cont h => rw [hres] at h; cases h

/-- A packet that continues a group is read where the request stands, if one is open. -/
theorem PacketStep.of_cont {s s' : Nvitemd} {i : Input} {ev : List Event} {pkt : PacketState}
    (h : PacketStep s i s' ev) (hres : getPacket s.pkt i.read = (.cont, pkt)) :
    s'.pkt = pkt ∧ (s.an.sync.syncBusy = false → s'.an = s.an) ∧
      (s.an.sync.syncBusy = true →
        ∃ ev', Parses i.env i.read.head s.an i.read.payload s'.an ev') := by
  cases h with
  | fail h => rw [hres] at h; cases h
  | skip h => rw [hres] at h; cases h
  | start h => rw [hres] at h; cases h
  | noHead h hb =>
    rw [hres] at h
    exact ⟨(congrArg Prod.snd h).symm, fun _ => rfl, fun hb' => by rw [hb] at hb'; cases hb'⟩
  | cont h hb hp =>
    rw [hres] at h
    exact ⟨(congrArg Prod.snd h).symm, fun hb' => (by rw [hb] at hb'; cases hb'),
      fun _ => ⟨_, hp⟩⟩

/-- Every reachable state is well-formed. -/
theorem reachable_wf (config : List PartSource) (ins : List Input) :
    (nvitemd.run (nvitemdInit config) ins).1.an.Wf :=
  nvitemd.run_invariant (P := fun s => s.an.Wf) (fun _ i hw => (packetStep hw i).wf hw) ins _
    (Analyzer.wf_init _ _)

end SprdHal.Nvitem

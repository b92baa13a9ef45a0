import SprdHal.Nvitem.Scan

/-!
# Responses

Every packet the packet layer lets through should be answered once. The inner loop answers where it
leaves by a `break`; it leaves without one when the payload is used up by whole tokens and data, so
a packet that ends there, or has no payload at all, is not answered (`respond_once_iff`).
-/

namespace SprdHal.Nvitem

open SprdHal.Lib

/-- Where the reading of a packet starts, given the verdict of the packet layer: a new group starts
a new request. -/
def Nvitemd.readsFrom (s : Nvitemd) : PacketResult → Option Cursor
  | .start => some .head
  | .cont => if s.an.sync.syncBusy then some s.an.cursor else none
  | .skip | .fail => none

/-- How the reading of the packet ends, if it is read. -/
def Nvitemd.readsTo (s : Nvitemd) (i : Input) : Option ScanEnd :=
  (s.readsFrom (getPacket s.pkt i.read).1).map fun c => scan s.an.ctl.knows c i.read.payload

/-- The response answers the packet: it carries the packet's header with size 1, its code is 0
exactly when the request was refused or none was open, and it is the commit result when the tail
token was accepted. -/
structure Answers (s : Nvitemd) (i : Input) (ev : List Event) (rsp : PacketRsp) : Prop where
  header : rsp.head = { i.read.head with sizeOfPacket := 1 }
  zero : rsp.rsp = 0 ↔ s.readsTo i = none ∨ ∃ rest, s.readsTo i = some (.refused rest)
  commit : ∀ id r, Event.tail id r ∈ ev → ∃ c, rsp.rsp = (backupData i.env c id).2

/-- The packet ends after whole tokens and data. -/
def EndsBetween (s : Nvitemd) (i : Input) : Prop := ∃ c, s.readsTo i = some (.between c)

theorem responses_append (a b : List Event) : responses (a ++ b) = responses a ++ responses b := by
  induction a with
  | nil => rfl
  | cons e a ih => cases e <;> simp [responses, ih]

theorem responses_abortEvents (s : Analyzer) : responses s.abortEvents = [] := by
  unfold Analyzer.abortEvents
  split <;> rfl

theorem sendPacketRsp_head_iff (hd : PacketHead) (code : UInt8) :
    (sendPacketRsp hd code).head = { hd with sizeOfPacket := 1 } ↔ hd.ecc = makeEcc := by
  constructor
  · intro h
    exact (congrArg PacketHead.ecc h).symm
  · intro h
    simp [sendPacketRsp, h]

/-- A tail token is accepted only where the reader finds one. -/
theorem Parses.tail_committed {env : SaveEnv} {hd : PacketHead} {s s' : Analyzer}
    {buf : List UInt8} {ev : List Event} (h : Parses env hd s buf s' ev) {id r : UInt32} :
    Event.tail id r ∈ ev → ∃ c, responses ev = [sendPacketRsp hd (backupData env c id).2] := by
  induction h with
  | nil => simp
  | short => simp [rspEvent]
  | badHead => simp [rspEvent]
  | head _ _ _ _ ih =>
    intro hm
    exact ih (by simpa using hm)
  | badBody => simp [rspEvent]
  | body _ _ _ _ ih =>
    intro hm
    exact ih (by simpa using hm)
  | @tail s =>
    intro hm
    have hid : id = s.sync.id := by
      simp only [List.mem_cons, Event.tail.injEq, reduceCtorEq, false_or, rspEvent,
        List.not_mem_nil, or_false] at hm
      exact hm.1
    exact ⟨s.ctl, by rw [hid]; rfl⟩
  | data _ _ _ _ ih =>
    intro hm
    exact ih (by simpa using hm)
  | part => simp [rspEvent]

/-- The responses to a packet that is read. -/
theorem Parses.answers_iff {s : Nvitemd} {i : Input} {a a' : Analyzer} {ev : List Event}
    (pre : List Event) (h : Parses i.env i.read.head a i.read.payload a' ev)
    (hb : a.sync.syncBusy = true)
    (hpre : responses pre = []) (htail : ∀ id r, Event.tail id r ∉ pre)
    (hto : s.readsTo i = some (scan a.ctl.knows a.cursor i.read.payload)) :
    (∃ rsp, responses (pre ++ ev) = [rsp] ∧ Answers s i (pre ++ ev) rsp) ↔
      i.read.head.ecc = makeEcc ∧ ¬ EndsBetween s i := by
  have hend := (h.ends hb).1
  have htl : ∀ id r, Event.tail id r ∈ pre ++ ev → Event.tail id r ∈ ev := fun id r hm =>
    (List.mem_append.mp hm).resolve_left (htail id r)
  rw [responses_append, hpre, List.nil_append]
  unfold EndsBetween
  -- one response with the right code, and no tail token unless it is the commit result
  have hone : ∀ code, responses ev = [sendPacketRsp i.read.head code] →
      (code = 0 ↔ s.readsTo i = none ∨ ∃ rest, s.readsTo i = some (.refused rest)) →
      (¬ ∃ c, s.readsTo i = some (.between c)) →
      ((∃ rsp, responses ev = [rsp] ∧ Answers s i (pre ++ ev) rsp) ↔
        i.read.head.ecc = makeEcc ∧ ¬ ∃ c, s.readsTo i = some (.between c)) := by
    intro code hr hcode hnb
    constructor
    · rintro ⟨rsp, hrsp, hans⟩
      obtain rfl : rsp = sendPacketRsp i.read.head code := by
        rw [hr] at hrsp
        exact (List.cons.inj hrsp).1.symm
      exact ⟨(sendPacketRsp_head_iff _ _).mp hans.header, hnb⟩
    · rintro ⟨hecc, -⟩
      refine ⟨_, hr, (sendPacketRsp_head_iff _ _).mpr hecc, hcode, fun id r hm => ?_⟩
      obtain ⟨c, hc⟩ := h.tail_committed (htl id r hm)
      refine ⟨c, ?_⟩
      rw [hr] at hc
      exact congrArg PacketRsp.rsp (List.cons.inj hc).1
  rw [hto] at hone ⊢
  cases hscan : scan a.ctl.knows a.cursor i.read.payload with
  | between c =>
    rw [hscan] at hend
    constructor
    · rintro ⟨rsp, hrsp, -⟩
      rw [hend.2.2] at hrsp
      cases hrsp
    · rintro ⟨-, hnb⟩
      exact absurd ⟨c, rfl⟩ hnb
  | inData c =>
    rw [hscan] at hend hone
    exact hone 1 hend.2.2 (by simp) (by simp)
  | inToken c part =>
    rw [hscan] at hend hone
    exact hone 1 hend.2.2 (by simp) (by simp)
  | refused rest =>
    rw [hscan] at hend hone
    exact hone 0 hend.2 (by simp) (by simp)
  | committed rest =>
    rw [hscan] at hend hone
    obtain ⟨-, c, id, r, -, hr⟩ := hend
    exact hone 1 hr (by simp) (by simp)

/-- **When a packet is answered once and rightly.** In every reachable state a skipped packet is
not answered, and a packet that is let through is answered exactly once, with its own header and
the right code, if and only if its `ecc` is the one every response carries and its payload does not
end after whole tokens and data. -/
theorem respond_once_iff (config : List PartSource) (ins : List Input) (i : Input) :
    let s := (nvitemd.run (nvitemdInit config) ins).1
    let ev := (nvitemd.step s i).2
    let res := (getPacket s.pkt i.read).1
    (res = .skip → responses ev = []) ∧
    (res = .start ∨ res = .cont →
      ((∃ rsp, responses ev = [rsp] ∧ Answers s i ev rsp) ↔
        i.read.head.ecc = makeEcc ∧ ¬ EndsBetween s i)) := by
  intro s ev res
  have hw : s.an.Wf := reachable_wf config ins
  have hstep : PacketStep s i (nvitemd.step s i).1 ev := packetStep hw i
  generalize (nvitemd.step s i).1 = s' at hstep
  generalize ev = ev at hstep
  cases hstep with
  | fail hres =>
    refine ⟨fun h => (nomatch hres.symm.trans h), fun h => ?_⟩
    rcases h with h | h <;> cases hres.symm.trans h
  | skip hres =>
    refine ⟨fun _ => rfl, fun h => ?_⟩
    rcases h with h | h <;> cases hres.symm.trans h
  | start hres hp =>
    have hr : res = .start := congrArg Prod.fst hres
    refine ⟨fun h => (nomatch hr.symm.trans h), fun _ => ?_⟩
    refine Parses.answers_iff _ hp rfl (responses_abortEvents _) ?_ ?_
    · unfold Analyzer.abortEvents
      split <;> simp
    · have hk : s.an.abort.busy.ctl.knows = s.an.ctl.knows := knows_congr s.an.layout_abort
      simp only [Nvitemd.readsTo, hres, Nvitemd.readsFrom, Option.map_some, hk]
      rfl
  | noHead hres hb =>
    have hr : res = .cont := congrArg Prod.fst hres
    refine ⟨fun h => (nomatch hr.symm.trans h), fun _ => ?_⟩
    have hto : s.readsTo i = none := by
      simp [Nvitemd.readsTo, hres, Nvitemd.readsFrom, hb]
    constructor
    · rintro ⟨rsp, hrsp, hans⟩
      obtain rfl : sendPacketRsp i.read.head 0 = rsp := (List.cons.inj hrsp).1
      exact ⟨(sendPacketRsp_head_iff _ _).mp hans.header, by simp [EndsBetween, hto]⟩
    · rintro ⟨hecc, -⟩
      exact ⟨_, rfl, (sendPacketRsp_head_iff _ _).mpr hecc, by simp [hto, sendPacketRsp],
        by simp [rspEvent]⟩
  | cont hres hb hp =>
    have hr : res = .cont := congrArg Prod.fst hres
    refine ⟨fun h => (nomatch hr.symm.trans h), fun _ => ?_⟩
    have hto : s.readsTo i = some (scan s.an.ctl.knows s.an.cursor i.read.payload) := by
      simp [Nvitemd.readsTo, hres, Nvitemd.readsFrom, hb]
    exact Parses.answers_iff [] hp hb rfl (by simp) hto

/-- A packet that ends after its head token. -/
def headPacket : Input := ⟨packetOf 5 0 (syncReq 0 9 1 512 512), plainEnv⟩

theorem headPacket_unanswered :
    let s := (nvitemd.run (nvitemdInit [zeroPart]) []).1
    (getPacket s.pkt headPacket.read).1 = .start ∧ headPacket.read.payload.length = 20 ∧
      responses (nvitemd.step s headPacket).2 = [] := by
  decide +kernel

end SprdHal.Nvitem

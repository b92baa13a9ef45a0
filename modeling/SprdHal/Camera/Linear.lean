import SprdHal.Camera.Msg
import SprdHal.Lib.Calls

/-!
# The camera message queue is a bounded queue

Every effect on the queue happens in one step of the call it belongs to, between the call and its
return (`WholeCall`), and the effects of all threads in the order in which they happen are a legal
sequence of operations of a queue with room for `count - 1` messages. The branches that deal with a
ring that does not agree with its counters are not reached.
-/

namespace SprdHal.Camera

open SprdHal.Lib

/-! ## What a log says -/

/-- The effects of all threads. -/
def effects (log : List ThreadEvent) : List (QueueOp CmrMsg) :=
  log.filterMap fun e => match e.2 with
    | .effect op => some op
    | _ => none

/-- The events of one thread. -/
def logOf (t : Nat) (log : List ThreadEvent) : List MsgEvent :=
  log.filterMap fun e => if e.1 = t then some e.2 else none

/-- The code of a reader that gets nothing. -/
def Reader.noOtherMsg : Reader → Int
  | .peak => -cmrMsgNoOtherMsg
  | _ => cmrMsgNoOtherMsg

/-- A call from its start to its return: it has one effect in between, and returns what that effect
was. -/
inductive WholeCall : List MsgEvent → Prop
  | nullPost : WholeCall [.call (.post none), .ret (-cmrMsgParamErr) none]
  | nullRead (r : Reader) : WholeCall [.call (.read r false), .ret (-cmrMsgParamErr) none]
  | put (m : CmrMsg) :
      WholeCall [.call (.post (some m)), .effect (.put m), .ret cmrMsgSuccess none]
  | full (m : CmrMsg) :
      WholeCall [.call (.post (some m)), .effect .full, .ret cmrMsgOverflow none]
  | take (r : Reader) (m : CmrMsg) :
      WholeCall [.call (.read r true), .effect (.take m), .ret cmrMsgSuccess (some m)]
  | none (r : Reader) :
      WholeCall [.call (.read r true), .effect .none, .ret r.noOtherMsg none]

/-- What is seen so far of the call a thread is in. -/
def Pc.begun : Pc → List MsgEvent
  | .idle => []
  | .post m _ => [.call (.post (some m))]
  | .semPost m => [.call (.post (some m)), .effect (.put m)]
  | .semWait r | .take r => [.call (.read r true)]

/-- The thread is between an effect on `msg_number` and the one on the semaphore that goes with
it. -/
def Pc.pending : Pc → Bool
  | .semPost _ | .take _ => true
  | _ => false

theorem effects_append (log log' : List ThreadEvent) :
    effects (log ++ log') = effects log ++ effects log' := List.filterMap_append

/-! ## The invariant -/

structure MsgQueue.Inv (count : Nat) (s : MsgQueue) (log : List ThreadEvent) : Prop where
  wf : s.cxt.Wf
  count_eq : s.cxt.count = count
  unlocked : s.locked = false
  number : s.cxt.msgNumber.toNat = s.msgSem + s.threads.countP Pc.pending
  legal : fifoRun (count - 1) [] (effects log) = some s.cxt.queue
  faults : ∀ t f, (t, MsgEvent.fault f) ∉ log
  history : ∀ t pc, s.threads[t]? = some pc → Calls WholeCall (eventsOf t log) pc.begun

namespace MsgQueue.Inv

variable {count t : Nat} {s : MsgQueue} {log : List ThreadEvent} {pc : Pc}

/-- A thread that has its token finds a message. -/
theorem pos_of_pending (h : s.Inv count log) (ht : s.threads[t]? = some pc)
    (hp : pc.pending = true) : 0 < s.cxt.msgNumber.toNat := by
  have hcount : 0 < s.threads.countP Pc.pending :=
    List.countP_pos_iff.mpr ⟨pc, List.mem_of_getElem? ht, hp⟩
  have hnumber := h.number
  omega

/-- A thread goes from `pc` to `pc'`; `msg_number` and the semaphore change by as much as the
threads between them. -/
theorem next (h : s.Inv count log) (ht : s.threads[t]? = some pc) {pc' : Pc} {cxt : MsgCxt}
    {sem : Nat} {ev : List MsgEvent} (hwf : cxt.Wf) (hcount : cxt.count = s.cxt.count)
    (hbal : cxt.msgNumber.toNat + s.msgSem + pc.pending.toNat =
      s.cxt.msgNumber.toNat + sem + pc'.pending.toNat)
    (hlegal : fifoRun (count - 1) s.cxt.queue (effects (ev.map (t, ·))) = some cxt.queue)
    (hfault : ∀ f, MsgEvent.fault f ∉ ev)
    (hcalls : Calls WholeCall (pc.begun ++ ev) pc'.begun) :
    Inv count ⟨cxt, sem, false, s.threads.set t pc'⟩ (log ++ ev.map (t, ·)) where
  wf := hwf
  count_eq := hcount.trans h.count_eq
  unlocked := rfl
  number := by
    have hset := countP_set_add Pc.pending ht pc'
    have hnumber := h.number
    show cxt.msgNumber.toNat = sem + (s.threads.set t pc').countP Pc.pending
    omega
  legal := by
    rw [effects_append, fifoRun_append h.legal]
    exact hlegal
  faults t' f hm := by
    rcases List.mem_append.mp hm with hm | hm
    · exact h.faults t' f hm
    · obtain ⟨e, he, heq⟩ := List.mem_map.mp hm
      obtain rfl : e = .fault f := congrArg Prod.snd heq
      exact hfault f he
  history := calls_set h.history ht hcalls

/-- A step without an effect on the ring. -/
theorem next_same (h : s.Inv count log) (ht : s.threads[t]? = some pc) {pc' : Pc} {sem : Nat}
    {ev : List MsgEvent}
    (hbal : s.msgSem + pc.pending.toNat = sem + pc'.pending.toNat)
    (hlegal : effects (ev.map (t, ·)) = [] ∨ effects (ev.map (t, ·)) = [.none])
    (hfault : ∀ f, MsgEvent.fault f ∉ ev)
    (hcalls : Calls WholeCall (pc.begun ++ ev) pc'.begun) :
    Inv count ⟨s.cxt, sem, false, s.threads.set t pc'⟩ (log ++ ev.map (t, ·)) := by
  refine h.next ht h.wf rfl (by omega) ?_ hfault hcalls
  rcases hlegal with hnil | hnone
  · rw [hnil]
    rfl
  · rw [hnone]
    rfl

/-! ### The steps -/

theorem enter (h : s.Inv count log) (ht : s.threads[t]? = some .idle) (c : MsgCall) :
    (s.enter t c).1.Inv count (log ++ (s.enter t c).2.map (t, ·)) := by
  have hself : ∀ ev, WholeCall ev → effects (ev.map (t, ·)) = [] → (∀ f, MsgEvent.fault f ∉ ev) →
      s.Inv count (log ++ ev.map (t, ·)) := by
    intro ev hev heff hfault
    have hnext : Inv count ⟨s.cxt, s.msgSem, false, s.threads.set t .idle⟩ (log ++ ev.map (t, ·)) :=
      h.next_same ht rfl (Or.inl heff) hfault (.of_whole hev)
    obtain ⟨hlt, hget⟩ := List.getElem?_eq_some_iff.mp ht
    rwa [← hget, List.set_getElem_self, ← h.unlocked] at hnext
  unfold MsgQueue.enter MsgQueue.setPc
  cases c with
  | post message =>
    cases message with
    | none => exact hself _ .nullPost rfl (by simp)
    | some m =>
      rw [h.unlocked]
      exact h.next_same ht rfl (Or.inl rfl) (by simp) (.of_part rfl)
  | read r message =>
    cases message with
    | false => exact hself _ (.nullRead r) rfl (by simp)
    | true =>
      rw [h.unlocked]
      exact h.next_same ht rfl (Or.inl rfl) (by simp) (.of_part rfl)

/-- A post that finds the queue full changes nothing but the place of its thread. -/
theorem goPost_full (h : s.Inv count log) (m : CmrMsg) (oriNode : Nat)
    (hfull : s.cxt.queue.length = s.cxt.count - 1) :
    s.goPost t m oriNode = (s.setPc t .idle, [.effect .full, .ret cmrMsgOverflow none]) := by
  have hpost : s.cxt.post oriNode m = ⟨s.cxt, cmrMsgOverflow, none, none⟩ :=
    if_pos (h.wf.full_iff.mpr hfull)
  simp only [MsgQueue.goPost, hpost]
  rfl

theorem goPost (h : s.Inv count log) {m : CmrMsg} {oriNode : Nat}
    (ht : s.threads[t]? = some (.post m oriNode)) :
    (s.goPost t m oriNode).1.Inv count (log ++ (s.goPost t m oriNode).2.map (t, ·)) := by
  by_cases hfull : s.cxt.queue.length = s.cxt.count - 1
  · rw [h.goPost_full m oriNode hfull, MsgQueue.setPc, h.unlocked]
    refine h.next ht h.wf rfl rfl ?_ (by simp) (.of_whole (.full m))
    show (fifoStep (count - 1) s.cxt.queue .full).bind some = _
    rw [fifoStep, if_pos (by rw [hfull, h.count_eq])]
    rfl
  · obtain ⟨hwf, hcount, hnumber, hqueue, hret, hfault⟩ := h.wf.post_ok hfull oriNode m
    simp only [MsgQueue.goPost, MsgQueue.setPc, hret, hfault, if_true, h.unlocked]
    refine h.next ht hwf hcount ?_ ?_ (by simp) (.of_part rfl)
    · rw [hnumber]
      simp only [Pc.pending, Bool.toNat_true, Bool.toNat_false]
      omega
    · have hroom : s.cxt.queue.length < count - 1 := by
        have hlen := h.wf.length_queue
        have hlt := h.wf.number_lt
        rw [h.count_eq] at hlt hfull
        omega
      show (fifoStep (count - 1) s.cxt.queue (.put m)).bind some = _
      rw [fifoStep, if_pos hroom, hqueue]
      rfl

theorem goWait (h : s.Inv count log) {r : Reader} (ht : s.threads[t]? = some (.semWait r)) :
    (s.goWait t r).1.Inv count (log ++ (s.goWait t r).2.map (t, ·)) := by
  unfold MsgQueue.goWait MsgQueue.setPc
  by_cases hsem : 0 < s.msgSem
  · rw [if_pos hsem]
    simp only [h.unlocked]
    refine h.next_same ht ?_ (Or.inl rfl) (by simp) (.of_part rfl)
    simp only [Pc.pending, Bool.toNat_true, Bool.toNat_false]
    omega
  · rw [if_neg hsem]
    by_cases hr : r = .peak
    · subst hr
      rw [if_pos rfl, h.unlocked]
      exact h.next_same ht rfl (Or.inr rfl) (by simp) (.of_whole (.none .peak))
    · rw [if_neg hr]
      simpa using h

theorem goTake (h : s.Inv count log) {r : Reader} (ht : s.threads[t]? = some (.take r)) :
    (s.goTake t r).1.Inv count (log ++ (s.goTake t r).2.map (t, ·)) := by
  have hpos := h.pos_of_pending ht rfl
  obtain ⟨m, htakes⟩ : ∃ m, Takes s.cxt (if r = .peak then s.cxt.peak else s.cxt.get) m := by
    split
    · exact h.wf.peak_ok hpos
    · exact h.wf.get_ok hpos
  simp only [MsgQueue.goTake, MsgQueue.setPc, htakes.fault, htakes.message, htakes.ret]
  refine h.next ht htakes.wf htakes.count ?_ ?_ (by simp) (.of_whole (.take r m))
  · have hnumber := htakes.number
    simp only [Pc.pending, Bool.toNat_true, Bool.toNat_false]
    omega
  · show (fifoStep (count - 1) s.cxt.queue (.take m)).bind some = _
    simp only [fifoStep, htakes.queue, List.head?_cons, if_true, List.tail_cons]
    rfl

/-- **One step of a thread.** -/
theorem stepPc (h : s.Inv count log) (ht : s.threads[t]? = some pc) (a : MsgAct) :
    (s.stepPc t pc a).1.Inv count (log ++ (s.stepPc t pc a).2.map (t, ·)) := by
  have hstay : s.Inv count (log ++ ([] : List MsgEvent).map (t, ·)) := by simpa using h
  cases pc with
  | idle =>
    cases a with
    | call c => exact h.enter ht c
    | go | timeout => exact hstay
  | post m oriNode =>
    cases a with
    | go =>
      simp only [MsgQueue.stepPc, h.unlocked]
      exact h.goPost ht
    | call _ | timeout => exact hstay
  | semPost m =>
    cases a with
    | go =>
      simp only [MsgQueue.stepPc, MsgQueue.setPc, h.unlocked]
      exact h.next_same ht rfl (Or.inl rfl) (by simp) (.of_whole (.put m))
    | call _ | timeout => exact hstay
  | semWait r =>
    cases a with
    | go =>
      cases r <;> exact h.goWait ht
    | timeout =>
      cases r with
      | timedget =>
        simp only [MsgQueue.stepPc, MsgQueue.setPc, h.unlocked]
        exact h.next_same ht rfl (Or.inr rfl) (by simp) (.of_whole (.none .timedget))
      | get | peak => exact hstay
    | call _ => cases r <;> exact hstay
  | take r =>
    cases a with
    | go =>
      simp only [MsgQueue.stepPc, h.unlocked]
      exact h.goTake ht
    | call _ | timeout => exact hstay

/-- A post is refused only by a full queue, and changes nothing then. -/
theorem stepPc_full (h : s.Inv count log) (ht : s.threads[t]? = some pc) {a : MsgAct}
    (hfull : MsgEvent.effect .full ∈ (s.stepPc t pc a).2) :
    s.cxt.queue.length = count - 1 ∧ (s.stepPc t pc a).1.cxt = s.cxt ∧
      (s.stepPc t pc a).1.msgSem = s.msgSem := by
  cases pc with
  | idle =>
    cases a with
    | call c =>
      rcases c with (_ | m) | ⟨r, _ | _⟩ <;> simp [MsgQueue.stepPc, MsgQueue.enter] at hfull
    | go | timeout => cases hfull
  | post m oriNode =>
    cases a with
    | go =>
      simp only [MsgQueue.stepPc, h.unlocked, Bool.false_eq_true, if_false] at hfull ⊢
      by_cases hlen : s.cxt.queue.length = s.cxt.count - 1
      · rw [h.goPost_full m oriNode hlen]
        exact ⟨h.count_eq ▸ hlen, rfl, rfl⟩
      · obtain ⟨-, -, -, -, hret, hfault⟩ := h.wf.post_ok hlen oriNode m
        simp [MsgQueue.goPost, hret, hfault] at hfull
    | call _ | timeout => cases hfull
  | semPost m =>
    cases a with
    | go => simp [MsgQueue.stepPc] at hfull
    | call _ | timeout => cases hfull
  | semWait r =>
    cases a with
    | go =>
      have hwait : MsgEvent.effect .full ∈ (s.goWait t r).2 := by cases r <;> exact hfull
      unfold MsgQueue.goWait at hwait
      split at hwait
      · cases hwait
      · split at hwait <;> simp at hwait
    | timeout => cases r <;> simp [MsgQueue.stepPc] at hfull
    | call _ => cases r <;> cases hfull
  | take r =>
    cases a with
    | go =>
      simp [MsgQueue.stepPc, h.unlocked, MsgQueue.goTake] at hfull
    | call _ | timeout => cases hfull

theorem step (h : s.Inv count log) (i : Nat × MsgAct) :
    (msgQueue.step s i).1.Inv count (log ++ (msgQueue.step s i).2) := by
  unfold msgQueue
  cases ht : s.threads[i.1]? with
  | none => simpa [ht] using h
  | some pc =>
    simp only [ht]
    exact h.stepPc ht i.2

theorem init {c : UInt32} {memory : Option { l : List CmrMsg // l.length = c.toNat }}
    {cxt : MsgCxt} (h : cmrMsgQueueCreate c memory = .ok cxt) (n : Nat) :
    (msgQueueInit cxt n).Inv c.toNat [] := by
  unfold cmrMsgQueueCreate at h
  split at h
  · cases h
  · rename_i hne
    have hpos : 0 < c.toNat := by
      rcases Nat.eq_zero_or_pos c.toNat with h0 | h0
      · exact absurd (UInt32.toNat_inj.mp h0) hne
      · exact h0
    cases memory with
    | none => cases h
    | some l =>
      obtain rfl := Except.ok.inj h
      refine ⟨⟨hpos, hpos, ?_⟩, rfl, rfl, ?_, rfl, by simp, fun t pc ht => ?_⟩
      · show 0 = (0 + 0) % c.toNat
        rw [Nat.zero_mod]
      · show 0 = 0 + (List.replicate n Pc.idle).countP Pc.pending
        simp [List.countP_replicate, Pc.pending]
      · obtain rfl : pc = .idle := List.eq_of_mem_replicate (List.mem_of_getElem? ht)
        exact ⟨[], by simp, rfl⟩

end MsgQueue.Inv

/-- **The message queue is a bounded queue.** For every number of slots, every number of threads and
every interleaving of their steps: the effects of the calls are a legal sequence of operations of a
queue with room for `count - 1` messages, which now holds the messages of the ring; the messages
taken are the messages put in, in order, each once; every call of every thread has its effect
between its start and its return and returns it; a post that finds the queue full changes nothing;
no fault occurs and nobody keeps the mutex. -/
theorem msg_queue_linearizable (count : UInt32)
    (memory : Option { l : List CmrMsg // l.length = count.toNat }) (cxt : MsgCxt)
    (hcreate : cmrMsgQueueCreate count memory = .ok cxt) (n : Nat) (acts : List (Nat × MsgAct)) :
    let s := (msgQueue.run (msgQueueInit cxt n) acts).1
    let log := (msgQueue.run (msgQueueInit cxt n) acts).2
    fifoRun (count.toNat - 1) [] (effects log) = some s.cxt.queue ∧
    QueueOp.takes (effects log) ++ s.cxt.queue = QueueOp.puts (effects log) ∧
    (∀ t pc, s.threads[t]? = some pc → ∃ calls : List (List MsgEvent),
      (∀ c ∈ calls, WholeCall c) ∧ logOf t log = calls.flatten ++ pc.begun) ∧
    (∀ i t, (t, MsgEvent.effect .full) ∈ (msgQueue.step s i).2 →
      s.cxt.queue.length = count.toNat - 1 ∧ (msgQueue.step s i).1.cxt = s.cxt ∧
        (msgQueue.step s i).1.msgSem = s.msgSem) ∧
    s.locked = false ∧ ∀ t f, (t, MsgEvent.fault f) ∉ log := by
  intro s log
  have hinv : s.Inv count.toNat log :=
    msgQueue.run_induction (P := fun s log => s.Inv count.toNat log)
      (fun s log i h _ => h.step i) acts _ [] (.init hcreate n)
      (msgQueue.admits_true _ _)
  refine ⟨hinv.legal, takes_append_of_fifoRun hinv.legal, hinv.history, ?_, hinv.unlocked,
    hinv.faults⟩
  intro i t hfull
  unfold msgQueue at hfull ⊢
  cases ht : s.threads[i.1]? with
  | none => simp [ht] at hfull
  | some pc =>
    simp only [ht] at hfull ⊢
    obtain ⟨e, he, heq⟩ := List.mem_map.mp hfull
    obtain rfl : e = .effect .full := congrArg Prod.snd heq
    exact hinv.stepPc_full ht he

/-- Two threads and a queue of three slots. -/
def twoPosts : List (Nat × MsgAct) :=
  [(0, .call (.post (some ⟨1, 0, 0, 0⟩))), (1, .call (.post (some ⟨2, 0, 0, 0⟩))), (1, .go),
    (0, .go), (0, .go), (0, .call (.read .get true)), (0, .go), (0, .go)]

/-- The reader gets the message whose post has not returned yet. -/
theorem twoPosts_linearizable :
    let cxt : MsgCxt := ⟨3, 0, List.replicate 3 .zero, 0, 0, rfl⟩
    let log := (msgQueue.run (msgQueueInit cxt 2) twoPosts).2
    effects log = [.put ⟨2, 0, 0, 0⟩, .put ⟨1, 0, 0, 0⟩, .take ⟨2, 0, 0, 0⟩] ∧
      ∀ t f, (t, MsgEvent.fault f) ∉ log := by
  intro cxt log
  have hcreate : cmrMsgQueueCreate 3 (some ⟨List.replicate 3 .zero, rfl⟩) = .ok cxt := rfl
  exact ⟨by decide, (msg_queue_linearizable 3 _ cxt hcreate 2 twoPosts).2.2.2.2.2⟩

end SprdHal.Camera

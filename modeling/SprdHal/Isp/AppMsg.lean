import SprdHal.Lib.Calls
import SprdHal.Lib.Machine
import SprdHal.Lib.Ring

/-!
# The message queue of the ISP application (`isp_app_msg.c`)

The ring has no counter: it is empty if `msg_read` is `msg_write`, so `count` slots hold `count - 1`
messages. A post that would fill the last slot sets `msg_write` back to where it was when the call
began, and still posts the semaphore and returns success. As long as no post comes to that, the queue
is a queue: `Holds` says which messages the ring holds, and the semaphore counts them up to the calls
in progress.

Any number of threads call the queue. A mutex section, `sem_post`, the wait on the semaphore and the
beginning of a call are one step each, and a step that has to wait changes nothing.
-/

namespace SprdHal.Isp

open SprdHal.Lib

/-- `struct isp_app_msg`; the pointers are addresses. -/
structure AppMsg where
  handlerId : UInt32
  msgType : UInt32
  subMsgType : UInt32
  data : UInt32
  dataLen : UInt32
  allocFlag : UInt32
  respond : UInt32
  deriving DecidableEq, Repr

/-- `ISPAPPMSGINIT` -/
def AppMsg.init : AppMsg := ⟨0, 0, 0, 0, 0, 0, 0⟩

/-- `ISP_APP_MSG_SUCCESS`, `ISP_APP_MSG_PARAM_ERR`, `ISP_APP_MSG_NO_OTHER_MSG`,
`ISP_APP_MSG_NO_MEM` -/
def appMsgSuccess : Int := 0
def appMsgParamErr : Int := 1
def appMsgNoOtherMsg : Int := 3
def appMsgNoMem : Int := 4

/-- `struct isp_app_msg_cxt`. The pointers into `msg_head` are slot numbers. -/
structure AppMsgCxt where
  msgCount : UInt32
  msgHead : List AppMsg
  msgWrite : Nat
  msgRead : Nat
  msgHead_size : msgHead.length = msgCount.toNat

/-- `isp_app_msg_queue_create`. `memory` is what the second `malloc` returns: `count` slots with
anything in them. -/
def ispAppMsgQueueCreate (count : UInt32)
    (memory : Option { l : List AppMsg // l.length = count.toNat }) : Except Int AppMsgCxt :=
  if count = 0 then .error (-appMsgParamErr)
  else
    match memory with
    | none => .error (-appMsgNoMem)
    | some m => .ok ⟨count, m.1, 0, 0, m.2⟩

namespace AppMsgCxt

def count (c : AppMsgCxt) : Nat := c.msgCount.toNat

/-- The section of `isp_app_msg_post`; `ori_node` was read before the mutex was taken. -/
def post (c : AppMsgCxt) (oriNode : Nat) (m : AppMsg) : AppMsgCxt :=
  let w := ringNext c.count c.msgWrite
  { c with
    msgHead := c.msgHead.set c.msgWrite m
    msgWrite := if w = c.msgRead then oriNode else w
    msgHead_size := by rw [List.length_set, c.msgHead_size] }

/-- What the sections of `isp_app_msg_get` and `isp_app_msg_peak` do if there is a message. -/
def take (c : AppMsgCxt) : AppMsg × AppMsgCxt :=
  (c.msgHead.getD c.msgRead .init, { c with msgRead := ringNext c.count c.msgRead })

/-- The messages in the ring. -/
def queue (c : AppMsgCxt) : List AppMsg :=
  ring c.msgHead c.msgRead ((c.msgWrite + c.count - c.msgRead) % c.count)

end AppMsgCxt

/-! ## Threads -/

/-- `isp_app_msg_get`, `isp_app_msg_peak` -/
inductive AppReader
  | get | peak
  deriving DecidableEq, Repr

/-- Where a thread is: outside, before the section of a post, before `sem_post`, at the semaphore,
before the section of a reader. -/
inductive AppPc
  | idle
  | post (m : AppMsg) (oriNode : Nat)
  | semPost (m : AppMsg)
  | semWait (r : AppReader)
  | take (r : AppReader)
  deriving DecidableEq

structure AppQueue where
  cxt : AppMsgCxt
  msgSem : Nat
  locked : Bool
  threads : List AppPc

/-- A call; a `NULL` message is `none` or `false`. -/
inductive AppCall
  | post (message : Option AppMsg)
  | read (r : AppReader) (message : Bool)
  deriving DecidableEq, Repr

/-- What a thread does next: it calls or goes on. -/
inductive AppAct
  | call (c : AppCall)
  | go
  deriving DecidableEq, Repr

/-- What is seen of a thread: a call, the section in which a message is posted or taken, and the
return with the code and what `*message` was filled with. -/
inductive AppEvent
  | call (c : AppCall)
  | posted (m : AppMsg)
  | taken (m : AppMsg)
  | ret (code : Int) (message : Option AppMsg)
  deriving DecidableEq, Repr

namespace AppQueue

def setPc (s : AppQueue) (t : Nat) (pc : AppPc) : AppQueue :=
  { s with threads := s.threads.set t pc }

/-- A call up to its first step on shared state. `ori_node` is read before anything else. -/
def enter (s : AppQueue) (t : Nat) : AppCall → AppQueue × List AppEvent
  | .post none => (s, [.call (.post none), .ret (-appMsgParamErr) none])
  | .post (some m) => (s.setPc t (.post m s.cxt.msgWrite), [.call (.post (some m))])
  | .read r false => (s, [.call (.read r false), .ret (-appMsgParamErr) none])
  | .read r true => (s.setPc t (.semWait r), [.call (.read r true)])

/-- The mutex section of a post. -/
def goPost (s : AppQueue) (t : Nat) (m : AppMsg) (oriNode : Nat) : AppQueue × List AppEvent :=
  ({ s with cxt := s.cxt.post oriNode m }.setPc t (.semPost m), [.posted m])

/-- The wait on the semaphore: `sem_wait` waits, `sem_trywait` does not. -/
def goWait (s : AppQueue) (t : Nat) (r : AppReader) : AppQueue × List AppEvent :=
  if 0 < s.msgSem then ({ s with msgSem := s.msgSem - 1 }.setPc t (.take r), [])
  else
    match r with
    | .get => (s, [])
    | .peak => (s.setPc t .idle, [.ret (-appMsgNoOtherMsg) none])

/-- The mutex section of a reader. If there is no message, `isp_app_msg_get` returns success and
leaves `*message` as it was, and `isp_app_msg_peak` returns without unlocking the mutex. -/
def goTake (s : AppQueue) (t : Nat) (r : AppReader) : AppQueue × List AppEvent :=
  if s.cxt.msgRead ≠ s.cxt.msgWrite then
    ({ s with cxt := s.cxt.take.2 }.setPc t .idle,
      [.taken s.cxt.take.1, .ret appMsgSuccess (some s.cxt.take.1)])
  else
    match r with
    | .get => (s.setPc t .idle, [.ret appMsgSuccess none])
    | .peak => ({ s with locked := true }.setPc t .idle, [.ret (-appMsgNoOtherMsg) none])

/-- One step of the thread `t`, with what is seen of it. -/
def stepPc (s : AppQueue) (t : Nat) : AppPc → AppAct → AppQueue × List AppEvent
  | .idle, .call c => s.enter t c
  | .post m oriNode, .go => if s.locked then (s, []) else s.goPost t m oriNode
  | .semPost _, .go =>
    ({ s with msgSem := s.msgSem + 1 }.setPc t .idle, [.ret appMsgSuccess none])
  | .semWait r, .go => s.goWait t r
  | .take r, .go => if s.locked then (s, []) else s.goTake t r
  | _, _ => (s, [])

end AppQueue

/-- The queue with its threads; an input names a thread and what it does. -/
def appQueue : Machine AppQueue (Nat × AppAct) (Nat × AppEvent) where
  step s i :=
    match s.threads[i.1]? with
    | some pc => ((s.stepPc i.1 pc i.2).1, (s.stepPc i.1 pc i.2).2.map (i.1, ·))
    | none => (s, [])

/-- `n` threads and a new queue. -/
def appQueueInit (cxt : AppMsgCxt) (n : Nat) : AppQueue := ⟨cxt, 0, false, List.replicate n .idle⟩

/-! ## What the callers rely on -/

/-- The posted messages, in the order of the sections. -/
def posted (log : List (Nat × AppEvent)) : List AppMsg :=
  log.filterMap fun e => match e.2 with
    | .posted m => some m
    | _ => none

/-- The messages taken, in the order of the sections. -/
def taken (log : List (Nat × AppEvent)) : List AppMsg :=
  log.filterMap fun e => match e.2 with
    | .taken m => some m
    | _ => none

/-- A call from its start to its return. A post that returns success has posted its message, and a
reader that returns success fills `*message` with the message it has taken. -/
inductive WholeAppCall : List AppEvent → Prop
  | nullPost : WholeAppCall [.call (.post none), .ret (-appMsgParamErr) none]
  | nullRead (r : AppReader) : WholeAppCall [.call (.read r false), .ret (-appMsgParamErr) none]
  | post (m : AppMsg) :
      WholeAppCall [.call (.post (some m)), .posted m, .ret appMsgSuccess none]
  | take (r : AppReader) (m : AppMsg) :
      WholeAppCall [.call (.read r true), .taken m, .ret appMsgSuccess (some m)]
  | none : WholeAppCall [.call (.read .peak true), .ret (-appMsgNoOtherMsg) none]

/-- What is seen so far of the call a thread is in. -/
def AppPc.begun : AppPc → List AppEvent
  | .idle => []
  | .post m _ => [.call (.post (some m))]
  | .semPost m => [.call (.post (some m)), .posted m]
  | .semWait r | .take r => [.call (.read r true)]

/-- A reader between the wait and its section. -/
def AppPc.reading : AppPc → Bool
  | .take _ => true
  | _ => false

/-- A post between its section and `sem_post`. -/
def AppPc.posting : AppPc → Bool
  | .semPost _ => true
  | _ => false

/-- The steps in which an idle thread calls `isp_app_msg_get`. -/
def getSteps (t : Nat) : List (Nat × AppAct) := [(t, .call (.read .get true)), (t, .go), (t, .go)]

/-- Nothing is lost and nothing is invented. -/
structure QueueOk (s : AppQueue) (log : List (Nat × AppEvent)) : Prop where
  /-- what was posted has been taken, in order and once, or is in the ring -/
  fifo : taken log ++ s.cxt.queue = posted log
  /-- every call is what it returns -/
  calls : ∀ t pc, s.threads[t]? = some pc → Calls WholeAppCall (eventsOf t log) pc.begun
  /-- a message whose post has not reached `sem_post` is not counted yet -/
  sem : s.msgSem + s.threads.countP AppPc.reading + s.threads.countP AppPc.posting =
    s.cxt.queue.length
  unlocked : s.locked = false
  /-- what is in the ring is delivered to whoever asks for it -/
  delivers : ∀ t, s.threads[t]? = some .idle → 0 < s.msgSem → ∃ m q, s.cxt.queue = m :: q ∧
    (appQueue.run s (getSteps t)).2 =
      [(t, .call (.read .get true)), (t, .taken m), (t, .ret appMsgSuccess (some m))] ∧
    (appQueue.run s (getSteps t)).1.cxt.queue = q

/-- A post before its section. -/
def AppPc.atPost : AppPc → Bool
  | .post _ _ => true
  | _ => false

/-- No post enters its section while the ring has one free slot only. -/
def Roomy (s : AppQueue) (i : Nat × AppAct) : Prop :=
  i.2 = .go ∧ s.threads[i.1]?.any AppPc.atPost = true → s.cxt.queue.length + 1 < s.cxt.count

instance (s : AppQueue) (i : Nat × AppAct) : Decidable (Roomy s i) :=
  inferInstanceAs (Decidable (_ → _))

/-! ## The ring -/

/-- The ring holds the messages `q`. -/
structure Holds (c : AppMsgCxt) (q : List AppMsg) : Prop where
  read_lt : c.msgRead < c.count
  length_lt : q.length < c.count
  write_eq : c.msgWrite = (q.length + c.msgRead) % c.count
  ring_eq : ring c.msgHead c.msgRead q.length = q

namespace Holds

variable {c : AppMsgCxt} {q : List AppMsg} {m : AppMsg}

/-- The distance from `msg_read` to `msg_write`. -/
theorem distance (h : Holds c q) :
    (c.msgWrite + c.count - c.msgRead) % c.count = q.length := by
  have hr := h.read_lt
  have hq := h.length_lt
  rw [h.write_eq]
  rcases Nat.lt_or_ge (q.length + c.msgRead) c.count with hlt | hge
  · rw [Nat.mod_eq_of_lt hlt, show q.length + c.msgRead + c.count - c.msgRead =
      q.length + c.count by omega, Nat.add_mod_right, Nat.mod_eq_of_lt hq]
  · have hwrap : (q.length + c.msgRead) % c.count = q.length + c.msgRead - c.count := by
      rw [Nat.mod_eq_sub_mod hge, Nat.mod_eq_of_lt (by omega)]
    rw [hwrap, show q.length + c.msgRead - c.count + c.count - c.msgRead = q.length by omega,
      Nat.mod_eq_of_lt hq]

theorem queue_eq (h : Holds c q) : c.queue = q := by
  unfold AppMsgCxt.queue
  rw [h.distance, h.ring_eq]

theorem self (h : Holds c q) : Holds c c.queue := by
  rw [h.queue_eq]
  exact h

/-- A new ring. -/
theorem create (c : AppMsgCxt) (hcount : 0 < c.count) (hr : c.msgRead = 0) (hw : c.msgWrite = 0) :
    Holds c [] := by
  refine ⟨?_, hcount, ?_, ?_⟩
  · rw [hr]
    exact hcount
  · rw [hr, hw, List.length_nil, Nat.zero_mod]
  · simp [ring]

/-- The slot behind `msg_write`. -/
theorem next_write (h : Holds c q) :
    ringNext c.count c.msgWrite = (q.length + 1 + c.msgRead) % c.count := by
  have hpos : 0 < c.count := by have := h.read_lt; omega
  have hw : c.msgWrite < c.count := by
    rw [h.write_eq]
    exact Nat.mod_lt _ hpos
  rw [ringNext_eq_mod hw, h.write_eq, Nat.mod_add_mod, Nat.add_right_comm]

/-- **A post into a ring with room** puts its message behind the others, whatever `ori_node` is. -/
theorem post (h : Holds c q) (hroom : q.length + 1 < c.count) (oriNode : Nat) (m : AppMsg) :
    Holds (c.post oriNode m) (q ++ [m]) := by
  have hr := h.read_lt
  have hne : ringNext c.count c.msgWrite ≠ c.msgRead := by
    have hoff := offset_ne (r := c.msgRead) hroom (show 0 < c.count by omega) (by omega)
    rw [Nat.zero_add, Nat.mod_eq_of_lt hr, ← h.next_write] at hoff
    exact hoff
  have hsize : c.msgHead.length = c.count := c.msgHead_size
  have hlen : (q ++ [m]).length = q.length + 1 := by simp
  refine ⟨hr, hlen ▸ hroom, ?_, ?_⟩
  · rw [hlen]
    exact (if_neg hne).trans h.next_write
  · have hpush := ring_push (by omega : q.length < c.msgHead.length) c.msgRead m
    rw [hsize, ← h.write_eq, h.ring_eq] at hpush
    rw [hlen]
    exact hpush

theorem read_ne_write (h : Holds c (m :: q)) : c.msgRead ≠ c.msgWrite := by
  have hr := h.read_lt
  have hne := offset_ne (r := c.msgRead) (show 0 < c.count by omega) h.length_lt
    (Nat.ne_of_lt (Nat.succ_pos q.length))
  rw [Nat.zero_add, Nat.mod_eq_of_lt hr, ← h.write_eq] at hne
  exact hne

/-- **A reader** takes the first message. -/
theorem take (h : Holds c (m :: q)) : c.take.1 = m ∧ Holds c.take.2 q := by
  have hr := h.read_lt
  have hq := h.length_lt
  rw [List.length_cons] at hq
  have hsize : c.msgHead.length = c.count := c.msgHead_size
  obtain ⟨x, hx, hpop⟩ := ring_pop (n := q.length) (by omega : c.msgRead < c.msgHead.length)
    (by omega)
  have hcons := h.ring_eq
  rw [List.length_cons, hpop, hsize, ← ringNext_eq_mod hr] at hcons
  obtain ⟨rfl, hring⟩ := List.cons.inj hcons
  refine ⟨?_, ringNext_lt hr, by show q.length < c.count; omega, ?_, hring⟩
  · unfold AppMsgCxt.take
    rw [List.getD_eq_getElem?_getD, hx]
    rfl
  · have hw := h.write_eq
    rw [List.length_cons] at hw
    have hnext : c.take.2.msgRead = (c.msgRead + 1) % c.count := ringNext_eq_mod hr
    rw [hnext]
    show c.msgWrite = (q.length + (c.msgRead + 1) % c.count) % c.count
    rw [Nat.add_mod_mod, hw]
    congr 1
    omega

end Holds

/-! ## The invariant -/

section Log

variable (log log' : List (Nat × AppEvent))

theorem posted_append : posted (log ++ log') = posted log ++ posted log' := List.filterMap_append

theorem taken_append : taken (log ++ log') = taken log ++ taken log' := List.filterMap_append

end Log

structure AppQueue.Inv (s : AppQueue) (log : List (Nat × AppEvent)) : Prop where
  holds : Holds s.cxt s.cxt.queue
  fifo : taken log ++ s.cxt.queue = posted log
  calls : ∀ t pc, s.threads[t]? = some pc → Calls WholeAppCall (eventsOf t log) pc.begun
  sem : s.msgSem + s.threads.countP AppPc.reading + s.threads.countP AppPc.posting =
    s.cxt.queue.length
  unlocked : s.locked = false

namespace AppQueue.Inv

variable {s : AppQueue} {log : List (Nat × AppEvent)} {t : Nat} {pc pc' : AppPc}

/-- A thread goes from `pc` to `pc'`, and the ring from its messages to the messages `q`. -/
theorem next (h : s.Inv log) (ht : s.threads[t]? = some pc) {cxt : AppMsgCxt} {sem : Nat}
    {ev : List AppEvent} {q : List AppMsg} (hq : Holds cxt q)
    (hfifo : taken (ev.map (t, ·)) ++ q = s.cxt.queue ++ posted (ev.map (t, ·)))
    (hsem : sem + pc'.reading.toNat + pc'.posting.toNat + s.cxt.queue.length =
      s.msgSem + pc.reading.toNat + pc.posting.toNat + q.length)
    (hcalls : Calls WholeAppCall (pc.begun ++ ev) pc'.begun) :
    Inv ⟨cxt, sem, false, s.threads.set t pc'⟩ (log ++ ev.map (t, ·)) where
  holds := hq.self
  fifo := by
    show taken (log ++ ev.map (t, ·)) ++ cxt.queue = posted (log ++ ev.map (t, ·))
    rw [hq.queue_eq, taken_append, posted_append, List.append_assoc, hfifo, ← List.append_assoc,
      h.fifo]
  calls := calls_set h.calls ht hcalls
  sem := by
    have hreading := countP_set_add AppPc.reading ht pc'
    have hposting := countP_set_add AppPc.posting ht pc'
    have hold := h.sem
    show sem + (s.threads.set t pc').countP AppPc.reading +
      (s.threads.set t pc').countP AppPc.posting = cxt.queue.length
    rw [hq.queue_eq]
    omega
  unlocked := rfl

/-- A step without an effect on the ring. -/
theorem next_same (h : s.Inv log) (ht : s.threads[t]? = some pc) {sem : Nat} {ev : List AppEvent}
    (htaken : taken (ev.map (t, ·)) = []) (hposted : posted (ev.map (t, ·)) = [])
    (hsem : sem + pc'.reading.toNat + pc'.posting.toNat =
      s.msgSem + pc.reading.toNat + pc.posting.toNat)
    (hcalls : Calls WholeAppCall (pc.begun ++ ev) pc'.begun) :
    Inv ⟨s.cxt, sem, false, s.threads.set t pc'⟩ (log ++ ev.map (t, ·)) := by
  refine h.next ht h.holds ?_ (by omega) hcalls
  rw [htaken, hposted, List.nil_append, List.append_nil]

/-- A call that returns at once. -/
theorem refuse (h : s.Inv log) (ht : s.threads[t]? = some .idle) {ev : List AppEvent}
    (htaken : taken (ev.map (t, ·)) = []) (hposted : posted (ev.map (t, ·)) = [])
    (hev : WholeAppCall ev) : s.Inv (log ++ ev.map (t, ·)) := by
  have hnext : Inv ⟨s.cxt, s.msgSem, false, s.threads.set t .idle⟩ (log ++ ev.map (t, ·)) :=
    h.next_same ht htaken hposted rfl (.of_whole hev)
  obtain ⟨hlt, hget⟩ := List.getElem?_eq_some_iff.mp ht
  rwa [← hget, List.set_getElem_self, ← h.unlocked] at hnext

theorem enter (h : s.Inv log) (ht : s.threads[t]? = some .idle) (c : AppCall) :
    (s.enter t c).1.Inv (log ++ (s.enter t c).2.map (t, ·)) := by
  unfold AppQueue.enter AppQueue.setPc
  cases c with
  | post message =>
    cases message with
    | none => exact h.refuse ht rfl rfl .nullPost
    | some m =>
      rw [h.unlocked]
      exact h.next_same ht rfl rfl rfl (.of_part rfl)
  | read r message =>
    cases message with
    | false => exact h.refuse ht rfl rfl (.nullRead r)
    | true =>
      rw [h.unlocked]
      exact h.next_same ht rfl rfl rfl (.of_part rfl)

theorem goPost (h : s.Inv log) {m : AppMsg} {oriNode : Nat}
    (ht : s.threads[t]? = some (.post m oriNode)) (hroom : s.cxt.queue.length + 1 < s.cxt.count) :
    (s.goPost t m oriNode).1.Inv (log ++ (s.goPost t m oriNode).2.map (t, ·)) := by
  unfold AppQueue.goPost AppQueue.setPc
  simp only [h.unlocked]
  refine h.next ht (h.holds.post hroom oriNode m) rfl ?_ (.of_part rfl)
  simp only [AppPc.reading, AppPc.posting, Bool.toNat_true, Bool.toNat_false, List.length_append,
    List.length_singleton]
  omega

theorem goWait (h : s.Inv log) {r : AppReader} (ht : s.threads[t]? = some (.semWait r)) :
    (s.goWait t r).1.Inv (log ++ (s.goWait t r).2.map (t, ·)) := by
  unfold AppQueue.goWait AppQueue.setPc
  by_cases hsem : 0 < s.msgSem
  · rw [if_pos hsem]
    simp only [h.unlocked]
    refine h.next_same ht rfl rfl ?_ (.of_part rfl)
    simp only [AppPc.reading, AppPc.posting, Bool.toNat_true, Bool.toNat_false]
    omega
  · rw [if_neg hsem]
    cases r with
    | get => simpa using h
    | peak =>
      rw [h.unlocked]
      exact h.next_same ht rfl rfl rfl (.of_whole .none)

/-- A reader that has its token finds a message. -/
theorem exists_message (h : s.Inv log) {r : AppReader} (ht : s.threads[t]? = some (.take r)) :
    ∃ m q, s.cxt.queue = m :: q := by
  have hpos : 0 < s.threads.countP AppPc.reading :=
    List.countP_pos_iff.mpr ⟨_, List.mem_of_getElem? ht, rfl⟩
  have hsem := h.sem
  exact List.exists_cons_of_length_pos (by omega)

/-- What a reader does that finds a message. -/
theorem goTake_eq {m : AppMsg} {q : List AppMsg} (hq : Holds s.cxt (m :: q)) (r : AppReader) :
    s.goTake t r = ({ s with cxt := s.cxt.take.2 }.setPc t .idle,
      [.taken m, .ret appMsgSuccess (some m)]) := by
  unfold AppQueue.goTake
  rw [if_pos hq.read_ne_write, hq.take.1]

theorem goTake (h : s.Inv log) {r : AppReader} (ht : s.threads[t]? = some (.take r)) :
    (s.goTake t r).1.Inv (log ++ (s.goTake t r).2.map (t, ·)) := by
  obtain ⟨m, q, hq⟩ := h.exists_message ht
  have hholds := h.holds
  rw [hq] at hholds
  rw [goTake_eq hholds, AppQueue.setPc]
  simp only [h.unlocked]
  refine h.next ht hholds.take.2 ?_ ?_ (.of_whole (.take r m))
  · rw [hq]
    exact (List.append_nil _).symm
  · rw [hq]
    simp only [AppPc.reading, AppPc.posting, Bool.toNat_true, Bool.toNat_false, List.length_cons]
    omega

/-- **One step of a thread.** -/
theorem stepPc (h : s.Inv log) (ht : s.threads[t]? = some pc) {a : AppAct} (hok : Roomy s (t, a)) :
    (s.stepPc t pc a).1.Inv (log ++ (s.stepPc t pc a).2.map (t, ·)) := by
  have hstay : s.Inv (log ++ ([] : List AppEvent).map (t, ·)) := by simpa using h
  cases a with
  | call c =>
    cases pc with
    | idle => exact h.enter ht c
    | post _ _ | semPost _ | semWait _ | take _ => exact hstay
  | go =>
    cases pc with
    | idle => exact hstay
    | post m oriNode =>
      simp only [AppQueue.stepPc, h.unlocked]
      exact h.goPost ht (hok ⟨rfl, by rw [ht]; rfl⟩)
    | semPost m =>
      simp only [AppQueue.stepPc, AppQueue.setPc, h.unlocked]
      exact h.next_same ht rfl rfl rfl (.of_whole (.post m))
    | semWait r => exact h.goWait ht
    | take r =>
      simp only [AppQueue.stepPc, h.unlocked]
      exact h.goTake ht

theorem step (h : s.Inv log) {i : Nat × AppAct} (hok : Roomy s i) :
    (appQueue.step s i).1.Inv (log ++ (appQueue.step s i).2) := by
  unfold appQueue
  cases ht : s.threads[i.1]? with
  | none => simpa [ht] using h
  | some pc =>
    simp only [ht]
    exact h.stepPc ht hok

theorem init {count : UInt32} {memory : Option { l : List AppMsg // l.length = count.toNat }}
    {cxt : AppMsgCxt} (h : ispAppMsgQueueCreate count memory = .ok cxt) (n : Nat) :
    (appQueueInit cxt n).Inv [] := by
  unfold ispAppMsgQueueCreate at h
  split at h
  · cases h
  · rename_i hne
    have hpos : 0 < count.toNat := by
      rcases Nat.eq_zero_or_pos count.toNat with h0 | h0
      · exact absurd (UInt32.toNat_inj.mp h0) hne
      · exact h0
    cases memory with
    | none => cases h
    | some l =>
      obtain rfl := Except.ok.inj h
      have hholds := Holds.create ⟨count, l.1, 0, 0, l.2⟩ hpos rfl rfl
      refine ⟨hholds.self, hholds.queue_eq, fun t pc ht => ?_, ?_, rfl⟩
      · obtain rfl : pc = .idle := List.eq_of_mem_replicate (List.mem_of_getElem? ht)
        exact .nil
      · rw [show (appQueueInit _ n).cxt.queue = [] from hholds.queue_eq]
        simp [appQueueInit, List.countP_replicate, AppPc.reading, AppPc.posting]

end AppQueue.Inv

section Steps

variable {s : AppQueue} {t : Nat} {r : AppReader}

/-- A step of a thread whose place is known. -/
theorem appQueue_step {pc : AppPc} (ht : s.threads[t]? = some pc) (a : AppAct) :
    appQueue.step s (t, a) = ((s.stepPc t pc a).1, (s.stepPc t pc a).2.map (t, ·)) := by
  simp only [appQueue, ht]

theorem step_read (ht : s.threads[t]? = some .idle) :
    appQueue.step s (t, .call (.read r true)) =
      (s.setPc t (.semWait r), [(t, .call (.read r true))]) := appQueue_step ht _

theorem step_wait (ht : s.threads[t]? = some (.semWait r)) (hsem : 0 < s.msgSem) :
    appQueue.step s (t, .go) = ({ s with msgSem := s.msgSem - 1 }.setPc t (.take r), []) := by
  have hgo : s.goWait t r = ({ s with msgSem := s.msgSem - 1 }.setPc t (.take r), []) := if_pos hsem
  rw [appQueue_step ht]
  simp only [AppQueue.stepPc, hgo]
  rfl

theorem step_take (ht : s.threads[t]? = some (.take r)) (hunlocked : s.locked = false)
    {m : AppMsg} {q : List AppMsg} (hq : Holds s.cxt (m :: q)) :
    appQueue.step s (t, .go) = ({ s with cxt := s.cxt.take.2 }.setPc t .idle,
      [(t, .taken m), (t, .ret appMsgSuccess (some m))]) := by
  rw [appQueue_step ht]
  simp only [AppQueue.stepPc, hunlocked, AppQueue.Inv.goTake_eq hq]
  rfl

end Steps

/-- **A get** while the semaphore is positive returns the oldest message. -/
theorem AppQueue.Inv.delivers {s : AppQueue} {log : List (Nat × AppEvent)} {t : Nat}
    (h : s.Inv log) (ht : s.threads[t]? = some .idle) (hsem : 0 < s.msgSem) :
    ∃ m q, s.cxt.queue = m :: q ∧
      (appQueue.run s (getSteps t)).2 =
        [(t, .call (.read .get true)), (t, .taken m), (t, .ret appMsgSuccess (some m))] ∧
      (appQueue.run s (getSteps t)).1.cxt.queue = q := by
  have hlen := h.sem
  obtain ⟨m, q, hq⟩ := List.exists_cons_of_length_pos (show 0 < s.cxt.queue.length by omega)
  have hholds := h.holds
  rw [hq] at hholds
  have hlt := (List.getElem?_eq_some_iff.mp ht).1
  -- the call
  obtain ⟨s₁, hcall, ht₁, hcxt₁, hsem₁, hlocked₁⟩ : ∃ s₁,
      appQueue.step s (t, .call (.read .get true)) = (s₁, [(t, .call (.read .get true))]) ∧
      s₁.threads[t]? = some (.semWait .get) ∧ s₁.cxt = s.cxt ∧ s₁.msgSem = s.msgSem ∧
      s₁.locked = s.locked :=
    ⟨_, step_read ht, List.getElem?_set_self hlt, rfl, rfl, rfl⟩
  -- the wait
  obtain ⟨s₂, hwait, ht₂, hcxt₂, hlocked₂⟩ : ∃ s₂, appQueue.step s₁ (t, .go) = (s₂, []) ∧
      s₂.threads[t]? = some (.take .get) ∧ s₂.cxt = s₁.cxt ∧ s₂.locked = s₁.locked :=
    ⟨_, step_wait ht₁ (hsem₁ ▸ hsem),
      List.getElem?_set_self (List.getElem?_eq_some_iff.mp ht₁).1, rfl, rfl⟩
  -- the section
  have hholds₂ : Holds s₂.cxt (m :: q) := by
    rw [hcxt₂, hcxt₁]
    exact hholds
  have htake := step_take ht₂ (hlocked₂.trans (hlocked₁.trans h.unlocked)) hholds₂
  refine ⟨m, q, hq, ?_, ?_⟩
  · rw [getSteps, Machine.run_cons, hcall, Machine.run_cons, hwait, Machine.run_cons, htake]
    rfl
  · rw [getSteps, Machine.run_cons, hcall, Machine.run_cons, hwait, Machine.run_cons, htake]
    exact hholds₂.take.2.queue_eq

theorem AppQueue.Inv.queueOk {s : AppQueue} {log : List (Nat × AppEvent)} (h : s.Inv log) :
    QueueOk s log :=
  ⟨h.fifo, h.calls, h.sem, h.unlocked, fun _ ht hsem => h.delivers ht hsem⟩

/-! ## Every run -/

/-- **Nothing is lost and nothing is invented** in a run in which no post fills the ring: for every
number of slots, every number of threads and every interleaving. -/
theorem app_queue_run {count : UInt32} {memory : Option { l : List AppMsg // l.length = count.toNat }}
    {cxt : AppMsgCxt} (hcreate : ispAppMsgQueueCreate count memory = .ok cxt) (n : Nat)
    (acts : List (Nat × AppAct)) (hroom : appQueue.Admits Roomy (appQueueInit cxt n) acts) :
    QueueOk (appQueue.run (appQueueInit cxt n) acts).1
      (appQueue.run (appQueueInit cxt n) acts).2 := by
  have hinv := appQueue.run_induction (P := fun s log => s.Inv log)
    (fun s log i h hok => h.step hok) acts _ [] (.init hcreate n) hroom
  exact hinv.queueOk

/-- A message with its type. -/
def appMsg (type : UInt32) : AppMsg := { AppMsg.init with msgType := type }

/-- A new queue of `count` slots. -/
def newQueue (count : UInt32) : AppMsgCxt :=
  ⟨count, List.replicate count.toNat .init, 0, 0, List.length_replicate⟩

/-- Two slots; a thread posts and another one gets. -/
def postAndGet : List (Nat × AppAct) :=
  [(0, .call (.post (some (appMsg 1)))), (0, .go), (0, .go), (1, .call (.read .get true)), (1, .go),
    (1, .go)]

theorem app_queue_run_postAndGet :
    appQueue.Admits Roomy (appQueueInit (newQueue 2) 2) postAndGet ∧
      QueueOk (appQueue.run (appQueueInit (newQueue 2) 2) postAndGet).1
        (appQueue.run (appQueueInit (newQueue 2) 2) postAndGet).2 := by
  have hcreate : ispAppMsgQueueCreate 2 (some ⟨List.replicate 2 .init, rfl⟩) = .ok (newQueue 2) := rfl
  have hroom : appQueue.Admits Roomy (appQueueInit (newQueue 2) 2) postAndGet := by decide
  exact ⟨hroom, app_queue_run hcreate 2 postAndGet hroom⟩

/-- Two slots hold one message: the second post returns success, its message is lost, and the token
it has posted leads `isp_app_msg_peak` to an empty ring. -/
def twoPostsAndPeak : List (Nat × AppAct) :=
  [(0, .call (.post (some (appMsg 1)))), (0, .go), (0, .go),
    (0, .call (.post (some (appMsg 2)))), (0, .go), (0, .go),
    (1, .call (.read .get true)), (1, .go), (1, .go),
    (1, .call (.read .peak true)), (1, .go), (1, .go)]

theorem app_queue_not_ok :
    let s := (appQueue.run (appQueueInit (newQueue 2) 2) twoPostsAndPeak).1
    let log := (appQueue.run (appQueueInit (newQueue 2) 2) twoPostsAndPeak).2
    posted log = [appMsg 1, appMsg 2] ∧ taken log = [appMsg 1] ∧ s.cxt.queue = [] ∧
      s.threads = [.idle, .idle] ∧ s.locked = true ∧ ¬QueueOk s log := by
  intro s log
  have hlocked : s.locked = true := by decide
  refine ⟨by decide, by decide, by decide, by decide, hlocked, fun h => ?_⟩
  rw [h.unlocked] at hlocked
  exact nomatch hlocked

end SprdHal.Isp

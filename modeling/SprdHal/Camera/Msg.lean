import SprdHal.Lib.Fifo
import SprdHal.Lib.Machine
import SprdHal.Lib.Ring

/-!
# The camera message queue (`cmr_msg.c`)

The queue is a ring of `count` slots with a counter of its own, `msg_number`, and a semaphore that
counts the posted messages a second time. A post puts its message into the ring under the mutex and
then posts the semaphore; a reader takes a token from the semaphore and then, under the mutex, the
message. The three counts agree only up to the calls in progress (`MsgQueue.Inv`): `msg_number` is
the semaphore's value plus the posts that have not reached `sem_post` and the readers that have
their token.

Any number of threads call the queue. A mutex section, `sem_post` and the wait on the semaphore are
one step each, and a step that has to wait changes nothing.
-/

namespace SprdHal.Camera

open SprdHal.Lib

/-- `struct cmr_msg` -/
structure CmrMsg where
  msgType : UInt32
  subMsgType : UInt32
  data : UInt32
  allocFlag : UInt32
  deriving DecidableEq, Repr

/-- What `bzero` makes of a slot. -/
def CmrMsg.zero : CmrMsg := ⟨0, 0, 0, 0⟩

/-- `CMR_MSG_SUCCESS`, `CMR_MSG_PARAM_ERR`, `CMR_MSG_NO_OTHER_MSG`, `CMR_MSG_NO_MEM`,
`CMR_MSG_OVERFLOW`, `CMR_MSG_UNDERFLOW` -/
def cmrMsgSuccess : Int := 0
def cmrMsgParamErr : Int := 1
def cmrMsgNoOtherMsg : Int := 3
def cmrMsgNoMem : Int := 4
def cmrMsgOverflow : Int := 5
def cmrMsgUnderflow : Int := 6

/-- `struct cmr_msg_cxt`. The pointers into `msg_head` are slot numbers. -/
structure MsgCxt where
  msgCount : UInt32
  msgNumber : UInt32
  msgHead : List CmrMsg
  msgWrite : Nat
  msgRead : Nat
  msgHead_size : msgHead.length = msgCount.toNat
  deriving DecidableEq

/-- `cmr_msg_queue_create`. `memory` is what the second `malloc` returns: `count` slots with
anything in them. -/
def cmrMsgQueueCreate (count : UInt32) (memory : Option { l : List CmrMsg // l.length = count.toNat }) :
    Except Int MsgCxt :=
  if count = 0 then .error (-cmrMsgParamErr)
  else
    match memory with
    | none => .error (-cmrMsgNoMem)
    | some m => .ok ⟨count, 0, m.1, 0, 0, m.2⟩

/-- The branches that no run should take. -/
inductive MsgFault
  /-- `MSG underflow` -/
  | underflow
  /-- a reader finds `msg_read == msg_write` although `msg_number` is positive -/
  | readAtWrite
  /-- a post finds that `msg_write` has caught up with `msg_read` -/
  | writeAtRead
  /-- `cmr_msg_peak` returns with the mutex locked -/
  | keptMutex
  deriving DecidableEq, Repr

/-- What a mutex section does: the queue, the return code, what was copied to or from `*message`,
and the fault. -/
structure Section where
  cxt : MsgCxt
  ret : Int
  message : Option CmrMsg
  fault : Option MsgFault

namespace MsgCxt

def count (c : MsgCxt) : Nat := c.msgCount.toNat

def setSlot (c : MsgCxt) (i : Nat) (m : CmrMsg) : MsgCxt :=
  { c with msgHead := c.msgHead.set i m, msgHead_size := by rw [List.length_set, c.msgHead_size] }

/-- The section of `cmr_msg_post`; `ori_node` was read before the mutex was taken. -/
def post (c : MsgCxt) (oriNode : Nat) (m : CmrMsg) : Section :=
  if c.msgNumber + 1 ≥ c.msgCount then ⟨c, cmrMsgOverflow, none, none⟩
  else
    let w := ringNext c.count c.msgWrite
    ⟨{ c.setSlot c.msgWrite m with
        msgWrite := if w = c.msgRead then oriNode else w, msgNumber := c.msgNumber + 1 },
      cmrMsgSuccess, some m, if w = c.msgRead then some .writeAtRead else none⟩

/-- The section of `cmr_msg_get` and `cmr_msg_timedget`. -/
def get (c : MsgCxt) : Section :=
  if c.msgNumber = 0 then ⟨c, cmrMsgUnderflow, none, some .underflow⟩
  else if c.msgRead ≠ c.msgWrite then
    ⟨{ c.setSlot c.msgRead .zero with
        msgRead := ringNext c.count c.msgRead, msgNumber := c.msgNumber - 1 },
      cmrMsgSuccess, c.msgHead[c.msgRead]?, none⟩
  else ⟨{ c with msgNumber := c.msgNumber - 1 }, cmrMsgSuccess, none, some .readAtWrite⟩

/-- The section of `cmr_msg_peak`. -/
def peak (c : MsgCxt) : Section :=
  if c.msgRead ≠ c.msgWrite then
    ⟨{ c with msgRead := ringNext c.count c.msgRead, msgNumber := c.msgNumber - 1 },
      cmrMsgSuccess, c.msgHead[c.msgRead]?, none⟩
  else ⟨c, -cmrMsgNoOtherMsg, none, some .keptMutex⟩

/-- The messages in the ring. -/
def queue (c : MsgCxt) : List CmrMsg := ring c.msgHead c.msgRead c.msgNumber.toNat

end MsgCxt

/-! ## Threads -/

/-- `cmr_msg_get`, `cmr_msg_timedget`, `cmr_msg_peak` -/
inductive Reader
  | get | timedget | peak
  deriving DecidableEq, Repr

/-- Where a thread is: outside, before the section of a post, before `sem_post`, at the semaphore,
before the section of a reader. -/
inductive Pc
  | idle
  | post (m : CmrMsg) (oriNode : Nat)
  | semPost (m : CmrMsg)
  | semWait (r : Reader)
  | take (r : Reader)
  deriving DecidableEq

structure MsgQueue where
  cxt : MsgCxt
  msgSem : Nat
  locked : Bool
  threads : List Pc

/-- A call; a `NULL` message is `none` or `false`. -/
inductive MsgCall
  | post (message : Option CmrMsg)
  | read (r : Reader) (message : Bool)
  deriving DecidableEq, Repr

/-- What a thread does next: it calls, goes on, or gives up `sem_timedwait`. -/
inductive MsgAct
  | call (c : MsgCall)
  | go
  | timeout
  deriving DecidableEq, Repr

/-- What is seen of a thread: a call, its effect on the queue, and its return with the code and
what `*message` holds. -/
inductive MsgEvent
  | call (c : MsgCall)
  | effect (op : QueueOp CmrMsg)
  | ret (code : Int) (message : Option CmrMsg)
  | fault (f : MsgFault)
  deriving DecidableEq, Repr

namespace MsgQueue

def setPc (s : MsgQueue) (t : Nat) (pc : Pc) : MsgQueue := { s with threads := s.threads.set t pc }

/-- A call up to its first step on shared state. `ori_node` is read before anything else. -/
def enter (s : MsgQueue) (t : Nat) : MsgCall → MsgQueue × List MsgEvent
  | .post none => (s, [.call (.post none), .ret (-cmrMsgParamErr) none])
  | .post (some m) => (s.setPc t (.post m s.cxt.msgWrite), [.call (.post (some m))])
  | .read r false => (s, [.call (.read r false), .ret (-cmrMsgParamErr) none])
  | .read r true => (s.setPc t (.semWait r), [.call (.read r true)])

/-- The mutex section of a post. -/
def goPost (s : MsgQueue) (t : Nat) (m : CmrMsg) (oriNode : Nat) : MsgQueue × List MsgEvent :=
  let x := s.cxt.post oriNode m
  let s := { s with cxt := x.cxt }
  if x.ret = cmrMsgSuccess then
    (s.setPc t (.semPost m), .effect (.put m) :: x.fault.toList.map .fault)
  else (s.setPc t .idle, [.effect .full, .ret x.ret none])

/-- The wait on the semaphore: `sem_wait` and `sem_timedwait` wait, `sem_trywait` does not. -/
def goWait (s : MsgQueue) (t : Nat) (r : Reader) : MsgQueue × List MsgEvent :=
  if 0 < s.msgSem then ({ s with msgSem := s.msgSem - 1 }.setPc t (.take r), [])
  else if r = .peak then
    (s.setPc t .idle, [.effect .none, .ret (-cmrMsgNoOtherMsg) none])
  else (s, [])

/-- The mutex section of a reader. -/
def goTake (s : MsgQueue) (t : Nat) (r : Reader) : MsgQueue × List MsgEvent :=
  let x : Section := if r = .peak then s.cxt.peak else s.cxt.get
  let s := { s with cxt := x.cxt, locked := x.fault == some MsgFault.keptMutex }
  (s.setPc t .idle,
    x.message.toList.map (fun m => .effect (.take m)) ++ x.fault.toList.map .fault ++
      [.ret x.ret x.message])

/-- One step of the thread `t`, with what is seen of it. -/
def stepPc (s : MsgQueue) (t : Nat) : Pc → MsgAct → MsgQueue × List MsgEvent
  | .idle, .call c => s.enter t c
  | .post m oriNode, .go => if s.locked then (s, []) else s.goPost t m oriNode
  | .semPost _, .go =>
    ({ s with msgSem := s.msgSem + 1 }.setPc t .idle, [.ret cmrMsgSuccess none])
  | .semWait r, .go => s.goWait t r
  | .semWait .timedget, .timeout =>
    (s.setPc t .idle, [.effect .none, .ret cmrMsgNoOtherMsg none])
  | .take r, .go => if s.locked then (s, []) else s.goTake t r
  | _, _ => (s, [])

end MsgQueue

/-- An event of a thread. -/
abbrev ThreadEvent := Nat × MsgEvent

/-- The queue with its threads; an input names a thread and what it does. -/
def msgQueue : Machine MsgQueue (Nat × MsgAct) ThreadEvent where
  step s i :=
    match s.threads[i.1]? with
    | some pc => ((s.stepPc i.1 pc i.2).1, (s.stepPc i.1 pc i.2).2.map (i.1, ·))
    | none => (s, [])

/-- `n` threads and a new queue. -/
def msgQueueInit (cxt : MsgCxt) (n : Nat) : MsgQueue := ⟨cxt, 0, false, List.replicate n .idle⟩

/-! ## The mutex sections -/

/-- Between two sections: the ring has room for one more message than it may hold, and `msg_write`
is the slot behind the last message. -/
structure MsgCxt.Wf (c : MsgCxt) : Prop where
  number_lt : c.msgNumber.toNat < c.count
  read_lt : c.msgRead < c.count
  write_eq : c.msgWrite = (c.msgNumber.toNat + c.msgRead) % c.count

/-- A section that takes the first message. -/
structure Takes (c : MsgCxt) (x : Section) (m : CmrMsg) : Prop where
  wf : x.cxt.Wf
  count : x.cxt.count = c.count
  number : x.cxt.msgNumber.toNat + 1 = c.msgNumber.toNat
  queue : c.queue = m :: x.cxt.queue
  ret : x.ret = cmrMsgSuccess
  message : x.message = some m
  fault : x.fault = none

namespace MsgCxt.Wf

variable {c : MsgCxt}

theorem length_queue (h : c.Wf) : c.queue.length = c.msgNumber.toNat := by
  have hlt := h.number_lt
  rw [queue, length_ring (by rw [c.msgHead_size]; exact Nat.le_of_lt hlt)]

theorem number_succ (h : c.Wf) : (c.msgNumber + 1).toNat = c.msgNumber.toNat + 1 := by
  have hlt := h.number_lt
  have hcount : c.count < 4294967296 := c.msgCount.toNat_lt
  rw [UInt32.toNat_add]
  simp only [UInt32.toNat_one]
  omega

/-- The ring has room exactly if it holds fewer than `count - 1` messages. -/
theorem full_iff (h : c.Wf) : c.msgNumber + 1 ≥ c.msgCount ↔ c.queue.length = c.count - 1 := by
  have hlt := h.number_lt
  have hcount : c.msgCount.toNat = c.count := rfl
  rw [ge_iff_le, UInt32.le_iff_toNat_le, h.number_succ, h.length_queue, hcount]
  omega

theorem read_ne_write (h : c.Wf) (hpos : 0 < c.msgNumber.toNat) : c.msgRead ≠ c.msgWrite := by
  have hlt := h.number_lt
  have hr := h.read_lt
  have hne := offset_ne (r := c.msgRead) (show 0 < c.count by omega) hlt (by omega)
  rw [Nat.zero_add, Nat.mod_eq_of_lt hr, ← h.write_eq] at hne
  exact hne

/-- **A post into a ring with room.** -/
theorem post_ok (h : c.Wf) (hroom : c.queue.length ≠ c.count - 1) (oriNode : Nat) (m : CmrMsg) :
    let x := c.post oriNode m
    x.cxt.Wf ∧ x.cxt.count = c.count ∧ x.cxt.msgNumber.toNat = c.msgNumber.toNat + 1 ∧
      x.cxt.queue = c.queue ++ [m] ∧ x.ret = cmrMsgSuccess ∧ x.fault = none := by
  intro x
  have hlt := h.number_lt
  have hr := h.read_lt
  have hnum := h.length_queue
  have hroom' : c.msgNumber.toNat + 1 < c.count := by omega
  have hw : c.msgWrite < c.count := by rw [h.write_eq]; exact Nat.mod_lt _ (by omega)
  have hnext : ringNext c.count c.msgWrite = (c.msgNumber.toNat + 1 + c.msgRead) % c.count := by
    rw [ringNext_eq_mod hw, h.write_eq, Nat.mod_add_mod, Nat.add_right_comm]
  have hne : ringNext c.count c.msgWrite ≠ c.msgRead := by
    have hoff := offset_ne (r := c.msgRead) hroom' (show 0 < c.count by omega) (by omega)
    rw [Nat.zero_add, Nat.mod_eq_of_lt hr, ← hnext] at hoff
    exact hoff
  have hx : x = ⟨{ c.setSlot c.msgWrite m with
      msgWrite := ringNext c.count c.msgWrite, msgNumber := c.msgNumber + 1 },
      cmrMsgSuccess, some m, none⟩ := by
    simp only [x, post, if_neg fun hfull => hroom (h.full_iff.mp hfull), if_neg hne]
  rw [hx]
  refine ⟨⟨?_, hr, ?_⟩, rfl, h.number_succ, ?_, rfl, rfl⟩
  · show (c.msgNumber + 1).toNat < c.count
    rw [h.number_succ]
    exact hroom'
  · show ringNext c.count c.msgWrite = ((c.msgNumber + 1).toNat + c.msgRead) % c.count
    rw [h.number_succ, hnext]
  · have hsize : c.msgHead.length = c.count := c.msgHead_size
    have hpush := ring_push (by omega : c.msgNumber.toNat < c.msgHead.length) c.msgRead m
    rw [hsize, ← h.write_eq] at hpush
    show ring (c.msgHead.set c.msgWrite m) c.msgRead (c.msgNumber + 1).toNat = _
    rw [h.number_succ, hpush]
    rfl

/-- **Taking a message**, whatever is put into its slot. -/
theorem takes (h : c.Wf) (hpos : 0 < c.msgNumber.toNat) (z : CmrMsg) :
    ∃ m, c.msgHead[c.msgRead]? = some m ∧
      Takes c ⟨{ c.setSlot c.msgRead z with
        msgRead := ringNext c.count c.msgRead, msgNumber := c.msgNumber - 1 },
        cmrMsgSuccess, some m, none⟩ m := by
  have hlt := h.number_lt
  have hr := h.read_lt
  have hsize : c.msgHead.length = c.count := c.msgHead_size
  have hnum : (c.msgNumber - 1).toNat = c.msgNumber.toNat - 1 :=
    UInt32.toNat_sub_of_le _ _ (UInt32.le_iff_toNat_le.mpr hpos)
  obtain ⟨n, hn⟩ : ∃ n, c.msgNumber.toNat = n + 1 := ⟨_, (Nat.succ_pred_eq_of_pos hpos).symm⟩
  rw [hn, Nat.add_sub_cancel] at hnum
  obtain ⟨m, hm, hpop⟩ := ring_pop (n := n) (by omega : c.msgRead < c.msgHead.length) (by omega)
  have hslot : c.msgRead = (c.count - 1 + (c.msgRead + 1) % c.count) % c.count := by
    rw [Nat.add_mod_mod, show c.count - 1 + (c.msgRead + 1) = c.msgRead + c.count by omega,
      Nat.add_mod_right, Nat.mod_eq_of_lt hr]
  refine ⟨m, hm, ⟨?_, ringNext_lt hr, ?_⟩, rfl, ?_, ?_, rfl, rfl, rfl⟩
  · show (c.msgNumber - 1).toNat < c.count
    omega
  · show c.msgWrite = ((c.msgNumber - 1).toNat + ringNext c.count c.msgRead) % c.count
    rw [hnum, ringNext_eq_mod hr, Nat.add_mod_mod, h.write_eq, hn]
    congr 1
    omega
  · show (c.msgNumber - 1).toNat + 1 = c.msgNumber.toNat
    omega
  · show ring c.msgHead c.msgRead c.msgNumber.toNat =
      m :: ring (c.msgHead.set c.msgRead z) (ringNext c.count c.msgRead) (c.msgNumber - 1).toNat
    have hset := ring_set (by omega : n ≤ c.count - 1) (by omega : c.count - 1 < c.msgHead.length)
      ((c.msgRead + 1) % c.count) z
    rw [hsize, ← hslot] at hset
    rw [hn, hpop, hnum, ringNext_eq_mod hr, hset, hsize]

theorem get_ok (h : c.Wf) (hpos : 0 < c.msgNumber.toNat) : ∃ m, Takes c c.get m := by
  obtain ⟨m, hm, ht⟩ := h.takes hpos .zero
  have hne : c.msgNumber ≠ 0 := fun h0 => by rw [h0] at hpos; cases hpos
  have hget : c.get = ⟨{ c.setSlot c.msgRead .zero with
      msgRead := ringNext c.count c.msgRead, msgNumber := c.msgNumber - 1 },
      cmrMsgSuccess, some m, none⟩ := by
    simp only [get, if_neg hne, if_pos (h.read_ne_write hpos), hm]
  exact ⟨m, hget ▸ ht⟩

theorem peak_ok (h : c.Wf) (hpos : 0 < c.msgNumber.toNat) : ∃ m, Takes c c.peak m := by
  have hr : c.msgRead < c.msgHead.length := by rw [c.msgHead_size]; exact h.read_lt
  obtain ⟨m, hm, ht⟩ := h.takes hpos (c.msgHead[c.msgRead])
  -- `cmr_msg_peak` leaves the slot as it is
  have hslot : c.setSlot c.msgRead c.msgHead[c.msgRead] = c := by
    simp only [setSlot, List.set_getElem_self]
  rw [hslot] at ht
  have hpeak : c.peak = ⟨{ c with
      msgRead := ringNext c.count c.msgRead, msgNumber := c.msgNumber - 1 },
      cmrMsgSuccess, some m, none⟩ := by
    simp only [peak, if_pos (h.read_ne_write hpos), hm]
  exact ⟨m, hpeak ▸ ht⟩

end MsgCxt.Wf

end SprdHal.Camera

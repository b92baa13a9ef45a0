import SprdHal.Camera.Trim
import SprdHal.Lib.Machine

/-!
# The face detection worker (`cmr_arith.c`)

`arithmetic_fd_thread_proc` takes one message after the other. A start sets `fd_busy`, works under
`fd_lock` and resets both; `arithmetic_fd_start` drops a frame while `fd_busy` is set. The exit of
the handler that is taken when there is no memory for the frame forgets `fd_busy`, so a worker is
idle whenever it waits exactly if it finds memory at every start (`never_locked_out_iff`).
-/

namespace SprdHal.Camera

open SprdHal.Lib

/-- `enum arithmetic_ret` -/
inductive ArithRet where
  | success
  | initFail
  | startFail
  | noMem
  | fail
  deriving DecidableEq, Repr

/-- What the worker has in `s_arith_cxt` and in its own variables. Memory is a map from the blocks
that are allocated to their sizes; `next` is a block that never was. -/
structure FdCxt where
  addr : Option Nat
  memSize : UInt32
  memState : ArithRet
  fdBusy : UInt32
  fdLock : Bool
  fdNum : UInt32
  arithFdFlag : UInt32
  /-- `mem_size` of the thread -/
  ownMemSize : UInt32
  /-- The worker is in `cmr_msg_get`. -/
  waiting : Bool
  heap : Nat → Option UInt32
  next : Nat

/-- What happens around a start: the answers of `camera_get_prev_stat`, of `FaceSolid_Function` and
the number of faces. -/
structure FdStartEnv where
  prevIdle : Bool
  faceFails : Bool
  faceNum : UInt32
  prevIdleAfter : Bool
  deriving DecidableEq, Repr

/-- The messages, with the outcome of the `malloc` in their handlers. -/
inductive FdMsg where
  | fdInit (size : Option ImgSize) (allocated : Bool)
  | mem (memSize : UInt32) (allocated : Bool)
  | fdStart (env : FdStartEnv)
  | fdExit
  | other
  deriving DecidableEq, Repr

/-- What the worker does besides to its state. -/
inductive FdEvt where
  | semPost
  | faceFinalize
  | faceInit (size : ImgSize)
  | copy (block : Nat) (size : UInt32)
  | callback (faceNum : UInt32)
  deriving DecidableEq, Repr

/-- `check_size_data_invalid`: the size is there and not empty. -/
def checkSizeDataInvalid (size : Option ImgSize) : Bool :=
  size.any fun z => z.width != 0 && z.height != 0

namespace FdCxt

/-- Before the first message. `arithmetic_mem_handle` may have left a size. -/
def init (memSize arithFdFlag : UInt32) : FdCxt where
  addr := none
  memSize := memSize
  memState := .success
  fdBusy := 0
  fdLock := false
  fdNum := 0
  arithFdFlag := arithFdFlag
  ownMemSize := 0
  waiting := true
  heap := fun _ => none
  next := 0

/-- `free` of `addr` -/
def freeAddr (s : FdCxt) : FdCxt :=
  match s.addr with
  | none => s
  | some p => { s with heap := Function.update s.heap p none }

/-- `addr = malloc(mem_size)` and what follows it in both handlers. -/
def mallocAddr (s : FdCxt) (allocated : Bool) : FdCxt :=
  if allocated then
    { s with
      addr := some s.next
      heap := Function.update s.heap s.next (some s.ownMemSize)
      next := s.next + 1
      memSize := s.ownMemSize
      memState := .success }
  else { s with addr := none, memState := .noMem }

/-- The blocks that `addr` is taken from before a message with a new size. -/
def dropAddr (s : FdCxt) : FdCxt :=
  if s.addr.isSome then { s.freeAddr with addr := none, memSize := 0 } else s

/-- `ARITHMETIC_EVT_FD_INIT` -/
def onInit (s : FdCxt) (size : Option ImgSize) (allocated : Bool) : FdCxt × List FdEvt :=
  let evts := match size with
    | some z => if checkSizeDataInvalid size then [.faceFinalize, .faceInit z] else []
    | none => []
  (if s.memSize ≠ 0 then s.freeAddr.mallocAddr allocated else s, evts)

/-- `ARITHMETIC_EVT_MEM` -/
def onMem (s : FdCxt) (memSize : UInt32) (allocated : Bool) : FdCxt :=
  let s := { s with ownMemSize := memSize }
  if memSize = 0 then { s.dropAddr with memState := .success }
  else if s.memSize ≠ memSize then s.dropAddr.mallocAddr allocated
  else s

/-- `ARITHMETIC_EVT_FD_START` -/
def onStart (s : FdCxt) (env : FdStartEnv) : FdCxt × List FdEvt :=
  let s := { s with fdNum := 0, fdBusy := 1 }
  -- the lock is the worker's own: it would wait for itself
  if s.fdLock then ({ s with waiting := false }, [])
  else
    let locked := { s with fdLock := true }
    if locked.addr = none ∨ locked.memState ≠ .success then
      ({ locked with fdLock := false }, [.semPost])
    else if env.prevIdle then ({ locked with fdBusy := 0, fdLock := false }, [.semPost])
    else
      match locked.addr with
      | none => ({ locked with fdBusy := 0, fdLock := false }, [.semPost])
      | some p =>
        let evts : List FdEvt := [.copy p locked.memSize, .semPost]
        if env.faceFails then ({ locked with fdBusy := 0, fdLock := false }, evts)
        else
          let found := { locked with fdNum := env.faceNum }
          if env.prevIdleAfter then ({ found with fdBusy := 0, fdLock := false }, evts)
          else
            let shown : List FdEvt :=
              if found.arithFdFlag ≠ 0 then [.callback env.faceNum] else []
            ({ found with fdBusy := 0, fdLock := false }, evts ++ shown)

end FdCxt

/-- One turn of the loop in `arithmetic_fd_thread_proc`. -/
def fdStep (s : FdCxt) (m : FdMsg) : FdCxt × List FdEvt :=
  if s.waiting then
    match m with
    | .fdInit size allocated => s.onInit size allocated
    | .mem memSize allocated => (s.onMem memSize allocated, [])
    | .fdStart env => s.onStart env
    | .fdExit => ({ s with waiting := false }, [.faceFinalize, .semPost])
    | .other => (s, [])
  else (s, [])

def fdWorker : Machine FdCxt FdMsg FdEvt := ⟨fdStep⟩

def FdMsg.IsStart : FdMsg → Prop
  | .fdStart _ => True
  | _ => False

/-- The worker is ready for the next message. -/
structure FdCxt.Idle (s : FdCxt) : Prop where
  not_busy : s.fdBusy = 0
  unlocked : s.fdLock = false
  block : ∀ p, s.addr = some p → s.heap p = some s.memSize

/-- In a run the worker is idle whenever it waits, and every start posts the semaphore once. -/
structure NeverLockedOut (s : FdCxt) (ms : List FdMsg) : Prop where
  idle : ∀ pre, pre <+: ms → (fdWorker.run s pre).1.waiting = true → (fdWorker.run s pre).1.Idle
  posts : ∀ pre m, pre ++ [m] <+: ms → (fdWorker.run s pre).1.waiting = true → m.IsStart →
    (fdStep (fdWorker.run s pre).1 m).2.count .semPost = 1

/-- At a start there is memory for the frame. -/
def FindsMemory (s : FdCxt) (m : FdMsg) : Prop :=
  s.waiting = true → m.IsStart → s.addr ≠ none ∧ s.memState = .success

namespace FdCxt

/-! ## The memory -/

/-- `addr` is `NULL` or a block of `mem_size` bytes. -/
def HasBlock (s : FdCxt) : Prop := ∀ p, s.addr = some p → s.heap p = some s.memSize

theorem hasBlock_of_none {s : FdCxt} (h : s.addr = none) : s.HasBlock := by
  intro p hp
  rw [h] at hp
  cases hp

theorem hasBlock_mallocAddr (s : FdCxt) (allocated : Bool) : (s.mallocAddr allocated).HasBlock := by
  cases allocated with
  | false => exact hasBlock_of_none rfl
  | true =>
    rintro p ⟨rfl⟩
    exact Function.update_self ..

theorem hasBlock_dropAddr {s : FdCxt} (h : s.HasBlock) : s.dropAddr.HasBlock := by
  unfold dropAddr
  split
  · exact hasBlock_of_none rfl
  · exact h

theorem hasBlock_onInit {s : FdCxt} (h : s.HasBlock) (size : Option ImgSize) (allocated : Bool) :
    (s.onInit size allocated).1.HasBlock := by
  simp only [onInit]
  split
  · exact hasBlock_mallocAddr _ _
  · exact h

theorem hasBlock_onMem {s : FdCxt} (h : s.HasBlock) (memSize : UInt32) (allocated : Bool) :
    (s.onMem memSize allocated).HasBlock := by
  have hown : ({ s with ownMemSize := memSize } : FdCxt).HasBlock := h
  simp only [onMem]
  split
  · exact hasBlock_dropAddr hown
  · split
    · exact hasBlock_mallocAddr _ _
    · exact hown

/-! ## The flags -/

/-- The two states agree in what a start uses. -/
structure SameFlags (s t : FdCxt) : Prop where
  fdBusy : t.fdBusy = s.fdBusy
  fdLock : t.fdLock = s.fdLock
  waiting : t.waiting = s.waiting

theorem sameFlags_freeAddr (s : FdCxt) : s.SameFlags s.freeAddr := by
  unfold freeAddr
  split <;> exact ⟨rfl, rfl, rfl⟩

theorem SameFlags.mallocAddr {s t : FdCxt} (h : s.SameFlags t) (allocated : Bool) :
    s.SameFlags (t.mallocAddr allocated) := by
  cases allocated <;> exact ⟨h.fdBusy, h.fdLock, h.waiting⟩

theorem sameFlags_dropAddr (s : FdCxt) : s.SameFlags s.dropAddr := by
  have h := sameFlags_freeAddr s
  unfold dropAddr
  split
  · exact ⟨h.fdBusy, h.fdLock, h.waiting⟩
  · exact ⟨rfl, rfl, rfl⟩

theorem sameFlags_onInit (s : FdCxt) (size : Option ImgSize) (allocated : Bool) :
    s.SameFlags (s.onInit size allocated).1 := by
  simp only [onInit]
  split
  · exact (sameFlags_freeAddr s).mallocAddr allocated
  · exact ⟨rfl, rfl, rfl⟩

theorem sameFlags_onMem (s : FdCxt) (memSize : UInt32) (allocated : Bool) :
    s.SameFlags (s.onMem memSize allocated) := by
  have h := sameFlags_dropAddr { s with ownMemSize := memSize }
  simp only [onMem]
  split
  · exact ⟨h.fdBusy, h.fdLock, h.waiting⟩
  · split
    · have hfree := h.mallocAddr allocated
      exact ⟨hfree.fdBusy, hfree.fdLock, hfree.waiting⟩
    · exact ⟨rfl, rfl, rfl⟩

theorem Idle.of_same {s t : FdCxt} (h : s.Idle) (hsame : s.SameFlags t) (hblock : t.HasBlock) :
    t.Idle :=
  ⟨hsame.fdBusy.trans h.not_busy, hsame.fdLock.trans h.unlocked, hblock⟩

/-! ## A start -/

/-- A start without memory posts the semaphore and stays busy. -/
theorem onStart_no_memory {s : FdCxt} (hlock : s.fdLock = false)
    (hno : s.addr = none ∨ s.memState ≠ .success) (env : FdStartEnv) :
    s.onStart env = ({ s with fdNum := 0, fdBusy := 1, fdLock := false }, [.semPost]) := by
  simp only [onStart, hlock, Bool.false_eq_true, if_false]
  rw [if_pos hno]

/-- A start with memory posts the semaphore once and is idle again. -/
theorem onStart_memory {s : FdCxt} (h : s.Idle) (hmem : s.addr ≠ none ∧ s.memState = .success)
    (env : FdStartEnv) :
    (s.onStart env).1.Idle ∧ (s.onStart env).2.count .semPost = 1 := by
  obtain ⟨p, hp⟩ := Option.ne_none_iff_exists'.mp hmem.1
  have hready : ¬ (s.addr = none ∨ s.memState ≠ .success) :=
    not_or.mpr ⟨hmem.1, not_not.mpr hmem.2⟩
  have hblock : ∀ q, some p = some q → s.heap q = some s.memSize := hp ▸ h.block
  simp only [onStart, h.unlocked, Bool.false_eq_true, if_false]
  rw [if_neg hready]
  split
  · exact ⟨⟨rfl, rfl, h.block⟩, rfl⟩
  · simp only [hp]
    split
    · exact ⟨⟨rfl, rfl, hblock⟩, rfl⟩
    · split
      · exact ⟨⟨rfl, rfl, hblock⟩, rfl⟩
      · refine ⟨⟨rfl, rfl, hblock⟩, ?_⟩
        split <;> rfl

theorem onStart_posts {s : FdCxt} (h : s.Idle) (env : FdStartEnv) :
    (s.onStart env).2.count .semPost = 1 := by
  by_cases hmem : s.addr ≠ none ∧ s.memState = .success
  · exact (onStart_memory h hmem env).2
  · rw [onStart_no_memory h.unlocked (by rwa [not_and_or, not_not] at hmem)]
    rfl

/-- A start leaves the worker idle if it finds memory, and only then. -/
theorem onStart_idle_iff {s : FdCxt} (h : s.Idle) (env : FdStartEnv) :
    (s.onStart env).1.Idle ↔ s.addr ≠ none ∧ s.memState = .success := by
  constructor
  · intro hidle
    by_contra hmem
    rw [onStart_no_memory h.unlocked (by rwa [not_and_or, not_not] at hmem)] at hidle
    have hbusy : (1 : UInt32) = 0 := hidle.not_busy
    exact absurd hbusy (by decide)
  · exact fun hmem => (onStart_memory h hmem env).1

theorem onStart_waiting {s : FdCxt} (h : s.fdLock = false) (env : FdStartEnv) :
    (s.onStart env).1.waiting = s.waiting := by
  simp only [onStart, h, Bool.false_eq_true, if_false]
  split
  · rfl
  · split
    · rfl
    · split
      · rfl
      · split
        · rfl
        · split <;> rfl

end FdCxt

/-! ## Runs -/

/-- One message leaves an idle worker idle if it is not a start without memory. -/
theorem fdStep_idle_iff (s : FdCxt) (m : FdMsg) (h : s.waiting = true → s.Idle) :
    ((fdStep s m).1.waiting = true → (fdStep s m).1.Idle) ↔ FindsMemory s m := by
  unfold fdStep FindsMemory
  by_cases hw : s.waiting = true
  · have hidle := h hw
    simp only [hw, if_true, forall_const]
    cases m with
    | fdInit size allocated =>
      have hsame := s.sameFlags_onInit size allocated
      have hgood := hidle.of_same hsame (FdCxt.hasBlock_onInit hidle.block size allocated)
      exact ⟨fun _ => False.elim, fun _ _ => hgood⟩
    | mem memSize allocated =>
      have hsame := s.sameFlags_onMem memSize allocated
      have hgood := hidle.of_same hsame (FdCxt.hasBlock_onMem hidle.block memSize allocated)
      exact ⟨fun _ => False.elim, fun _ _ => hgood⟩
    | fdStart env =>
      have hwaits : (s.onStart env).1.waiting = true :=
        (FdCxt.onStart_waiting hidle.unlocked env).trans hw
      simp only [hwaits, forall_const, FdMsg.IsStart]
      exact FdCxt.onStart_idle_iff hidle env
    | fdExit => exact ⟨fun _ => False.elim, fun _ hwaits => by cases hwaits⟩
    | other => exact ⟨fun _ => False.elim, fun _ _ => hidle⟩
  · rw [if_neg hw]
    exact ⟨fun _ hwaits => absurd hwaits hw, fun _ hwaits => absurd hwaits hw⟩

theorem fdStep_posts {s : FdCxt} {m : FdMsg} (hw : s.waiting = true) (h : s.Idle) (hm : m.IsStart) :
    (fdStep s m).2.count .semPost = 1 := by
  cases m with
  | fdStart env =>
    rw [fdStep, if_pos hw]
    exact FdCxt.onStart_posts h env
  | fdInit | mem | fdExit | other => exact hm.elim

/-- **The worker does not lock itself out** exactly if every start finds memory. -/
theorem never_locked_out_iff (memSize arithFdFlag : UInt32) (ms : List FdMsg) :
    NeverLockedOut (.init memSize arithFdFlag) ms ↔
      fdWorker.Admits FindsMemory (.init memSize arithFdFlag) ms := by
  have hinit : (FdCxt.init memSize arithFdFlag).Idle :=
    ⟨rfl, rfl, FdCxt.hasBlock_of_none rfl⟩
  have hgood := fdWorker.states_good_iff (fun s m => fdStep_idle_iff s m) ms
    (.init memSize arithFdFlag) fun _ => hinit
  constructor
  · exact fun h => hgood.mp h.idle
  · intro hadm
    have hidle := hgood.mpr hadm
    refine ⟨hidle, fun pre m hpre hw hm => fdStep_posts hw (hidle pre ?_ hw) hm⟩
    exact (List.prefix_append pre [m]).trans hpre

/-- A frame that is seen during the preview and has no face. -/
def plainStart : FdMsg := .fdStart ⟨false, false, 0, false⟩

/-- The buffer for the frames is not allocated, and the first frame finds none. -/
theorem not_never_locked_out_no_memory :
    ¬ NeverLockedOut (.init 0 1) [.fdInit (some ⟨640, 480⟩) true, .mem 460800 false, plainStart] := by
  intro h
  have hbusy := (h.idle _ (List.prefix_refl _) rfl).not_busy
  have hone : (1 : UInt32) = 0 := hbusy
  exact absurd hone (by decide)

/-! ## A worker that is locked out -/

/-- The requests of the other threads. -/
inductive FdCall where
  | callInit (size : ImgSize) (allocated : Bool)
  | memHandle (memSize : UInt32) (allocated : Bool)
  | start (env : FdStartEnv)
  deriving DecidableEq, Repr

/-- `arithmetic_fd_call_init`, `arithmetic_mem_handle` and `arithmetic_fd_start`, with the worker's
answer: `arithmetic_fd_start` sends nothing while `fd_busy` is 1. -/
def fdCall (s : FdCxt) : FdCall → FdCxt × List FdEvt
  | .callInit size allocated => fdStep s (.fdInit (some size) allocated)
  | .memHandle memSize allocated => fdStep s (.mem memSize allocated)
  | .start env => if s.fdBusy ≠ 1 then fdStep s (.fdStart env) else (s, [])

def fdCaller : Machine FdCxt FdCall FdEvt := ⟨fdCall⟩

theorem fdCall_busy {s : FdCxt} (h : s.fdBusy = 1) (c : FdCall) : (fdCall s c).1.fdBusy = 1 := by
  cases c with
  | callInit size allocated =>
    rw [fdCall, fdStep]
    split
    · exact (s.sameFlags_onInit (some size) allocated).fdBusy.trans h
    · exact h
  | memHandle memSize allocated =>
    rw [fdCall, fdStep]
    split
    · exact (s.sameFlags_onMem memSize allocated).fdBusy.trans h
    · exact h
  | start env =>
    rw [fdCall, if_neg (not_not.mpr h)]
    exact h

/-- **One start without memory locks the worker out**: no request makes `arithmetic_fd_start` send
another one. -/
theorem locked_out_for_ever {s : FdCxt} (hlock : s.fdLock = false) (hw : s.waiting = true)
    (hno : s.addr = none ∨ s.memState ≠ .success) (env : FdStartEnv) (cs : List FdCall) :
    (fdCaller.run (fdStep s (.fdStart env)).1 cs).1.fdBusy = 1 := by
  have hbusy : (fdStep s (.fdStart env)).1.fdBusy = 1 := by
    rw [fdStep, if_pos hw, FdCxt.onStart_no_memory hlock hno]
  exact fdCaller.run_invariant (P := fun s => s.fdBusy = 1) (fun _ c h => fdCall_busy h c) cs _ hbusy

end SprdHal.Camera

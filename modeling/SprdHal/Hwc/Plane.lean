import Mathlib.Data.Fintype.Basic
import Mathlib.Data.List.FinRange
import SprdHal.Lib.Machine

/-!
# Buffers of the display planes (`SprdDisplayPlane.cpp`)

A plane has a few buffer slots, a queue of the slots that are to be shown and two slot numbers, the
one that was dequeued last and the one that is on screen. `dequeueBuffer`, `queueBuffer` and `flush`
pass a slot around; `open` and `close` allocate and free the buffers.

Two things break the ownership of the slots. `open` and `close` set the states of all slots, but
leave `mQueue`, and `open` also the slot on screen, as they are. And the first `dequeueBuffer` with
`dequeueFirstFlag` equal to 0 frees the slot that was dequeued before it, whatever has become of it.
`planes_owned` says that nothing else does.
-/

namespace SprdHal.Hwc

open SprdHal.Lib

/-- `PLANE_BUFFER_NUMBER` -/
def planeBufferNumber : Nat := 2

abbrev Slot := Fin planeBufferNumber

/-- `BufferSlot::BufferState` -/
inductive BufferState
  | free | dequeueed | queueed | release
  deriving DecidableEq, Repr

/-- `BufferSlot`; a buffer is known by the number of its allocation. -/
structure BufferSlot where
  mBufferState : BufferState
  mIonBuffer : Option Nat
  deriving DecidableEq

/-- `SprdDisplayPlane`. The last three fields are ghosts: whether the last buffer that was dequeued
from the open plane has not been queued yet, the buffer that the last `flush` returned, and the
buffers queued since the plane was opened. -/
structure Plane where
  mWidth : Nat
  mHeight : Nat
  initFlag : Bool
  mSlots : Slot → BufferSlot
  mDisplayBufferIndex : Option Slot
  mFlushingBufferIndex : Option Slot
  mQueue : List Slot
  held : Bool
  shown : Option Nat
  queued : List Nat

/-- The planes, the function-static `dequeueFirstFlag` and the number of allocations so far. -/
structure Planes where
  planes : List Plane
  dequeueFirstFlag : Bool
  allocs : Nat

namespace Plane

/-- The constructor, and `setGeometry`. -/
def new (width height : Nat) : Plane :=
  ⟨width, height, false, fun _ => ⟨.free, none⟩, none, none, [], false, none, []⟩

def state (p : Plane) (i : Slot) : BufferState := (p.mSlots i).mBufferState

def setState (p : Plane) (i : Slot) (st : BufferState) : Plane :=
  { p with mSlots := Function.update p.mSlots i { p.mSlots i with mBufferState := st } }

def setBuffer (p : Plane) (i : Slot) (b : Option Nat) : Plane :=
  { p with mSlots := Function.update p.mSlots i { p.mSlots i with mIonBuffer := b } }

/-- The first free slot. -/
def found (p : Plane) : Option Slot := (List.finRange planeBufferNumber).find? (p.state · = .free)

/-- `createPlaneBuffer` where there is no buffer yet. -/
def create (p : Plane) (i : Slot) (allocs : Nat) : Plane × Nat :=
  match (p.mSlots i).mIonBuffer with
  | none => (p.setBuffer i (some allocs), allocs + 1)
  | some _ => (p, allocs)

/-- Release the slot dequeued before: `dequeueFirstFlag` is 0 and `mDisplayBufferIndex` is not
negative. -/
def releaseFirst (p : Plane) (flag : Bool) : Plane × Bool :=
  match flag, p.mDisplayBufferIndex with
  | false, some d => (p.setState d .free, true)
  | _, _ => (p, flag)

/-- `dequeueBuffer`. Without a free slot it gives up after three seconds. -/
def dequeueBuffer (p : Plane) (flag : Bool) (allocs : Nat) : Plane × Bool × Nat × Option Nat :=
  match p.found with
  | none => (p, flag, allocs, none)
  | some i =>
    let q := p.setState i .dequeueed
    let r := if 1 < p.mWidth ∧ 1 < p.mHeight then q.create i allocs else (q, allocs)
    let t := r.1.releaseFirst flag
    ({ t.1 with mDisplayBufferIndex := some i, held := p.initFlag }, t.2, r.2,
      (t.1.mSlots i).mIonBuffer)

/-- `queueBuffer`. A negative `mDisplayBufferIndex` is left out: nothing was dequeued then. -/
def queueBuffer (p : Plane) : Plane :=
  match p.mDisplayBufferIndex with
  | none => p
  | some i =>
    { p.setState i .queueed with
      mQueue := p.mQueue ++ [i], held := false
      queued := p.queued ++ (p.mSlots i).mIonBuffer.toList }

/-- `flush`: the slot on screen is freed. When the same slot comes again all others are. -/
def flush (p : Plane) : Plane × Option Nat :=
  match p.mQueue with
  | [] => (p, none)
  | i :: rest =>
    let p := { p with mQueue := rest }
    let q :=
      if p.mFlushingBufferIndex = some i then
        { p with mSlots := fun j => if j = i then p.mSlots j else ⟨.free, (p.mSlots j).mIonBuffer⟩ }
      else
        match p.mFlushingBufferIndex with
        | some j => p.setState j .free
        | none => p
    ({ q with mFlushingBufferIndex := some i, shown := (p.mSlots i).mIonBuffer },
      (p.mSlots i).mIonBuffer)

/-- `openBase`: every slot becomes free and gets a buffer if it has none. -/
def openBase (p : Plane) (allocs : Nat) : Plane × Nat :=
  (List.finRange planeBufferNumber).foldl (fun r i => (r.1.setState i .free).create i r.2)
    (p, allocs)

/-- `open` -/
def «open» (p : Plane) (allocs : Nat) : Plane × Nat :=
  ({ (p.openBase allocs).1 with initFlag := true, queued := [] }, (p.openBase allocs).2)

/-- `close` -/
def close (p : Plane) : Plane :=
  { p with
    mSlots := fun _ => ⟨.release, none⟩, mFlushingBufferIndex := none, initFlag := false
    held := false }

end Plane

inductive PlaneOp
  | open | close | dequeueBuffer | queueBuffer | flush
  deriving DecidableEq, Repr

/-- One call on one plane: the plane, `dequeueFirstFlag`, the allocations and the buffer returned. -/
def Plane.call (p : Plane) (flag : Bool) (allocs : Nat) :
    PlaneOp → Plane × Bool × Nat × Option Nat
  | .open => ((p.open allocs).1, flag, (p.open allocs).2, none)
  | .close => (p.close, flag, allocs, none)
  | .dequeueBuffer => p.dequeueBuffer flag allocs
  | .queueBuffer => (p.queueBuffer, flag, allocs, none)
  | .flush => (p.flush.1, flag, allocs, p.flush.2)

/-- A sequence of calls on the planes; the output is the buffers returned. -/
def planeCalls : Machine Planes (Nat × PlaneOp) (Option Nat) where
  step s c :=
    match s.planes[c.1]? with
    | none => (s, [])
    | some p =>
      let r := p.call s.dequeueFirstFlag s.allocs c.2
      (⟨s.planes.set c.1 r.1, r.2.1, r.2.2.1⟩, [r.2.2.2])

/-- Planes of the given sizes. -/
def planesInit (sizes : List (Nat × Nat)) : Planes :=
  ⟨sizes.map fun s => .new s.1 s.2, false, 0⟩

/-! ## What the calls do to the slots -/

namespace Plane

variable {p : Plane} {i j : Slot} {a : Nat}

def buffer (p : Plane) (i : Slot) : Option Nat := (p.mSlots i).mIonBuffer

theorem state_setState (p : Plane) (i : Slot) (st : BufferState) (j : Slot) :
    (p.setState i st).state j = if j = i then st else p.state j := by
  by_cases h : j = i
  · subst h
    simp [state, setState]
  · simp [state, setState, h]

theorem buffer_setState (p : Plane) (i : Slot) (st : BufferState) (j : Slot) :
    (p.setState i st).buffer j = p.buffer j := by
  by_cases h : j = i
  · subst h
    simp [buffer, setState]
  · simp [buffer, setState, h]

/-- Different slots have different buffers, all of them allocated. -/
structure BuffersOk (p : Plane) (allocs : Nat) : Prop where
  lt : ∀ i b, p.buffer i = some b → b < allocs
  inj : ∀ i j b, p.buffer i = some b → p.buffer j = some b → i = j

/-- From `p` to `q` slots may have got new buffers. -/
structure Grows (p : Plane) (a : Nat) (q : Plane) (a' : Nat) : Prop where
  allocs : a ≤ a'
  kept : ∀ i b, p.buffer i = some b → q.buffer i = some b
  fresh : ∀ i b, q.buffer i = some b → p.buffer i = some b ∨ a ≤ b
  ok : p.BuffersOk a → q.BuffersOk a'
  frame : q = { p with mSlots := q.mSlots }

namespace Grows

variable {q : Plane} {a' : Nat} (h : p.Grows a q a')

include h

theorem mQueue_eq : q.mQueue = p.mQueue := by rw [h.frame]

theorem mDisplayBufferIndex_eq : q.mDisplayBufferIndex = p.mDisplayBufferIndex := by rw [h.frame]

theorem mFlushingBufferIndex_eq : q.mFlushingBufferIndex = p.mFlushingBufferIndex := by
  rw [h.frame]

theorem held_eq : q.held = p.held := by rw [h.frame]

theorem shown_eq : q.shown = p.shown := by rw [h.frame]

theorem queued_eq : q.queued = p.queued := by rw [h.frame]

end Grows

theorem Grows.of_buffer {q : Plane} (h : ∀ i, q.buffer i = p.buffer i)
    (hf : q = { p with mSlots := q.mSlots }) : p.Grows a q a where
  allocs := Nat.le_refl a
  kept i _ hb := (h i).trans hb
  fresh i _ hb := Or.inl ((h i).symm.trans hb)
  ok hok := ⟨fun i b hb => hok.lt i b ((h i).symm.trans hb), fun i j b hi hj =>
    hok.inj i j b ((h i).symm.trans hi) ((h j).symm.trans hj)⟩
  frame := hf

theorem Grows.trans {q r : Plane} {a' a'' : Nat} (h : p.Grows a q a') (h' : q.Grows a' r a'') :
    p.Grows a r a'' where
  allocs := Nat.le_trans h.allocs h'.allocs
  kept i b hb := h'.kept i b (h.kept i b hb)
  fresh i b hb := by
    rcases h'.fresh i b hb with hq | hle
    · exact h.fresh i b hq
    · exact Or.inr (Nat.le_trans h.allocs hle)
  ok hok := h'.ok (h.ok hok)
  frame := by
    have hr := h'.frame
    rw [h.frame] at hr
    exact hr

theorem grows_setState (p : Plane) (i : Slot) (st : BufferState) (a : Nat) :
    p.Grows a (p.setState i st) a := .of_buffer (buffer_setState p i st) rfl

theorem state_create (p : Plane) (i : Slot) (a : Nat) (j : Slot) :
    (p.create i a).1.state j = p.state j := by
  unfold create
  split
  · by_cases h : j = i
    · subst h
      simp [state, setBuffer]
    · simp [state, setBuffer, h]
  · rfl

theorem buffer_create_of_ne (p : Plane) (a : Nat) (h : j ≠ i) :
    (p.create i a).1.buffer j = p.buffer j := by
  unfold create
  split
  · simp [buffer, setBuffer, h]
  · rfl

theorem grows_create (p : Plane) (i : Slot) (a : Nat) :
    p.Grows a (p.create i a).1 (p.create i a).2 := by
  unfold create
  split
  · rename_i hnone
    have hbuf : ∀ j, (p.setBuffer i (some a)).buffer j = if j = i then some a else p.buffer j := by
      intro j
      by_cases h : j = i
      · subst h
        simp [buffer, setBuffer]
      · simp [buffer, setBuffer, h]
    have hold : ∀ j b, (p.setBuffer i (some a)).buffer j = some b →
        (j = i ∧ b = a) ∨ (j ≠ i ∧ p.buffer j = some b) := by
      intro j b hb
      rw [hbuf] at hb
      by_cases h : j = i
      · rw [if_pos h] at hb
        exact Or.inl ⟨h, (Option.some.inj hb).symm⟩
      · rw [if_neg h] at hb
        exact Or.inr ⟨h, hb⟩
    refine ⟨Nat.le_succ a, fun j b hb => ?_, fun j b hb => ?_, fun hok => ⟨fun j b hb => ?_,
      fun j k b hj hk => ?_⟩, rfl⟩
    · have hne : j ≠ i := by
        rintro rfl
        cases hnone.symm.trans hb
      rw [hbuf, if_neg hne, hb]
    · rcases hold j b hb with ⟨-, rfl⟩ | ⟨-, hb⟩
      · exact Or.inr (Nat.le_refl _)
      · exact Or.inl hb
    · rcases hold j b hb with ⟨-, rfl⟩ | ⟨-, hb⟩
      · exact Nat.lt_succ_self _
      · exact Nat.lt_succ_of_lt (hok.lt j b hb)
    · -- a fresh buffer is in no other slot
      rcases hold j b hj with ⟨rfl, rfl⟩ | ⟨-, hj'⟩
      · rcases hold k b hk with ⟨rfl, -⟩ | ⟨-, hk'⟩
        · rfl
        · exact absurd (hok.lt k b hk') (Nat.lt_irrefl b)
      · rcases hold k b hk with ⟨rfl, rfl⟩ | ⟨-, hk'⟩
        · exact absurd (hok.lt j b hj') (Nat.lt_irrefl b)
        · exact hok.inj j k b hj' hk'
  · exact .of_buffer (fun _ => rfl) rfl

/-- **`openBase`** -/
theorem openBase_spec (p : Plane) (a : Nat) :
    p.Grows a (p.openBase a).1 (p.openBase a).2 ∧ ∀ j, (p.openBase a).1.state j = .free := by
  have hfold : ∀ (l : List Slot) (p : Plane) (a : Nat),
      let r := l.foldl (fun r i => (r.1.setState i .free).create i r.2) (p, a)
      p.Grows a r.1 r.2 ∧ ∀ j, r.1.state j = if j ∈ l then .free else p.state j := by
    intro l
    induction l with
    | nil => exact fun p a => ⟨.of_buffer (fun _ => rfl) rfl, fun j => by simp⟩
    | cons i l ih =>
      intro p a
      obtain ⟨hg, hs⟩ := ih ((p.setState i .free).create i a).1 ((p.setState i .free).create i a).2
      refine ⟨((grows_setState p i .free a).trans (grows_create _ i a)).trans hg, fun j => ?_⟩
      rw [List.foldl_cons, hs, state_create, state_setState]
      by_cases hj : j ∈ l
      · simp [hj]
      · simp [hj]
  obtain ⟨hg, hs⟩ := hfold (List.finRange planeBufferNumber) p a
  exact ⟨hg, fun j => (hs j).trans (if_pos (List.mem_finRange j))⟩

theorem found_free (h : p.found = some i) : p.state i = .free := by
  have := List.find?_some h
  simpa using this

/-- **`dequeueBuffer` with a free slot**: the slot is dequeued, unless it is the one that is
released. -/
theorem dequeueBuffer_spec (flag : Bool) (a : Nat) (h : p.found = some i) :
    ∃ q a', p.Grows a q a' ∧
      p.dequeueBuffer flag a = ({ q with mDisplayBufferIndex := some i, held := p.initFlag },
        flag || p.mDisplayBufferIndex.isSome, a', q.buffer i) ∧
      (∀ j, j ≠ i → q.buffer j = p.buffer j) ∧
      ∀ j, q.state j = if flag = false ∧ p.mDisplayBufferIndex = some j then .free
        else if j = i then .dequeueed else p.state j := by
  let r := if 1 < p.mWidth ∧ 1 < p.mHeight then (p.setState i .dequeueed).create i a
    else (p.setState i .dequeueed, a)
  have hr : p.Grows a r.1 r.2 ∧ (∀ j, j ≠ i → r.1.buffer j = p.buffer j) ∧
      ∀ j, r.1.state j = if j = i then .dequeueed else p.state j := by
    have hset := grows_setState p i .dequeueed a
    have hbuf := buffer_setState p i .dequeueed
    simp only [r]
    split
    · refine ⟨hset.trans (grows_create _ i a), fun j hj => ?_, fun j => ?_⟩
      · rw [buffer_create_of_ne _ a hj, hbuf]
      · rw [state_create, state_setState]
    · exact ⟨hset, fun j _ => hbuf j, state_setState p i .dequeueed⟩
  obtain ⟨hg, hb, hs⟩ := hr
  have hd : p.dequeueBuffer flag a = ({ (r.1.releaseFirst flag).1 with
      mDisplayBufferIndex := some i, held := p.initFlag }, (r.1.releaseFirst flag).2, r.2,
      (r.1.releaseFirst flag).1.buffer i) := by
    simp only [dequeueBuffer, h]
    rfl
  rw [hd]
  unfold releaseFirst
  rw [hg.mDisplayBufferIndex_eq]
  cases flag with
  | true => exact ⟨r.1, r.2, hg, rfl, hb, by simpa using hs⟩
  | false =>
    cases hp : p.mDisplayBufferIndex with
    | none => exact ⟨r.1, r.2, hg, rfl, hb, by simpa using hs⟩
    | some d =>
      refine ⟨r.1.setState d .free, r.2, hg.trans (grows_setState _ d .free _), rfl,
        fun j hj => (buffer_setState _ d .free j).trans (hb j hj), fun j => ?_⟩
      rw [state_setState, hs]
      by_cases hj : j = d
      · simp [hj]
      · simp [hj, Ne.symm hj]

/-- **`flush` of a slot that is not on screen**: the slot on screen becomes free. -/
theorem flush_spec {rest : List Slot} (hq : p.mQueue = i :: rest)
    (hne : p.mFlushingBufferIndex ≠ some i) :
    ∃ q, p.Grows a q a ∧
      p.flush = ({ q with mQueue := rest, mFlushingBufferIndex := some i, shown := p.buffer i },
        p.buffer i) ∧
      (∀ j, q.buffer j = p.buffer j) ∧
      ∀ j, q.state j = if p.mFlushingBufferIndex = some j then .free else p.state j := by
  unfold flush
  simp only [hq, if_neg hne]
  cases hf : p.mFlushingBufferIndex with
  | none => exact ⟨p, .of_buffer (fun _ => rfl) rfl, rfl, fun _ => rfl, fun j => by simp⟩
  | some k =>
    refine ⟨p.setState k .free, grows_setState p k .free a, rfl, buffer_setState p k .free,
      fun j => ?_⟩
    rw [state_setState]
    by_cases hj : j = k
    · simp [hj]
    · simp [hj, Ne.symm hj]

end Plane

end SprdHal.Hwc

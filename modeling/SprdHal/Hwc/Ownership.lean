import SprdHal.Hwc.Plane

/-!
# Who owns a slot

A slot is free, dequeued by the client, queued, or on screen, and never two of these
(`Plane.Owned`). `Plane.Safe` is the condition on a call that keeps it so, and it is exact: a call
that does not meet it leaves a plane that is not owned (`Plane.Inv.safe_of_owned`). So all planes are owned
throughout a sequence of calls if and only if all its calls are safe (`planes_owned`).
-/

namespace SprdHal.Hwc

open SprdHal.Lib

/-- No slot belongs to two owners. -/
structure Plane.Owned (p : Plane) : Prop where
  queue_state : ∀ i ∈ p.mQueue, p.state i = .queueed
  queue_nodup : p.mQueue.Nodup
  free : ∀ i, p.state i = .free → i ∉ p.mQueue ∧ p.mFlushingBufferIndex ≠ some i
  one : ∀ i j, p.state i = .dequeueed → p.state j = .dequeueed → i = j

/-- `queueBuffer` is called only for a buffer that was dequeued from the open plane and has not been
queued yet. -/
def Plane.QueuesHeld (p : Plane) : PlaneOp → Prop
  | .queueBuffer => p.held = true
  | _ => True

/-- `open` finds nothing queued and nothing on screen, `close` finds nothing queued, and a
`dequeueBuffer` that finds a free slot finds no other one dequeued, or, with `dequeueFirstFlag`
equal to 0, finds the slot dequeued before it neither queued nor on screen. -/
def Plane.Safe (p : Plane) (flag : Bool) : PlaneOp → Prop
  | .open => p.mQueue = [] ∧ p.mFlushingBufferIndex = none
  | .close => p.mQueue = []
  | .dequeueBuffer => p.found ≠ none →
      if flag then ∀ i, p.state i ≠ .dequeueed
      else ∀ d, p.mDisplayBufferIndex = some d → p.state d ≠ .queueed
  | .queueBuffer | .flush => True

instance (p : Plane) : DecidablePred p.QueuesHeld
  | .queueBuffer => inferInstanceAs (Decidable (p.held = true))
  | .open | .close | .dequeueBuffer | .flush => isTrue trivial

instance (p : Plane) (flag : Bool) : DecidablePred (p.Safe flag)
  | .open => inferInstanceAs (Decidable (p.mQueue = [] ∧ p.mFlushingBufferIndex = none))
  | .close => inferInstanceAs (Decidable (p.mQueue = []))
  | .dequeueBuffer => inferInstanceAs (Decidable (p.found ≠ none →
      if flag then ∀ i, p.state i ≠ .dequeueed
      else ∀ d, p.mDisplayBufferIndex = some d → p.state d ≠ .queueed))
  | .queueBuffer | .flush => isTrue trivial

/-- What holds of a plane between two calls. -/
structure Plane.Inv (p : Plane) (flag : Bool) (allocs : Nat) : Prop where
  owned : p.Owned
  flushing : ∀ i, p.mFlushingBufferIndex = some i → p.state i = .queueed ∧ i ∉ p.mQueue
  queueed : ∀ i, p.state i = .queueed → i ∈ p.mQueue ∨ p.mFlushingBufferIndex = some i
  held : p.held = true → ∃ d, p.mDisplayBufferIndex = some d ∧ p.state d ≠ .queueed
  first : flag = false → ∀ i, p.state i = .dequeueed → p.mDisplayBufferIndex = some i
  buffers : p.BuffersOk allocs
  shown_lt : ∀ b, p.shown = some b → b < allocs
  shown : ∀ i b, p.buffer i = some b → p.shown = some b → p.mFlushingBufferIndex = some i
  queued : ∀ i ∈ p.mQueue, ∀ b, p.buffer i = some b → b ∈ p.queued

namespace Plane.Inv

variable {p : Plane} {flag : Bool} {a : Nat}

/-- Calls on other planes. -/
theorem mono (h : p.Inv flag a) {flag' : Bool} {a' : Nat} (hf : flag' = false → flag = false)
    (ha : a ≤ a') : p.Inv flag' a' :=
  { h with
    first := fun hf' => h.first (hf hf')
    buffers := ⟨fun i b hb => Nat.lt_of_lt_of_le (h.buffers.lt i b hb) ha, h.buffers.inj⟩
    shown_lt := fun b hb => Nat.lt_of_lt_of_le (h.shown_lt b hb) ha }

/-- New buffers are not on screen. -/
theorem shown_of_grows (h : p.Inv flag a) {q : Plane} {a' : Nat} (hg : p.Grows a q a') {i : Slot}
    {b : Nat} (hb : q.buffer i = some b) (hs : p.shown = some b) :
    p.mFlushingBufferIndex = some i := by
  rcases hg.fresh i b hb with hold | hle
  · exact h.shown i b hold hs
  · exact absurd (h.shown_lt b hs) (Nat.not_lt.mpr hle)

theorem «open» (h : p.Inv flag a) (hq : p.mQueue = []) (hfl : p.mFlushingBufferIndex = none) :
    (p.open a).1.Inv flag (p.open a).2 := by
  obtain ⟨hg, hfree⟩ := p.openBase_spec a
  have hqueue : (p.open a).1.mQueue = [] := hg.mQueue_eq.trans hq
  have hflush : (p.open a).1.mFlushingBufferIndex = none := hg.mFlushingBufferIndex_eq.trans hfl
  have hshown : (p.open a).1.shown = p.shown := hg.shown_eq
  have hbuf : (p.open a).1.BuffersOk (p.open a).2 :=
    ⟨(hg.ok h.buffers).lt, (hg.ok h.buffers).inj⟩
  have hne : ∀ {i st}, st ≠ .free → (p.open a).1.state i ≠ st :=
    fun hst hs => hst (hs.symm.trans (hfree _))
  refine ⟨⟨?_, ?_, ?_, ?_⟩, ?_, ?_, ?_, ?_, hbuf, ?_, ?_, ?_⟩
  · intro i hi
    cases hqueue ▸ hi
  · exact hqueue ▸ List.nodup_nil
  · intro i _
    rw [hqueue, hflush]
    exact ⟨List.not_mem_nil, nofun⟩
  · exact fun i _ hi => absurd hi (hne nofun)
  · intro i hi
    cases hflush.symm.trans hi
  · exact fun i hi => absurd hi (hne nofun)
  · intro hh
    obtain ⟨d, hd, -⟩ := h.held (hg.held_eq.symm.trans hh)
    exact ⟨d, hg.mDisplayBufferIndex_eq.trans hd, hne nofun⟩
  · exact fun _ i hi => absurd hi (hne nofun)
  · intro b hb
    exact Nat.lt_of_lt_of_le (h.shown_lt b (hshown ▸ hb)) hg.allocs
  · intro i b hb hs
    cases hfl.symm.trans (h.shown_of_grows hg hb (hshown ▸ hs))
  · intro i hi
    cases hqueue ▸ hi

theorem close (h : p.Inv flag a) (hq : p.mQueue = []) : p.close.Inv flag a where
  owned := by
    refine ⟨fun i hi => ?_, hq ▸ List.nodup_nil, fun i hi => ?_, fun i j hi => ?_⟩
    · cases hq ▸ hi
    · cases hi
    · cases hi
  flushing i hi := by cases hi
  queueed i hi := by cases hi
  held hh := by cases hh
  first _ i hi := by cases hi
  buffers := ⟨fun i b hb => (by cases hb), fun i j b hb => (by cases hb)⟩
  shown_lt := h.shown_lt
  shown i b hb := by cases hb
  queued i hi := by cases hq ▸ hi

theorem queueBuffer (h : p.Inv flag a) (hh : p.held = true) : p.queueBuffer.Inv flag a := by
  obtain ⟨d, hd, hne⟩ := h.held hh
  have hmem : d ∉ p.mQueue := fun hm => hne (h.owned.queue_state d hm)
  have hfl : p.mFlushingBufferIndex ≠ some d := fun hf => hne (h.flushing d hf).1
  have hst : ∀ i, i ≠ d → (p.setState d .queueed).state i = p.state i := fun i hi => by
    rw [state_setState, if_neg hi]
  have hself : (p.setState d .queueed).state d = .queueed := by rw [state_setState, if_pos rfl]
  have hbuf := buffer_setState p d .queueed
  unfold Plane.queueBuffer
  simp only [hd]
  refine ⟨⟨?_, ?_, ?_, ?_⟩, ?_, ?_, nofun, ?_, ⟨?_, ?_⟩, h.shown_lt, ?_, ?_⟩
  · intro i hi
    by_cases heq : i = d
    · exact heq ▸ hself
    · rcases List.mem_append.mp hi with hi | hi
      · exact (hst i heq).trans (h.owned.queue_state i hi)
      · exact absurd (List.mem_singleton.mp hi) heq
  · refine List.nodup_append.mpr ⟨h.owned.queue_nodup, List.nodup_singleton d, ?_⟩
    rintro i hi _ hj rfl
    exact hmem (List.mem_singleton.mp hj ▸ hi)
  · intro i hi
    have heq : i ≠ d := by
      rintro rfl
      cases hself.symm.trans hi
    obtain ⟨h1, h2⟩ := h.owned.free i ((hst i heq).symm.trans hi)
    refine ⟨fun hm => ?_, h2⟩
    rcases List.mem_append.mp hm with hm | hm
    · exact h1 hm
    · exact heq (List.mem_singleton.mp hm)
  · intro i j hi hj
    have hi' : i ≠ d := by rintro rfl; cases hself.symm.trans hi
    have hj' : j ≠ d := by rintro rfl; cases hself.symm.trans hj
    exact h.owned.one i j ((hst i hi').symm.trans hi) ((hst j hj').symm.trans hj)
  · intro i hi
    have heq : i ≠ d := fun e => hfl (e ▸ hi)
    obtain ⟨h1, h2⟩ := h.flushing i hi
    refine ⟨(hst i heq).trans h1, fun hm => ?_⟩
    rcases List.mem_append.mp hm with hm | hm
    · exact h2 hm
    · exact heq (List.mem_singleton.mp hm)
  · intro i hi
    by_cases heq : i = d
    · exact Or.inl (List.mem_append.mpr (Or.inr (List.mem_singleton.mpr heq)))
    · rcases h.queueed i ((hst i heq).symm.trans hi) with hm | hm
      · exact Or.inl (List.mem_append.mpr (Or.inl hm))
      · exact Or.inr hm
  · intro hf i hi
    have heq : i ≠ d := by rintro rfl; cases hself.symm.trans hi
    exact h.first hf i ((hst i heq).symm.trans hi)
  · exact fun i b hb => h.buffers.lt i b ((hbuf i).symm.trans hb)
  · exact fun i j b hi hj => h.buffers.inj i j b ((hbuf i).symm.trans hi) ((hbuf j).symm.trans hj)
  · exact fun i b hb hs => h.shown i b ((hbuf i).symm.trans hb) hs
  · intro i hi b hb
    have hb' : p.buffer i = some b := (hbuf i).symm.trans hb
    rcases List.mem_append.mp hi with hi | hi
    · exact List.mem_append.mpr (Or.inl (h.queued i hi b hb'))
    · obtain rfl := List.mem_singleton.mp hi
      exact List.mem_append.mpr (Or.inr (Option.mem_toList.mpr hb'))

/-- The branch for a slot that is flushed twice is never taken. -/
theorem flush (h : p.Inv flag a) : p.flush.1.Inv flag a := by
  cases hq : p.mQueue with
  | nil =>
    unfold Plane.flush
    rw [hq]
    exact h
  | cons i rest =>
    have hself : i ∈ p.mQueue := hq ▸ List.mem_cons_self
    have hnd : i ∉ rest ∧ rest.Nodup := List.nodup_cons.mp (hq ▸ h.owned.queue_nodup)
    have hrest : ∀ {j}, j ∈ rest → j ∈ p.mQueue := fun hj => hq ▸ List.mem_cons_of_mem i hj
    have hne : p.mFlushingBufferIndex ≠ some i := fun hf => (h.flushing i hf).2 hself
    obtain ⟨q, hg, heq, hbuf, hst⟩ := flush_spec (a := a) hq hne
    have hkeep : ∀ {j}, p.mFlushingBufferIndex ≠ some j → q.state j = p.state j :=
      fun hj => (hst _).trans (if_neg hj)
    -- only the slot on screen changes its state, and it becomes free
    have hback : ∀ {j st}, q.state j = st → st ≠ .free →
        p.mFlushingBufferIndex ≠ some j ∧ p.state j = st := by
      intro j st hj hfree
      rw [hst] at hj
      split at hj
      · exact absurd hj.symm hfree
      · exact ⟨‹_›, hj⟩
    have hqueue : ∀ {j}, j ∈ p.mQueue → q.state j = .queueed := fun hj =>
      (hkeep fun hf => (h.flushing _ hf).2 hj).trans (h.owned.queue_state _ hj)
    rw [heq]
    refine ⟨⟨fun j hj => hqueue (hrest hj), hnd.2, ?_, ?_⟩, ?_, ?_, ?_, ?_,
      ⟨(hg.ok h.buffers).lt, (hg.ok h.buffers).inj⟩, ?_, ?_, ?_⟩
    · intro j hj
      have hmem : j ∉ p.mQueue := fun hm => (by cases hj.symm.trans (hqueue hm))
      refine ⟨fun hm => hmem (hrest hm), fun hf => hmem (Option.some.inj hf ▸ hself)⟩
    · exact fun j k hj hk => h.owned.one j k (hback hj nofun).2 (hback hk nofun).2
    · intro j hj
      obtain rfl := Option.some.inj hj
      exact ⟨hqueue hself, hnd.1⟩
    · intro j hj
      obtain ⟨hf, hs⟩ := hback hj nofun
      have hmem := (h.queueed j hs).resolve_right hf
      rw [hq] at hmem
      rcases List.mem_cons.mp hmem with rfl | hm
      · exact Or.inr rfl
      · exact Or.inl hm
    · intro hh
      obtain ⟨d, hd, hs⟩ := h.held (hg.held_eq.symm.trans hh)
      exact ⟨d, hg.mDisplayBufferIndex_eq.trans hd, fun hq' => hs (hback hq' nofun).2⟩
    · intro hf j hj
      exact hg.mDisplayBufferIndex_eq.trans (h.first hf j (hback hj nofun).2)
    · exact h.buffers.lt i
    · intro j b hb hs
      exact congrArg some (h.buffers.inj i j b hs ((hbuf j).symm.trans hb))
    · intro j hj b hb
      have hm := h.queued j (hrest hj) b ((hbuf j).symm.trans hb)
      exact hg.queued_eq ▸ hm

/-- What a safe `dequeueBuffer` does to the states. -/
theorem dequeue_states (h : p.Inv flag a) {i : Slot} {q : Plane} (hi : p.state i = .free)
    (hs : p.found ≠ none → if flag then ∀ i, p.state i ≠ .dequeueed
      else ∀ d, p.mDisplayBufferIndex = some d → p.state d ≠ .queueed) (hfound : p.found = some i)
    (hst : ∀ j, q.state j = if flag = false ∧ p.mDisplayBufferIndex = some j then .free
      else if j = i then .dequeueed else p.state j) :
    (∀ j, q.state j = .queueed ↔ p.state j = .queueed) ∧ ∀ j, q.state j = .dequeueed → j = i := by
  have hs := hs (hfound ▸ nofun)
  refine ⟨fun j => ⟨fun hj => ?_, fun hj => ?_⟩, fun j hj => ?_⟩
  · rw [hst] at hj
    split at hj
    · cases hj
    · split at hj
      · cases hj
      · exact hj
  · have hne : j ≠ i := fun e => (by cases hi.symm.trans (e ▸ hj))
    have hkeep : ¬(flag = false ∧ p.mDisplayBufferIndex = some j) := by
      rintro ⟨rfl, hd⟩
      exact hs j hd hj
    rw [hst, if_neg hkeep, if_neg hne, hj]
  · rw [hst] at hj
    split at hj
    · cases hj
    · rename_i hkeep
      split at hj
      · assumption
      · cases flag with
        | true => exact absurd hj (hs j)
        | false => exact absurd ⟨rfl, h.first rfl j hj⟩ hkeep

theorem dequeueBuffer (h : p.Inv flag a) (hs : p.Safe flag .dequeueBuffer) :
    (p.dequeueBuffer flag a).1.Inv (p.dequeueBuffer flag a).2.1 (p.dequeueBuffer flag a).2.2.1 := by
  cases hfound : p.found with
  | none =>
    unfold Plane.dequeueBuffer
    rw [hfound]
    exact h
  | some i =>
    have hfree := found_free hfound
    obtain ⟨q, a', hg, heq, hbuf, hst⟩ := dequeueBuffer_spec flag a hfound
    obtain ⟨hqu, hde⟩ := h.dequeue_states hfree hs hfound hst
    have hqueue := hg.mQueue_eq
    have hflush := hg.mFlushingBufferIndex_eq
    have hne : ∀ {j}, p.state j = .queueed → j ≠ i :=
      fun hj e => (by cases hfree.symm.trans (e ▸ hj))
    rw [heq]
    refine ⟨⟨?_, hqueue ▸ h.owned.queue_nodup, ?_, ?_⟩, ?_, ?_, ?_, ?_,
      ⟨(hg.ok h.buffers).lt, (hg.ok h.buffers).inj⟩, ?_, ?_, ?_⟩
    · intro j hj
      exact (hqu j).mpr (h.owned.queue_state j (hqueue ▸ hj))
    · intro j hj
      have hnq : p.state j ≠ .queueed := fun hp => (by cases hj.symm.trans ((hqu j).mpr hp))
      exact ⟨fun hm => hnq (h.owned.queue_state j (hqueue ▸ hm)),
        fun hf => hnq (h.flushing j (hflush.symm.trans hf)).1⟩
    · exact fun j k hj hk => (hde j hj).trans (hde k hk).symm
    · intro j hj
      obtain ⟨h1, h2⟩ := h.flushing j (hflush.symm.trans hj)
      exact ⟨(hqu j).mpr h1, fun hm => h2 (hqueue ▸ hm)⟩
    · intro j hj
      rcases h.queueed j ((hqu j).mp hj) with hm | hf
      · exact Or.inl (hqueue ▸ hm)
      · exact Or.inr (hflush.trans hf)
    · exact fun _ => ⟨i, rfl, fun hq => hne ((hqu i).mp hq) rfl⟩
    · exact fun _ j hj => congrArg some (hde j hj).symm
    · exact fun b hb => Nat.lt_of_lt_of_le (h.shown_lt b (hg.shown_eq ▸ hb)) hg.allocs
    · exact fun j b hb hs => hflush.trans (h.shown_of_grows hg hb (hg.shown_eq ▸ hs))
    · intro j hj b hb
      have hmem : j ∈ p.mQueue := hqueue ▸ hj
      have hold := (hbuf j (hne (h.owned.queue_state j hmem))).symm.trans hb
      exact hg.queued_eq ▸ h.queued j hmem b hold

/-- **Safe calls keep the invariant.** -/
theorem call (h : p.Inv flag a) {op : PlaneOp} (hq : p.QueuesHeld op) (hs : p.Safe flag op) :
    (p.call flag a op).1.Inv (p.call flag a op).2.1 (p.call flag a op).2.2.1 := by
  cases op with
  | «open» => exact h.open hs.1 hs.2
  | close => exact h.close hs
  | dequeueBuffer => exact h.dequeueBuffer hs
  | queueBuffer => exact h.queueBuffer hq
  | flush => exact h.flush

/-- **And only safe calls do.** -/
theorem safe_of_owned (h : p.Inv flag a) {op : PlaneOp} (ho : (p.call flag a op).1.Owned) :
    p.Safe flag op := by
  cases op with
  | «open» =>
    obtain ⟨hg, hfree⟩ := p.openBase_spec a
    refine ⟨List.eq_nil_iff_forall_not_mem.mpr fun i hi => ?_, Option.eq_none_iff_forall_ne_some.mpr
      fun i hi => ?_⟩
    · exact (ho.free i (hfree i)).1 (hg.mQueue_eq.symm ▸ hi)
    · exact (ho.free i (hfree i)).2 (hg.mFlushingBufferIndex_eq.trans hi)
  | close => exact List.eq_nil_iff_forall_not_mem.mpr fun i hi => nomatch ho.queue_state i hi
  | dequeueBuffer =>
    intro hfound
    obtain ⟨i, hi⟩ := Option.ne_none_iff_exists'.mp hfound
    have hfree := found_free hi
    obtain ⟨q, a', hg, heq, -, hst⟩ := dequeueBuffer_spec flag a hi
    unfold Plane.call at ho
    rw [heq] at ho
    cases flag with
    | true =>
      -- two dequeued slots
      intro j hj
      have hji : j ≠ i := fun e => (by cases hfree.symm.trans (e ▸ hj))
      have hqi : q.state i = .dequeueed := (hst i).trans (by simp)
      have hqj : q.state j = .dequeueed := (hst j).trans (by simp [hji, hj])
      exact hji (ho.one j i hqj hqi)
    | false =>
      -- a slot that is queued or on screen has been freed
      intro d hd hq
      have hqd : q.state d = .free := (hst d).trans (if_pos ⟨rfl, hd⟩)
      rcases h.queueed d hq with hm | hf
      · exact (ho.free d hqd).1 (hg.mQueue_eq.symm ▸ hm)
      · exact (ho.free d hqd).2 (hg.mFlushingBufferIndex_eq.trans hf)
  | queueBuffer => trivial
  | flush => trivial

/-- `dequeueBuffer` does not return the buffer on screen. -/
theorem dequeueBuffer_ne_shown (h : p.Inv flag a) {b : Nat}
    (hb : (p.dequeueBuffer flag a).2.2.2 = some b) : p.shown ≠ some b := by
  intro hs
  cases hfound : p.found with
  | none =>
    unfold Plane.dequeueBuffer at hb
    rw [hfound] at hb
    cases hb
  | some i =>
    obtain ⟨q, a', hg, heq, -, -⟩ := dequeueBuffer_spec flag a hfound
    rw [heq] at hb
    exact (h.owned.free i (found_free hfound)).2 (h.shown_of_grows hg hb hs)

/-- `flush` returns an allocated buffer that was queued. -/
theorem flush_queued (h : p.Inv flag a) {b : Nat} (hb : p.flush.2 = some b) :
    (∃ i, p.buffer i = some b) ∧ b < a ∧ b ∈ p.queued := by
  unfold Plane.flush at hb
  split at hb
  · cases hb
  · rename_i i rest hq
    have hi : p.buffer i = some b := hb
    exact ⟨⟨i, hi⟩, h.buffers.lt i b hi, h.queued i (hq ▸ List.mem_cons_self) b hi⟩

end Plane.Inv

theorem Plane.inv_new (width height : Nat) (flag : Bool) (a : Nat) :
    (Plane.new width height).Inv flag a where
  owned := ⟨nofun, List.nodup_nil, fun _ _ => ⟨List.not_mem_nil, nofun⟩, nofun⟩
  flushing := nofun
  queueed := nofun
  held := nofun
  first := nofun
  buffers := ⟨nofun, nofun⟩
  shown_lt := nofun
  shown := nofun
  queued := nofun

/-- `dequeueFirstFlag` is never cleared, and buffers are never handed out twice. -/
theorem Plane.call_mono (p : Plane) (flag : Bool) (a : Nat) (op : PlaneOp) :
    ((p.call flag a op).2.1 = false → flag = false) ∧ a ≤ (p.call flag a op).2.2.1 := by
  cases op with
  | «open» => exact ⟨id, (p.openBase_spec a).1.allocs⟩
  | dequeueBuffer =>
    unfold Plane.call
    cases hfound : p.found with
    | none =>
      unfold Plane.dequeueBuffer
      rw [hfound]
      exact ⟨id, Nat.le_refl a⟩
    | some i =>
      obtain ⟨q, a', hg, heq, -⟩ := dequeueBuffer_spec flag a hfound
      rw [heq]
      exact ⟨fun h => (Bool.or_eq_false_iff.mp h).1, hg.allocs⟩
  | close | queueBuffer | flush => exact ⟨id, Nat.le_refl a⟩

namespace Planes

/-- A condition on the plane that is called. -/
def Callee (s : Planes) (i : Nat) (P : Plane → Prop) : Prop := ∀ p ∈ s.planes[i]?, P p

instance (s : Planes) (i : Nat) (P : Plane → Prop) [DecidablePred P] : Decidable (s.Callee i P) :=
  inferInstanceAs (Decidable (∀ p ∈ s.planes[i]?, P p))

def QueuesHeld (s : Planes) (c : Nat × PlaneOp) : Prop := s.Callee c.1 (·.QueuesHeld c.2)

def Safe (s : Planes) (c : Nat × PlaneOp) : Prop := s.Callee c.1 (·.Safe s.dequeueFirstFlag c.2)

instance (s : Planes) (c : Nat × PlaneOp) : Decidable (s.QueuesHeld c) :=
  inferInstanceAs (Decidable (s.Callee c.1 (·.QueuesHeld c.2)))

instance (s : Planes) (c : Nat × PlaneOp) : Decidable (s.Safe c) :=
  inferInstanceAs (Decidable (s.Callee c.1 (·.Safe s.dequeueFirstFlag c.2)))

/-- What a call must do: after it every plane is owned, a `dequeueBuffer` does not return the buffer
that the last `flush` put on screen, and a buffer that `flush` returns is allocated and was queued
after the last `open`. -/
structure Keeps (s : Planes) (c : Nat × PlaneOp) : Prop where
  owned : ∀ q ∈ (planeCalls.step s c).1.planes, q.Owned
  dequeue : c.2 = .dequeueBuffer → s.Callee c.1 fun p =>
    ∀ b, (p.dequeueBuffer s.dequeueFirstFlag s.allocs).2.2.2 = some b → p.shown ≠ some b
  flush : c.2 = .flush → s.Callee c.1 fun p =>
    ∀ b, p.flush.2 = some b → (∃ i, p.buffer i = some b) ∧ b < s.allocs ∧ b ∈ p.queued

def Inv (s : Planes) : Prop := ∀ p ∈ s.planes, p.Inv s.dequeueFirstFlag s.allocs

theorem inv_init (sizes : List (Nat × Nat)) : (planesInit sizes).Inv := by
  intro p hp
  obtain ⟨size, -, rfl⟩ := List.mem_map.mp hp
  exact Plane.inv_new _ _ _ _

variable {s : Planes} {c : Nat × PlaneOp}

theorem step_none (h : s.planes[c.1]? = none) : planeCalls.step s c = (s, []) := by
  simp only [planeCalls, h]

theorem step_some {p : Plane} (h : s.planes[c.1]? = some p) :
    (planeCalls.step s c).1 = ⟨s.planes.set c.1 (p.call s.dequeueFirstFlag s.allocs c.2).1,
      (p.call s.dequeueFirstFlag s.allocs c.2).2.1,
      (p.call s.dequeueFirstFlag s.allocs c.2).2.2.1⟩ := by
  simp only [planeCalls, h]

theorem Inv.step (h : s.Inv) (hq : s.QueuesHeld c) (hs : s.Safe c) : (planeCalls.step s c).1.Inv := by
  cases hp : s.planes[c.1]? with
  | none => rwa [step_none hp]
  | some p =>
    obtain ⟨hf, ha⟩ := p.call_mono s.dequeueFirstFlag s.allocs c.2
    rw [step_some hp]
    intro q hmem
    rcases List.mem_or_eq_of_mem_set hmem with hold | rfl
    · exact (h q hold).mono hf ha
    · exact (h p (List.mem_of_getElem? hp)).call (hq p hp) (hs p hp)

/-- **One call does what it must if and only if it is safe.** -/
theorem Inv.keeps_iff (h : s.Inv) (hq : s.QueuesHeld c) : s.Keeps c ↔ s.Safe c := by
  constructor
  · intro hk p hp
    refine (h p (List.mem_of_getElem? hp)).safe_of_owned (hk.owned _ ?_)
    rw [step_some hp]
    exact List.mem_set (List.getElem?_eq_some_iff.mp hp).1 _
  · intro hs
    exact ⟨fun q hmem => (h.step hq hs q hmem).owned,
      fun _ p hp _ => (h p (List.mem_of_getElem? hp)).dequeueBuffer_ne_shown,
      fun _ p hp _ => (h p (List.mem_of_getElem? hp)).flush_queued⟩

end Planes

/-- **Ownership of the plane buffers**: in every sequence of calls on planes of any sizes, where
`queueBuffer` is called only for buffers that are held, every call does what it must if and only if
every call is safe. -/
theorem planes_owned (sizes : List (Nat × Nat)) (calls : List (Nat × PlaneOp))
    (hq : planeCalls.Admits Planes.QueuesHeld (planesInit sizes) calls) :
    planeCalls.Admits Planes.Keeps (planesInit sizes) calls ↔
      planeCalls.Admits Planes.Safe (planesInit sizes) calls := by
  have hall : ∀ (calls : List (Nat × PlaneOp)) (s : Planes), s.Inv →
      planeCalls.Admits Planes.QueuesHeld s calls →
      (planeCalls.Admits Planes.Keeps s calls ↔ planeCalls.Admits Planes.Safe s calls) := by
    intro calls
    induction calls with
    | nil => exact fun _ _ _ => Iff.rfl
    | cons c calls ih =>
      intro s h hq
      have hone := h.keeps_iff hq.1
      constructor
      · intro hk
        have hs := hone.mp hk.1
        exact ⟨hs, (ih _ (h.step hq.1 hs) hq.2).mp hk.2⟩
      · intro hs
        exact ⟨hone.mpr hs.1, (ih _ (h.step hq.1 hs.1) hq.2).mpr hs.2⟩
  exact hall calls _ (Planes.inv_init sizes) hq

/-- The calls as the workaround expects them: a buffer that nobody uses is dequeued first. -/
def firstUnused : List (Nat × PlaneOp) :=
  [(0, .open), (0, .dequeueBuffer), (0, .dequeueBuffer), (0, .queueBuffer), (0, .flush),
    (0, .dequeueBuffer)]

theorem firstUnused_owned : planeCalls.Admits Planes.Keeps (planesInit [(4, 4)]) firstUnused :=
  (planes_owned [(4, 4)] firstUnused (by decide)).mpr (by decide)

/-- A buffer that is used, queued and still waits when the next one is dequeued. -/
def firstUsed : List (Nat × PlaneOp) :=
  [(0, .open), (0, .dequeueBuffer), (0, .queueBuffer), (0, .dequeueBuffer)]

/-- The queued slot becomes free. -/
theorem firstUsed_freed : planeCalls.Admits Planes.QueuesHeld (planesInit [(4, 4)]) firstUsed ∧
    ¬planeCalls.Admits Planes.Keeps (planesInit [(4, 4)]) firstUsed := by
  refine ⟨by decide, ?_⟩
  rintro ⟨-, -, -, hk, -⟩
  have hqueue := (hk.owned _ List.mem_cons_self).queue_state ⟨0, Nat.two_pos⟩ List.mem_cons_self
  exact absurd hqueue (by decide)

end SprdHal.Hwc

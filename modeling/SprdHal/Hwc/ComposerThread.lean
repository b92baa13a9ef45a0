import SprdHal.Lib.Machine

/-!
# The thread of the overlay composer (`OverlayComposer.cpp`, `SyncThread.cpp`)

`commit` passes a layer list to the composer thread and waits on `doneSem` until it is composed, then
has the thread display it and waits on `sync_sem`, for a second at most, until the native window has
queued the buffer. A frame that is late is waited for with the next one: what its post leaves in
`sync_sem` is drained before the next frame is displayed.

In every interleaving `mList` does not change while the thread reads it, and a wait that succeeds has
seen its own list on the screen (`composer_run`). But the thread initialises the semaphores itself,
after EGL: a list that is passed to it before is lost, and `commit` hangs on `doneSem` for ever. It
hangs in no other way (`composer_returns_iff`).
-/

namespace SprdHal.Hwc

open SprdHal.Lib

/-- Where `commit` is in `onComposer` and `onDisplay`. -/
inductive CommitPc
  | idle
  /-- behind `mList = l` -/
  | listed
  /-- at `sem_wait(&doneSem)` -/
  | waitDone
  /-- in `exhaustAllSem` -/
  | draining
  /-- before `sem_post(&displaySem)` -/
  | drained
  /-- in `semWaitTimedOut` -/
  | waitSync
  deriving DecidableEq, Repr

/-- Where the thread is in `readyToRun` and `threadLoop`. -/
inductive ComposerPc
  /-- before the semaphores are initialised -/
  | starting
  | waitCmd
  /-- in `composerHWLayers` -/
  | composing
  /-- before `sem_post(&doneSem)` -/
  | composed
  | waitDisplay
  /-- in `swapBuffers`, before `queueBuffer` posts -/
  | swapping
  /-- behind it -/
  | swapped
  deriving DecidableEq, Repr

/-- The two threads, the semaphores, and the numbers of the layer list passed last, of the one
composed last and of the one on the screen. -/
structure Composer where
  commit : CommitPc
  thread : ComposerPc
  cmdSem : Nat
  doneSem : Nat
  displaySem : Nat
  syncSem : Nat
  mList : Nat
  drawn : Nat
  onScreen : Nat
  deriving DecidableEq

/-- A semaphore that is not initialised yet holds nothing. -/
def Composer.init : Composer := ⟨.idle, .starting, 0, 0, 0, 0, 0, 0, 0⟩

inductive ComposerAct
  /-- `mList = l` -/
  | commitList
  /-- `sem_post(&cmdSem)` -/
  | commitCmd
  /-- `sem_wait(&doneSem)` returns -/
  | commitDone
  /-- `sem_trywait(&sync_sem)` -/
  | commitDrain
  /-- `sem_post(&displaySem)` -/
  | commitDisplay
  /-- `sem_timedwait` succeeds -/
  | commitSync
  /-- `sem_timedwait` fails -/
  | commitTimeout
  /-- `sem_init` and `InitSem` -/
  | threadReady
  /-- `sem_wait(&cmdSem)` returns -/
  | threadCmd
  /-- `composerHWLayers` -/
  | threadCompose
  /-- `sem_post(&doneSem)` -/
  | threadDone
  /-- `sem_wait(&displaySem)` returns -/
  | threadDisplay
  /-- `eglSwapBuffers`, which queues the buffer unless it fails -/
  | threadSwap (ok : Bool)
  /-- the end of `threadLoop` -/
  | threadLoop
  deriving DecidableEq, Repr

/-- A wait that succeeded: the list that was passed and the list on the screen. -/
structure Synced where
  list : Nat
  onScreen : Nat
  deriving DecidableEq

namespace Composer

/-- A step that its thread is not ready for changes nothing. -/
def act (s : Composer) : ComposerAct → Composer
  | .commitList => if s.commit = .idle then { s with commit := .listed, mList := s.mList + 1 } else s
  | .commitCmd =>
    if s.commit = .listed then { s with commit := .waitDone, cmdSem := s.cmdSem + 1 } else s
  | .commitDone =>
    if s.commit = .waitDone ∧ 0 < s.doneSem then
      { s with commit := .draining, doneSem := s.doneSem - 1 }
    else s
  | .commitDrain =>
    if s.commit = .draining then
      if 0 < s.syncSem then { s with syncSem := s.syncSem - 1 } else { s with commit := .drained }
    else s
  | .commitDisplay =>
    if s.commit = .drained then { s with commit := .waitSync, displaySem := s.displaySem + 1 } else s
  | .commitSync =>
    if s.commit = .waitSync ∧ 0 < s.syncSem then
      { s with commit := .idle, syncSem := s.syncSem - 1 }
    else s
  | .commitTimeout => if s.commit = .waitSync then { s with commit := .idle } else s
  | .threadReady =>
    if s.thread = .starting then
      { s with thread := .waitCmd, cmdSem := 0, doneSem := 0, displaySem := 0, syncSem := 0 }
    else s
  | .threadCmd =>
    if s.thread = .waitCmd ∧ 0 < s.cmdSem then
      { s with thread := .composing, cmdSem := s.cmdSem - 1 }
    else s
  | .threadCompose =>
    if s.thread = .composing then { s with thread := .composed, drawn := s.mList } else s
  | .threadDone =>
    if s.thread = .composed then { s with thread := .waitDisplay, doneSem := s.doneSem + 1 } else s
  | .threadDisplay =>
    if s.thread = .waitDisplay ∧ 0 < s.displaySem then
      { s with thread := .swapping, displaySem := s.displaySem - 1 }
    else s
  | .threadSwap ok =>
    if s.thread = .swapping then
      if ok then { s with thread := .swapped, onScreen := s.drawn, syncSem := s.syncSem + 1 }
      else { s with thread := .swapped }
    else s
  | .threadLoop => if s.thread = .swapped then { s with thread := .waitCmd } else s

/-- The waits that succeed. -/
def synced (s : Composer) : ComposerAct → List Synced
  | .commitSync =>
    if s.commit = .waitSync ∧ 0 < s.syncSem then [⟨s.mList, s.onScreen⟩] else []
  | _ => []

end Composer

def composer : Machine Composer ComposerAct Synced where
  step s a := (s.act a, s.synced a)

/-! ## The course of a frame -/

/-- What is in progress at once. -/
inductive ComposerCourse (s : Composer) : Prop
  /-- the thread is not ready -/
  | early (hm : s.commit = .idle ∨ s.commit = .listed ∨ s.commit = .waitDone)
      (ht : s.thread = .starting) (hd : s.doneSem = 0)
  /-- the list has been lost -/
  | hung (hm : s.commit = .waitDone) (ht : s.thread = .waitCmd) (hc : s.cmdSem = 0)
      (hd : s.doneSem = 0)
  | rest (hm : s.commit = .idle ∨ s.commit = .listed) (ht : s.thread = .waitCmd) (hc : s.cmdSem = 0)
      (hd : s.doneSem = 0) (hp : s.displaySem = 0) (hs : s.syncSem ≤ 1)
  /-- the frame before has not been waited for -/
  | late (hm : s.commit = .idle ∧ s.cmdSem = 0 ∨ s.commit = .listed ∧ s.cmdSem = 0 ∨
        s.commit = .waitDone ∧ s.cmdSem = 1)
      (ht : s.thread = .waitDisplay ∧ s.displaySem = 1 ∧ s.syncSem = 0 ∨
        s.thread = .swapping ∧ s.displaySem = 0 ∧ s.syncSem = 0 ∨
        s.thread = .swapped ∧ s.displaySem = 0 ∧ s.syncSem ≤ 1)
      (hd : s.doneSem = 0)
  | asked (hm : s.commit = .waitDone) (ht : s.thread = .waitCmd) (hc : s.cmdSem = 1)
      (hd : s.doneSem = 0) (hp : s.displaySem = 0) (hs : s.syncSem ≤ 1)
  | composing (hm : s.commit = .waitDone)
      (ht : s.thread = .composing ∨ s.thread = .composed ∧ s.drawn = s.mList) (hc : s.cmdSem = 0)
      (hd : s.doneSem = 0) (hp : s.displaySem = 0) (hs : s.syncSem ≤ 1)
  | composed (hm : s.commit = .waitDone ∧ s.doneSem = 1 ∨ s.commit = .draining ∧ s.doneSem = 0)
      (ht : s.thread = .waitDisplay) (hc : s.cmdSem = 0) (hp : s.displaySem = 0) (hs : s.syncSem ≤ 1)
      (hl : s.drawn = s.mList)
  | drained (hm : s.commit = .drained) (ht : s.thread = .waitDisplay) (hc : s.cmdSem = 0)
      (hd : s.doneSem = 0) (hp : s.displaySem = 0) (hs : s.syncSem = 0) (hl : s.drawn = s.mList)
  | shown (hm : s.commit = .waitSync)
      (ht : s.thread = .waitDisplay ∧ s.displaySem = 1 ∧ s.syncSem = 0 ∨
        s.thread = .swapping ∧ s.displaySem = 0 ∧ s.syncSem = 0 ∨
        (s.thread = .swapped ∨ s.thread = .waitCmd) ∧ s.displaySem = 0 ∧
          (s.syncSem = 0 ∨ s.syncSem = 1 ∧ s.onScreen = s.mList))
      (hc : s.cmdSem = 0) (hd : s.doneSem = 0) (hl : s.drawn = s.mList)

namespace ComposerCourse

variable {s : Composer}

theorem init : ComposerCourse .init := .early (.inl rfl) rfl rfl

theorem commitList (h : ComposerCourse s) : ComposerCourse (s.act .commitList) := by
  by_cases hpc : s.commit = .idle
  · rw [Composer.act, if_pos hpc]
    cases h with
    | early hm ht hd => exact .early (.inr (.inl rfl)) ht hd
    | rest hm ht hc hd hp hs => exact .rest (.inr rfl) ht hc hd hp hs
    | late hm ht hd => exact .late (by grind) ht hd
    | _ => grind
  · rwa [Composer.act, if_neg hpc]

theorem commitCmd (h : ComposerCourse s) : ComposerCourse (s.act .commitCmd) := by
  by_cases hpc : s.commit = .listed
  · rw [Composer.act, if_pos hpc]
    cases h with
    | early hm ht hd => exact .early (.inr (.inr rfl)) ht hd
    | rest hm ht hc hd hp hs => exact .asked rfl ht (by simp [hc]) hd hp hs
    | late hm ht hd => exact .late (by grind) ht hd
    | _ => grind
  · rwa [Composer.act, if_neg hpc]

theorem commitDone (h : ComposerCourse s) : ComposerCourse (s.act .commitDone) := by
  by_cases hpc : s.commit = .waitDone ∧ 0 < s.doneSem
  · rw [Composer.act, if_pos hpc]
    cases h with
    | composed hm ht hc hp hs hl => exact .composed (by grind) ht hc hp hs hl
    | _ => grind
  · rwa [Composer.act, if_neg hpc]

/-- Nothing is left in `sync_sem` when the frame is displayed. -/
theorem commitDrain (h : ComposerCourse s) : ComposerCourse (s.act .commitDrain) := by
  by_cases hpc : s.commit = .draining
  · rw [Composer.act, if_pos hpc]
    cases h with
    | composed hm ht hc hp hs hl =>
      split
      · exact .composed (by grind) ht hc hp (Nat.le_trans (Nat.sub_le ..) hs) hl
      · exact .drained rfl ht hc (by grind) hp (by grind) hl
    | _ => grind
  · rwa [Composer.act, if_neg hpc]

theorem commitDisplay (h : ComposerCourse s) : ComposerCourse (s.act .commitDisplay) := by
  by_cases hpc : s.commit = .drained
  · rw [Composer.act, if_pos hpc]
    cases h with
    | drained hm ht hc hd hp hs hl => exact .shown rfl (.inl ⟨ht, by simp [hp], hs⟩) hc hd hl
    | _ => grind
  · rwa [Composer.act, if_neg hpc]

theorem commitSync (h : ComposerCourse s) : ComposerCourse (s.act .commitSync) := by
  by_cases hpc : s.commit = .waitSync ∧ 0 < s.syncSem
  · rw [Composer.act, if_pos hpc]
    cases h with
    | shown hm ht hc hd hl =>
      rcases ht with ⟨-, -, hs⟩ | ⟨-, -, hs⟩ | ⟨ht | ht, hp, hs⟩
      · omega
      · omega
      · exact .late (.inl ⟨rfl, hc⟩) (.inr (.inr ⟨ht, hp, by grind⟩)) hd
      · exact .rest (.inl rfl) ht hc hd hp (by grind)
    | _ => grind
  · rwa [Composer.act, if_neg hpc]

theorem commitTimeout (h : ComposerCourse s) : ComposerCourse (s.act .commitTimeout) := by
  by_cases hpc : s.commit = .waitSync
  · rw [Composer.act, if_pos hpc]
    cases h with
    | shown hm ht hc hd hl =>
      rcases ht with ht | ht | ⟨ht | ht, hp, hs⟩
      · exact .late (.inl ⟨rfl, hc⟩) (.inl ht) hd
      · exact .late (.inl ⟨rfl, hc⟩) (.inr (.inl ht)) hd
      · exact .late (.inl ⟨rfl, hc⟩) (.inr (.inr ⟨ht, hp, by grind⟩)) hd
      · exact .rest (.inl rfl) ht hc hd hp (by grind)
    | _ => grind
  · rwa [Composer.act, if_neg hpc]

theorem threadReady (h : ComposerCourse s) : ComposerCourse (s.act .threadReady) := by
  by_cases hpc : s.thread = .starting
  · rw [Composer.act, if_pos hpc]
    cases h with
    | early hm ht hd =>
      rcases hm with hm | hm | hm
      · exact .rest (.inl hm) rfl rfl rfl rfl (Nat.zero_le _)
      · exact .rest (.inr hm) rfl rfl rfl rfl (Nat.zero_le _)
      · exact .hung hm rfl rfl rfl
    | _ => grind
  · rwa [Composer.act, if_neg hpc]

theorem threadCmd (h : ComposerCourse s) : ComposerCourse (s.act .threadCmd) := by
  by_cases hpc : s.thread = .waitCmd ∧ 0 < s.cmdSem
  · rw [Composer.act, if_pos hpc]
    cases h with
    | asked hm ht hc hd hp hs => exact .composing hm (.inl rfl) (by simp [hc]) hd hp hs
    | _ => grind
  · rwa [Composer.act, if_neg hpc]

theorem threadCompose (h : ComposerCourse s) : ComposerCourse (s.act .threadCompose) := by
  by_cases hpc : s.thread = .composing
  · rw [Composer.act, if_pos hpc]
    cases h with
    | composing hm ht hc hd hp hs => exact .composing hm (.inr ⟨rfl, rfl⟩) hc hd hp hs
    | _ => grind
  · rwa [Composer.act, if_neg hpc]

theorem threadDone (h : ComposerCourse s) : ComposerCourse (s.act .threadDone) := by
  by_cases hpc : s.thread = .composed
  · rw [Composer.act, if_pos hpc]
    cases h with
    | composing hm ht hc hd hp hs => exact .composed (by grind) rfl hc hp hs (by grind)
    | _ => grind
  · rwa [Composer.act, if_neg hpc]

theorem threadDisplay (h : ComposerCourse s) : ComposerCourse (s.act .threadDisplay) := by
  by_cases hpc : s.thread = .waitDisplay ∧ 0 < s.displaySem
  · rw [Composer.act, if_pos hpc]
    cases h with
    | late hm ht hd => exact .late hm (by grind) hd
    | shown hm ht hc hd hl => exact .shown hm (by grind) hc hd hl
    | _ => grind
  · rwa [Composer.act, if_neg hpc]

/-- Only the frame that is waited for posts while `commit` waits. -/
theorem threadSwap (h : ComposerCourse s) (ok : Bool) : ComposerCourse (s.act (.threadSwap ok)) := by
  by_cases hpc : s.thread = .swapping
  · rw [Composer.act, if_pos hpc]
    cases h with
    | late hm ht hd =>
      split
      · exact .late hm (by grind) hd
      · exact .late hm (by grind) hd
    | shown hm ht hc hd hl =>
      split
      · exact .shown hm (by grind) hc hd hl
      · exact .shown hm (by grind) hc hd hl
    | _ => grind
  · rwa [Composer.act, if_neg hpc]

theorem threadLoop (h : ComposerCourse s) : ComposerCourse (s.act .threadLoop) := by
  by_cases hpc : s.thread = .swapped
  · rw [Composer.act, if_pos hpc]
    cases h with
    | late hm ht hd =>
      obtain ⟨-, hp, hs⟩ : s.thread = .swapped ∧ s.displaySem = 0 ∧ s.syncSem ≤ 1 := by grind
      rcases hm with ⟨hm, hc⟩ | ⟨hm, hc⟩ | ⟨hm, hc⟩
      · exact .rest (.inl hm) rfl hc hd hp hs
      · exact .rest (.inr hm) rfl hc hd hp hs
      · exact .asked hm rfl hc hd hp hs
    | shown hm ht hc hd hl => exact .shown hm (by grind) hc hd hl
    | _ => grind
  · rwa [Composer.act, if_neg hpc]

theorem act (h : ComposerCourse s) (a : ComposerAct) : ComposerCourse (s.act a) := by
  cases a with
  | commitList => exact h.commitList
  | commitCmd => exact h.commitCmd
  | commitDone => exact h.commitDone
  | commitDrain => exact h.commitDrain
  | commitDisplay => exact h.commitDisplay
  | commitSync => exact h.commitSync
  | commitTimeout => exact h.commitTimeout
  | threadReady => exact h.threadReady
  | threadCmd => exact h.threadCmd
  | threadCompose => exact h.threadCompose
  | threadDone => exact h.threadDone
  | threadDisplay => exact h.threadDisplay
  | threadSwap ok => exact h.threadSwap ok
  | threadLoop => exact h.threadLoop

theorem run (h : ComposerCourse s) (acts : List ComposerAct) : ComposerCourse (composer.run s acts).1 :=
  composer.run_invariant (fun _ a h => h.act a) acts s h

end ComposerCourse

/-- **In every interleaving** the list does not change while the thread reads it, and a wait that
succeeds finds its own list on the screen. -/
theorem composer_run (acts : List ComposerAct) :
    let r := composer.run .init acts
    (∀ e ∈ r.2, e.onScreen = e.list) ∧ (r.1.thread = .composing → r.1.commit = .waitDone) := by
  intro r
  have hstep : ∀ s log a, (ComposerCourse s ∧ ∀ e ∈ log, e.onScreen = e.list) → True →
      ComposerCourse (composer.step s a).1 ∧
        ∀ e ∈ log ++ (composer.step s a).2, e.onScreen = e.list := by
    rintro s log a ⟨h, hlog⟩ -
    refine ⟨h.act a, fun e he => ?_⟩
    rcases List.mem_append.mp he with he | he
    · exact hlog e he
    · cases a with
      | commitSync =>
        simp only [composer, Composer.synced] at he
        split at he
        · rename_i hpc
          rw [List.mem_singleton.mp he]
          cases h with
          | shown hm ht hc hd hl => grind
          | _ => grind
        · exact absurd he List.not_mem_nil
      | _ => exact absurd he List.not_mem_nil
  obtain ⟨hcourse, hsafe⟩ := composer.run_induction hstep acts .init []
    ⟨.init, fun _ he => absurd he List.not_mem_nil⟩ (composer.admits_true _ _)
  refine ⟨hsafe, fun hpc => ?_⟩
  cases hcourse with
  | composing hm _ _ _ _ _ => exact hm
  | _ => grind

/-! ## Lists that are lost -/

namespace Composer

variable {s : Composer}

/-- `commit` waits for a list that the thread has not seen and will not see. -/
def Hung (s : Composer) : Prop :=
  s.commit = .waitDone ∧ s.doneSem = 0 ∧
    (s.thread = .starting ∨ s.thread = .waitCmd ∧ s.cmdSem = 0)

theorem Hung.act (h : s.Hung) (a : ComposerAct) : (s.act a).Hung := by
  obtain ⟨hm, hd, ht⟩ := h
  cases a with
  | _ => grind [Composer.act, Hung]

theorem Hung.run (h : s.Hung) (acts : List ComposerAct) : (composer.run s acts).1.Hung :=
  composer.run_invariant (P := Hung) (fun _ a h => h.act a) acts s h

/-- The thread is ready when a list is passed to it. -/
def Ready (s : Composer) : ComposerAct → Prop
  | .commitCmd => s.commit = .listed → s.thread ≠ .starting
  | _ => True

theorem not_hung_act_iff (h : ComposerCourse s) (hh : ¬s.Hung) (a : ComposerAct) :
    ¬(s.act a).Hung ↔ s.Ready a := by
  cases a with
  | commitCmd =>
    have hd : s.commit = .listed → s.doneSem = 0 := by
      intro hm
      cases h <;> grind
    grind [Composer.act, Hung, Ready]
  | threadLoop =>
    refine iff_of_true ?_ trivial
    have hc : s.thread = .swapped → s.commit = .waitDone → s.cmdSem = 1 := by
      intro ht hm
      cases h <;> grind
    grind [Composer.act, Hung]
  | threadReady =>
    refine iff_of_true ?_ trivial
    have hd : s.thread = .starting → s.doneSem = 0 := by
      intro ht
      cases h <;> grind
    grind [Composer.act, Hung]
  | _ =>
    refine iff_of_true ?_ trivial
    grind [Composer.act, Hung]

/-! ## Lists that are composed -/

/-- A continuation lets `commit` return. -/
def CanReturn (s : Composer) : Prop := ∃ acts, (composer.run s acts).1.commit = .idle

theorem CanReturn.of_act (a : ComposerAct) (h : (s.act a).CanReturn) : s.CanReturn := by
  obtain ⟨acts, hidle⟩ := h
  exact ⟨a :: acts, hidle⟩

theorem canReturn_of_waitSync (hm : s.commit = .waitSync) : s.CanReturn :=
  ⟨[.commitTimeout], by simp [composer, Machine.run, act, hm]⟩

theorem canReturn_of_drained (hm : s.commit = .drained) : s.CanReturn := by
  apply CanReturn.of_act .commitDisplay
  apply canReturn_of_waitSync
  simp [act, hm]

/-- By induction on what is left in `sync_sem`. -/
theorem canReturn_of_draining : ∀ (n : Nat) {s : Composer}, s.syncSem = n → s.commit = .draining →
    s.CanReturn := by
  intro n
  induction n with
  | zero =>
    intro s hn hm
    apply CanReturn.of_act .commitDrain
    apply canReturn_of_drained
    simp [act, hm, hn]
  | succ n ih =>
    intro s hn hm
    apply CanReturn.of_act .commitDrain
    apply ih
    · simp [act, hm, hn]
    · simp [act, hm, hn]

theorem canReturn_of_done (hm : s.commit = .waitDone) (hd : 0 < s.doneSem) : s.CanReturn := by
  apply CanReturn.of_act .commitDone
  apply canReturn_of_draining _ rfl
  simp [act, hm, hd]

theorem canReturn_of_composed (hm : s.commit = .waitDone) (ht : s.thread = .composed) :
    s.CanReturn := by
  apply CanReturn.of_act .threadDone
  apply canReturn_of_done <;> simp [act, hm, ht]

theorem canReturn_of_composing (hm : s.commit = .waitDone) (ht : s.thread = .composing) :
    s.CanReturn := by
  apply CanReturn.of_act .threadCompose
  apply canReturn_of_composed <;> simp [act, hm, ht]

theorem canReturn_of_waitCmd (hm : s.commit = .waitDone) (ht : s.thread = .waitCmd)
    (hc : 0 < s.cmdSem) : s.CanReturn := by
  apply CanReturn.of_act .threadCmd
  apply canReturn_of_composing <;> simp [act, hm, ht, hc]

theorem canReturn_of_swapped (hm : s.commit = .waitDone) (ht : s.thread = .swapped)
    (hc : 0 < s.cmdSem) : s.CanReturn := by
  apply CanReturn.of_act .threadLoop
  apply canReturn_of_waitCmd <;> simp [act, hm, ht, hc]

theorem canReturn_of_swapping (hm : s.commit = .waitDone) (ht : s.thread = .swapping)
    (hc : 0 < s.cmdSem) : s.CanReturn := by
  apply CanReturn.of_act (.threadSwap true)
  apply canReturn_of_swapped <;> simp [act, hm, ht, hc]

theorem canReturn_of_waitDisplay (hm : s.commit = .waitDone) (ht : s.thread = .waitDisplay)
    (hp : 0 < s.displaySem) (hc : 0 < s.cmdSem) : s.CanReturn := by
  apply CanReturn.of_act .threadDisplay
  apply canReturn_of_swapping <;> simp [act, hm, ht, hp, hc]

theorem canReturn_of_waitDone (h : ComposerCourse s) (hm : s.commit = .waitDone) (hh : ¬s.Hung) :
    s.CanReturn := by
  cases h with
  | late hm' ht hd =>
    have hc : 0 < s.cmdSem := by grind
    rcases ht with ⟨ht, hp, -⟩ | ⟨ht, -, -⟩ | ⟨ht, -, -⟩
    · exact canReturn_of_waitDisplay hm ht (by omega) hc
    · exact canReturn_of_swapping hm ht hc
    · exact canReturn_of_swapped hm ht hc
  | asked _ ht hc hd hp hs => exact canReturn_of_waitCmd hm ht (by omega)
  | composing _ ht hc hd hp hs =>
    rcases ht with ht | ⟨ht, -⟩
    · exact canReturn_of_composing hm ht
    · exact canReturn_of_composed hm ht
  | composed hm' ht hc hp hs hl => exact canReturn_of_done hm (by grind)
  | _ => grind [Hung]

/-- A list that is not passed yet can wait for the thread. -/
theorem canReturn_of_listed (h : ComposerCourse s) (hm : s.commit = .listed) : s.CanReturn := by
  have hready : ∀ {t : Composer}, ComposerCourse t → t.commit = .listed → t.thread ≠ .starting →
      t.CanReturn := by
    intro t h hm ht
    apply CanReturn.of_act .commitCmd
    refine canReturn_of_waitDone (h.act .commitCmd) (by simp [act, hm]) ?_
    grind [Composer.act, Hung]
  by_cases ht : s.thread = .starting
  · apply CanReturn.of_act .threadReady
    refine hready (h.act .threadReady) ?_ ?_ <;> simp [act, hm, ht]
  · exact hready h hm ht

/-- `commit` can return from wherever it is unless it hangs. -/
theorem canReturn_iff (h : ComposerCourse s) : s.CanReturn ↔ ¬s.Hung := by
  constructor
  · rintro ⟨acts, hidle⟩ hh
    cases hidle.symm.trans (hh.run acts).1
  · intro hh
    cases hm : s.commit with
    | idle => exact ⟨[], hm⟩
    | listed => exact canReturn_of_listed h hm
    | waitDone => exact canReturn_of_waitDone h hm hh
    | draining => exact canReturn_of_draining _ rfl hm
    | drained => exact canReturn_of_drained hm
    | waitSync => exact canReturn_of_waitSync hm

end Composer

/-- **From every moment of an interleaving** `commit` can return exactly if no list is passed to the
thread before it is ready. -/
theorem composer_returns_iff (acts : List ComposerAct) :
    (∀ pre, pre <+: acts → (composer.run .init pre).1.CanReturn) ↔
      composer.Admits Composer.Ready .init acts := by
  have hgood := composer.good_iff_of_invariant (P := ComposerCourse)
    (fun _ a h => h.act a) (fun _ a h hh => Composer.not_hung_act_iff h hh a) acts _ .init
    fun h => nomatch h.1
  rw [← hgood]
  exact forall₂_congr fun pre _ => Composer.canReturn_iff (ComposerCourse.init.run pre)

/-- A list is passed while EGL is set up. -/
example : (composer.run .init [.commitList, .commitCmd, .threadReady]).1.Hung :=
  ⟨rfl, rfl, .inr ⟨rfl, rfl⟩⟩

end SprdHal.Hwc

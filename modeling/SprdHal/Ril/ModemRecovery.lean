import SprdHal.Lib.Machine

/-!
# Recovery of a SIPC modem (`modemd_sipc.c`)

Two threads watch one modem. `detect_sipc_modem` takes the resets, asserts and watchdog interrupts,
`detect_modem_blocked` the reports that the modem is blocked; both claim the recovery by changing
the modem state and then run `load_sipc_modem_img`, whose last act is to make the state
`MODEM_READY` again and to signal the condition variable. A step is a critical section of the state
mutex or a stretch without shared state; the last critical section of `load_sipc_modem_img` and its
return are one step.

Only `detect_modem_blocked` looks at the state before it claims the recovery, and
`load_sipc_modem_img` restores the state only if it gets past the set-up of its timer.
-/

namespace SprdHal.Ril

open SprdHal.Lib

/-- `MODEM_READY`, `MODEM_ASSERT`, `MODEM_RESET` -/
inductive ModemState
  | ready | assert | reset
  deriving DecidableEq, Repr

/-- What the assert and watchdog devices report. -/
inductive SipcEvent
  | reset | assert | wdtirq
  deriving DecidableEq, Repr

def SipcEvent.state : SipcEvent → ModemState
  | .reset => .reset
  | .assert => .assert
  | .wdtirq => .assert

/-- Where a thread is. `claimed always` is between the claim and the call of
`load_sipc_modem_img`, which depends on the reset property unless `always` is set. -/
inductive Pc
  | idle
  | claimed (always : Bool)
  | loading
  | waiting
  deriving DecidableEq, Repr

/-- The thread is inside its event handling. -/
def Pc.handling : Pc → Bool
  | .claimed _ => true
  | .loading => true
  | _ => false

/-- One modem and its two threads; `wakealarm_fd` and `epollfd` are known by whether they are
open. -/
structure Modem where
  state : ModemState
  sipc : Pc
  blocked : Pc
  wakealarmFd : Bool
  epollfd : Bool
  deriving DecidableEq

inductive Thread
  | sipc | blocked
  deriving DecidableEq, Repr

/-- Outcomes of the calls of `load_sipc_modem_img` that make it give up. -/
structure SetUp where
  propertyGet : Bool
  timerfdCreate : Bool
  epollCreate : Bool
  epollCtl : Bool
  deriving DecidableEq

namespace Modem

variable (m : Modem)

def init : Modem := ⟨.ready, .idle, .idle, false, false⟩

def pc : Thread → Pc
  | .sipc => m.sipc
  | .blocked => m.blocked

def setPc (p : Pc) : Thread → Modem
  | .sipc => { m with sipc := p }
  | .blocked => { m with blocked := p }

/-- `pthread_cond_signal`: only `detect_modem_blocked` waits. -/
def signal : Modem := if m.blocked = .waiting then { m with blocked := .idle } else m

/-- The end of `load_sipc_modem_img`. -/
def ready : Modem := signal { m with state := .ready }

/-- `load_sipc_modem_img`, from the set-up of the timer on: whether it succeeds. -/
def loadSipcModemImg (o : SetUp) : Bool × Modem :=
  if ¬o.propertyGet then (false, m)
  else if ¬m.wakealarmFd ∧ ¬o.timerfdCreate then (false, m)
  else
    let m := { m with wakealarmFd := true }
    if m.epollfd then (true, m.ready)
    else if ¬o.epollCreate then (false, m)
    else
      let m := { m with epollfd := true }
      if ¬o.epollCtl then (false, m) else (true, m.ready)

end Modem

/-- A step of one of the threads. -/
inductive Act
  /-- an event is read, and the recovery claimed -/
  | sipcEvent (e : SipcEvent)
  /-- `Modem Blocked` is read, and the recovery claimed if the modem is ready -/
  | blockedEvent
  /-- the socket is closed: wait until the modem is ready -/
  | blockedClosed
  /-- `pthread_cond_wait` returns without a signal -/
  | spurious
  /-- the reset property is read -/
  | property (t : Thread) (isReset : Bool)
  /-- `load_sipc_modem_img` returns -/
  | loaded (t : Thread) (o : SetUp)
  deriving DecidableEq

/-- A step that the thread is not ready for changes nothing. -/
def Modem.act (m : Modem) : Act → Modem
  | .sipcEvent e =>
    if m.sipc = .idle then { m with state := e.state, sipc := .claimed (e = .reset) } else m
  | .blockedEvent =>
    if m.blocked = .idle ∧ m.state = .ready then
      { m with state := .assert, blocked := .claimed false }
    else m
  | .blockedClosed =>
    if m.blocked = .idle ∧ m.state ≠ .ready then { m with blocked := .waiting } else m
  | .spurious => if m.blocked = .waiting then { m with blocked := .idle } else m
  | .property t isReset =>
    match m.pc t with
    | .claimed always => m.setPc (if always ∨ isReset then .loading else .idle) t
    | _ => m
  | .loaded t o =>
    if m.pc t = .loading then (m.loadSipcModemImg o).2.setPc .idle t else m

def modemd : Machine Modem Act Unit where
  step m a := (m.act a, [])

/-! ## What the recovery is meant to keep -/

/-- Two loads never overlap, the modem is ready when nobody handles an event, and a thread that
waits has somebody left to wake it. -/
structure RecoveryOk (m : Modem) : Prop where
  no_overlap : ¬(m.sipc = .loading ∧ m.blocked = .loading)
  ready_at_rest : m.sipc.handling = false → m.blocked.handling = false → m.state = .ready
  woken : m.blocked = .waiting → m.sipc.handling = true

/-- The steps in scope: the reset property is enabled. -/
def ResetEnabled : Act → Prop
  | .property _ isReset => isReset = true
  | _ => True

/-- No event comes for `detect_sipc_modem` while the other thread handles one, and no set-up
fails. -/
def Undisturbed (m : Modem) : Act → Prop
  | .sipcEvent _ => m.blocked.handling = false
  | .loaded t o => m.pc t = .loading → (m.loadSipcModemImg o).1 = true
  | _ => True

/-! ## Proof -/

/-- At most one thread handles an event, and the state says whether one does. -/
structure Exclusive (m : Modem) : Prop where
  one : m.sipc.handling = false ∨ m.blocked.handling = false
  state : m.state = .ready ↔ m.sipc.handling = false ∧ m.blocked.handling = false
  waits : m.blocked = .waiting → m.sipc.handling = true
  sipc_waits : m.sipc ≠ .waiting

theorem Exclusive.recoveryOk {m : Modem} (h : Exclusive m) : RecoveryOk m := by
  refine ⟨?_, fun h1 h2 => h.state.mpr ⟨h1, h2⟩, h.waits⟩
  rintro ⟨h1, h2⟩
  rcases h.one with hone | hone
  · rw [h1] at hone
    exact nomatch hone
  · rw [h2] at hone
    exact nomatch hone

/-- A load that gets past its set-up leaves the modem ready and nobody waiting. -/
theorem loadSipcModemImg_ok {m : Modem} {o : SetUp} (h : (m.loadSipcModemImg o).1 = true) :
    (m.loadSipcModemImg o).2.state = .ready ∧ (m.loadSipcModemImg o).2.sipc = m.sipc ∧
      (m.loadSipcModemImg o).2.blocked = if m.blocked = .waiting then .idle else m.blocked := by
  have hready : ∀ m' : Modem, m'.ready.state = .ready ∧ m'.ready.sipc = m'.sipc ∧
      m'.ready.blocked = if m'.blocked = .waiting then .idle else m'.blocked := by
    intro m'
    unfold Modem.ready Modem.signal
    dsimp only
    split
    · exact ⟨rfl, rfl, rfl⟩
    · exact ⟨rfl, rfl, rfl⟩
  unfold Modem.loadSipcModemImg at h ⊢
  split at h
  · exact nomatch h
  · rename_i h1
    rw [if_neg h1]
    split at h
    · exact nomatch h
    · rename_i h2
      rw [if_neg h2]
      dsimp only at h ⊢
      split at h
      · rename_i h3
        rw [if_pos h3]
        exact hready _
      · rename_i h3
        rw [if_neg h3]
        split at h
        · exact nomatch h
        · rename_i h4
          rw [if_neg h4]
          split at h
          · exact nomatch h
          · rename_i h5
            rw [if_neg h5]
            exact hready _

theorem Exclusive.sipcEvent {m : Modem} (h : Exclusive m) (e : SipcEvent)
    (hb : m.blocked.handling = false) : Exclusive (m.act (.sipcEvent e)) := by
  simp only [Modem.act]
  split
  · refine ⟨Or.inr hb, ?_, fun _ => rfl, nofun⟩
    cases e <;> simp [SipcEvent.state, Pc.handling]
  · exact h

theorem Exclusive.blockedEvent {m : Modem} (h : Exclusive m) : Exclusive (m.act .blockedEvent) := by
  simp only [Modem.act]
  split
  · rename_i hc
    obtain ⟨hs, -⟩ := h.state.mp hc.2
    refine ⟨Or.inl hs, ?_, nofun, h.sipc_waits⟩
    simp [Pc.handling]
  · exact h

theorem Exclusive.blockedClosed {m : Modem} (h : Exclusive m) :
    Exclusive (m.act .blockedClosed) := by
  simp only [Modem.act]
  split
  · rename_i hc
    have hidle : m.blocked.handling = false := by rw [hc.1]; rfl
    have hs : m.sipc.handling = true := by
      by_contra hs
      exact hc.2 (h.state.mpr ⟨by simpa using hs, hidle⟩)
    refine ⟨Or.inr rfl, ?_, fun _ => hs, h.sipc_waits⟩
    simp [hc.2, hs]
  · exact h

theorem Exclusive.spurious {m : Modem} (h : Exclusive m) : Exclusive (m.act .spurious) := by
  simp only [Modem.act]
  split
  · rename_i hw
    refine ⟨Or.inr rfl, ?_, nofun, h.sipc_waits⟩
    rw [h.state, hw]
    rfl
  · exact h

theorem Exclusive.property {m : Modem} (h : Exclusive m) (t : Thread) :
    Exclusive (m.act (.property t true)) := by
  simp only [Modem.act]
  cases t with
  | sipc =>
    cases hp : m.sipc with
    | claimed always =>
      have hs : m.sipc.handling = true := by rw [hp]; rfl
      simp only [Modem.pc, hp, Modem.setPc, or_true, if_true]
      refine ⟨?_, ?_, fun _ => rfl, nofun⟩
      · exact Or.inr (h.one.resolve_left (by rw [hs]; nofun))
      · rw [h.state, hs]
        rfl
    | idle => simpa only [Modem.pc, hp] using h
    | loading => simpa only [Modem.pc, hp] using h
    | waiting => simpa only [Modem.pc, hp] using h
  | blocked =>
    cases hp : m.blocked with
    | claimed always =>
      have hs : m.blocked.handling = true := by rw [hp]; rfl
      simp only [Modem.pc, hp, Modem.setPc, or_true, if_true]
      refine ⟨?_, ?_, nofun, h.sipc_waits⟩
      · exact Or.inl (h.one.resolve_right (by rw [hs]; nofun))
      · rw [h.state, hs]
        rfl
    | idle => simpa only [Modem.pc, hp] using h
    | loading => simpa only [Modem.pc, hp] using h
    | waiting => simpa only [Modem.pc, hp] using h

theorem Exclusive.loaded {m : Modem} (h : Exclusive m) (t : Thread) (o : SetUp)
    (ho : m.pc t = .loading → (m.loadSipcModemImg o).1 = true) :
    Exclusive (m.act (.loaded t o)) := by
  simp only [Modem.act]
  split
  · rename_i hl
    obtain ⟨hstate, hsipc, hblocked⟩ := loadSipcModemImg_ok (ho hl)
    cases t with
    | sipc =>
      -- the other thread does not handle an event, and does not wait any more
      have hb : (m.loadSipcModemImg o).2.blocked.handling = false ∧
          (m.loadSipcModemImg o).2.blocked ≠ .waiting := by
        rw [hblocked]
        split
        · exact ⟨rfl, nofun⟩
        · rename_i hw
          refine ⟨h.one.resolve_left ?_, hw⟩
          rw [show m.sipc = .loading from hl]
          nofun
      exact ⟨Or.inl rfl, ⟨fun _ => ⟨rfl, hb.1⟩, fun _ => hstate⟩, fun hw => absurd hw hb.2, nofun⟩
    | blocked =>
      have hs : m.sipc.handling = false := by
        refine h.one.resolve_right ?_
        rw [show m.blocked = .loading from hl]
        nofun
      have hs' : (m.loadSipcModemImg o).2.sipc.handling = false := by rw [hsipc]; exact hs
      refine ⟨Or.inr rfl, ⟨fun _ => ⟨hs', rfl⟩, fun _ => hstate⟩, nofun, ?_⟩
      show (m.loadSipcModemImg o).2.sipc ≠ .waiting
      rw [hsipc]
      exact h.sipc_waits
  · exact h

theorem Exclusive.act {m : Modem} (h : Exclusive m) {a : Act} (hr : ResetEnabled a)
    (hu : Undisturbed m a) : Exclusive (m.act a) := by
  cases a with
  | sipcEvent e => exact h.sipcEvent e hu
  | blockedEvent => exact h.blockedEvent
  | blockedClosed => exact h.blockedClosed
  | spurious => exact h.spurious
  | property t isReset =>
    rw [show isReset = true from hr]
    exact h.property t
  | loaded t o => exact h.loaded t o hu

/-- In every interleaving in which no event of `detect_sipc_modem` falls into the event handling of
`detect_modem_blocked` and no set-up fails, every state is in order. -/
theorem recovery_run (acts : List Act)
    (hadm : modemd.Admits (fun m a => ResetEnabled a ∧ Undisturbed m a) Modem.init acts) :
    RecoveryOk (modemd.run Modem.init acts).1 := by
  have hinit : Exclusive Modem.init := ⟨Or.inl rfl, by decide, nofun, nofun⟩
  have hstep : ∀ (m : Modem) (log : List Unit) (a : Act), Exclusive m →
      ResetEnabled a ∧ Undisturbed m a → Exclusive (modemd.step m a).1 :=
    fun m _ a h ha => h.act ha.1 ha.2
  exact (modemd.run_induction (P := fun m _ => Exclusive m) hstep acts _ [] hinit hadm).recoveryOk

/-- A blocked modem is recovered while an assert comes afterwards. -/
theorem recovery_run_blocked_then_assert :
    RecoveryOk (modemd.run Modem.init [.blockedEvent, .property .blocked true,
      .loaded .blocked ⟨true, true, true, true⟩, .sipcEvent .assert, .blockedEvent,
      .property .sipc true]).1 :=
  recovery_run _ ⟨⟨trivial, trivial⟩, ⟨rfl, trivial⟩, ⟨trivial, fun _ => rfl⟩, ⟨trivial, rfl⟩,
    ⟨trivial, trivial⟩, ⟨rfl, trivial⟩, trivial⟩

/-- An assert during the recovery of a blocked modem makes two loads overlap; and a load without a
timer leaves the modem in the state `MODEM_ASSERT` for good. -/
theorem recovery_not_ok :
    ¬RecoveryOk (modemd.run Modem.init [.blockedEvent, .sipcEvent .assert,
      .property .blocked true, .property .sipc true]).1 ∧
    ¬RecoveryOk (modemd.run Modem.init [.sipcEvent .assert, .property .sipc true,
      .loaded .sipc ⟨true, false, true, true⟩]).1 :=
  ⟨fun h => h.no_overlap (by decide), fun h => absurd (h.ready_at_rest rfl rfl) (by decide)⟩

end SprdHal.Ril
